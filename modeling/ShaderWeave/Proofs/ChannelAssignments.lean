import ShaderWeave.Proofs.AssembledSource
import ShaderWeave.Proofs.ReadMeaning

/-!
# What a Channel Is Assigned

The node that carries a value over a channel assigns it in the vertex stage: as a whole if the channel
is not an array, and element by element otherwise. The first kind of assignment reads the value at the
type of the channel, the second one only mentions its name. A read at the type of the value takes no
notice of arrays, so neither kind of assignment is refused for an array that does not fit.

The assignments of a compiled model are read back from their text and typed.

## Main definitions

* `Carries`: which values fit a channel.

## Main results

* `producer_fragments`: the assignments that the node makes in its turn.
* `channel_assignments_typed_iff`: the assignments are well typed exactly if the value fits the channel.
-/

namespace ShaderWeave

open Source

/-! ## The Assignments -/

/-- The code that assigns an element of a value to an element of a channel. -/
def elementAssignment (name : String) (input : Handle) (i : Nat) : Code :=
  let place := "[" ++ toString i ++ "]"
  [name, place, " = ", .mention input, place, ";"]

/-- Elements are assigned one after another, in whatever state. -/
theorem codeCalls_assignElements (name : String) (input : Handle) (count start : Nat)
    (state : EmitState) :
    (EndpointNode.assignElements name input count start).codeCalls state =
      (List.range' start count).map fun i => .main (elementAssignment name input i) := by
  induction count generalizing start state with
  | zero => rfl
  | succ count ih =>
    rw [List.range'_succ, List.map_cons, ← ih (start + 1)
      { state with code := state.code.append (elementAssignment name input start) }]
    rfl

/-- What follows a read: the emission goes on with an expression, and fails without one. -/
def afterRead (handle : Handle) (next : Piece → Emit Unit) : Except GraphError Expr → Emit Unit
  | .ok expr => next (.read handle expr)
  | .error error => .fail (.refused error)

/-- An emission that ends well gets an expression for the value that it reads. -/
theorem codeCalls_read {handle : Handle} {ty : ValueType} {widening : Widening}
    {next : Piece → Emit Unit} {state after : EmitState}
    (h : (Emit.read handle ty widening >>= next).run state = .ok () after) :
    ∃ expr, handle.value.read ty widening = .ok expr ∧
      (Emit.read handle ty widening >>= next).codeCalls state =
        (next (.read handle expr)).codeCalls state := by
  have hcall : (Emit.read handle ty widening >>= next) =
      .call (.read handle ty widening) (afterRead handle next) := by
    apply congrArg (Routine.call (EmitCall.read handle ty widening))
    funext answer
    cases answer <;> rfl
  rw [hcall] at h ⊢
  have hrun : (afterRead handle next (state.read handle ty widening)).run state = .ok () after := h
  have hcalls : Emit.codeCalls (.call (.read handle ty widening) (afterRead handle next)) state =
    (afterRead handle next (state.read handle ty widening)).codeCalls state := rfl
  rw [hcalls]
  cases hread : state.read handle ty widening with
  | error error =>
    rw [hread] at hrun
    cases hrun
  | ok expr =>
    refine ⟨expr, ?_, rfl⟩
    unfold EmitState.read at hread
    split at hread
    · exact hread
    · cases hread

/-- The code of the assignments of a channel: one for each element of an array, and otherwise one of
what the value is read as. -/
def assignmentCode (channel : Channel) (input : Handle) (expr : Expr) : List Code :=
  match channel.var.arrayLen with
  | some len => (List.range len.toNat).map (elementAssignment channel.var.name input)
  | none => [[channel.var.name, " = ", .read input expr, ";"]]

/-- The node assigns the whole channel in its turn. It needs to read the value only if the channel is
not an array. -/
theorem producer_fragments {channel : Channel} {input : Handle} {state after : EmitState}
    (hrun : (EndpointNode.producer channel input).emit.run state = .ok () after) :
    ∃ expr, fragments ((EndpointNode.producer channel input).emit.codeCalls state) =
        assignmentCode channel input expr ∧
      (channel.var.arrayLen = none → input.value.read channel.var.ty .point = .ok expr) := by
  unfold assignmentCode
  cases harray : channel.var.arrayLen with
  | some len =>
    refine ⟨.atom "", ?_, fun hnone => by cases hnone⟩
    simp only [EndpointNode.emit, harray]
    rw [codeCalls_assignElements, ← List.range_eq_range', fragments, List.filterMap_map]
    exact congrFun List.filterMap_eq_map' _
  | none =>
    simp only [EndpointNode.emit, harray] at hrun ⊢
    obtain ⟨expr, hread, hcalls⟩ := codeCalls_read hrun
    exact ⟨expr, by rw [hcalls]; rfl, fun _ => hread⟩

/-! ## Which Values Fit -/

/-- The type of the elements and their number: those of an array, the components of a vector, or the
columns of a matrix. -/
def elementsOf : TermType → Option (ValueType × Nat)
  | .array ty len => some (ty, len)
  | .single (.vector _ .one) => none
  | .single (.vector kind width) => some (.vector kind .one, width.toNat)
  | .single (.matrix size) => some (.vector .float (rowsWidth size), size.toNat)
  | .single (.sampler _) => none

/-- Which values fit a channel. A channel that is not an array takes what is not an array. An array with
elements takes what has elements of its type, and at least as many. -/
def Carries (channel input : Variable) : Prop :=
  match channel.arrayLen with
  | none => input.arrayLen = none
  | some len => len.toNat = 0 ∨
    ∃ count, elementsOf (variableType input) = some (channel.ty, count) ∧ len.toNat ≤ count

theorem elementType_eq (ty : TermType) (i : Nat) :
    elementType ty i = (elementsOf ty).bind fun elements =>
      if i < elements.2 then some (.single elements.1) else none := by
  rcases ty with (⟨kind, _ | _ | _ | _⟩ | size | dim) | ⟨ty, len⟩ <;> simp [elementType, elementsOf]

/-- All elements below a number exist and have a type if and only if there are so many. -/
theorem forall_elementType_iff {ty : TermType} {element : ValueType} {n : Nat} :
    (∀ i < n, elementType ty i = some (.single element)) ↔
      n = 0 ∨ ∃ count, elementsOf ty = some (element, count) ∧ n ≤ count := by
  constructor
  · intro h
    by_cases hn : n = 0
    · exact .inl hn
    · -- The last element is there, so there are at least as many.
      have hlast := h (n - 1) (Nat.sub_one_lt hn)
      rw [elementType_eq] at hlast
      obtain ⟨elements, helements, hif⟩ := Option.bind_eq_some_iff.1 hlast
      obtain ⟨hlt, hsingle⟩ := Option.ite_none_right_eq_some.1 hif
      cases hsingle
      exact .inr ⟨elements.2, helements, by omega⟩
  · rintro (rfl | ⟨count, helements, hle⟩) i hi
    · exact absurd hi (Nat.not_lt_zero i)
    · rw [elementType_eq, helements]
      exact if_pos (Nat.lt_of_lt_of_le hi hle)

/-! ## Reading the Assignments Back -/

/-- A name does not begin a declaration. -/
theorem contract_name {name : String} (h : IsName name) (rest : List Token) :
    whole contract (.word name :: rest) = none := by
  have htype : typeName (.word name :: rest) = none := by
    have hfind : ValueType.all.find? (·.glsl == name) = none :=
      List.find?_eq_none.2 fun ty _ => by simpa using h.2.2 ty
    rw [typeName, wordAs, hfind]
    rfl
  have hcontract : contract (.word name :: rest) = none := by
    show (typeName (.word name :: rest)).bind _ = none
    rw [htype]
    rfl
  rw [whole, hcontract]

section Typing

variable {scope : Scope} {channel : Channel} {input : Handle} {t : Term}

/-- The statement that assigns a value to the channel as a whole. -/
theorem read_wholeAssignment {expr : Expr} (hname : IsName channel.var.name)
    (hvalue : ReadsTerm expr.render t) :
    Statement.read (Code.render [channel.var.name, " = ", .read input expr, ";"]) =
      some (.assign (.name channel.var.name) t) := by
  have htext : Code.render [channel.var.name, " = ", .read input expr, ";"] =
      channel.var.name ++ (" = " ++ (expr.render ++ ";")) := by
    simp [Piece.render]
  rw [htext]
  apply read_assign hname.readsTerm _ hvalue
  rw [lex_word hname.1]
  exact contract_name hname []

/-- The statement that assigns an element. -/
theorem read_elementAssignment (hname : IsName channel.var.name)
    (hinput : ReadsTerm input.name t) (i : Nat) :
    Statement.read (elementAssignment channel.var.name input i).render =
      some (.assign (.element (.name channel.var.name) i) (.element t i)) := by
  have htext : (elementAssignment channel.var.name input i).render =
      (channel.var.name ++ ("[" ++ (toString i ++ "]"))) ++
        (" = " ++ ((input.name ++ ("[" ++ (toString i ++ "]"))) ++ ";")) := by
    simp [elementAssignment, Piece.render, String.append_assoc]
  rw [htext]
  apply read_assign (hname.readsTerm.element i) _ (hinput.element i)
  rw [lex_append (.inr (startsApart_append (by decide) rfl)), lex_word hname.1]
  exact contract_name hname _

/-- An element is assigned what has the type of the channel. -/
theorem wellTyped_elementAssignment_iff {len : UInt32} {i : Nat}
    (hchannel : scope.types channel.var.name = some (variableType channel.var))
    (hlen : channel.var.arrayLen = some len) (hi : i < len.toNat)
    (htyped : t.typeIn scope = some (variableType input.value.toVariable)) :
    (Statement.assign (.element (.name channel.var.name) i) (.element t i)).WellTyped scope ↔
      elementType (variableType input.value.toVariable) i = some (.single channel.var.ty) := by
  have hplace : (Term.element (.name channel.var.name) i).typeIn scope =
      some (.single channel.var.ty) := by
    rw [Term.typeIn, Term.typeIn, hchannel, variableType, hlen]
    exact if_pos hi
  rw [wellTyped_assign_iff rfl hplace, Term.typeIn, htyped, Option.bind_some]

/-- Only a read at the type of an array is not refused, and it is the array. -/
theorem eq_atom_of_read_array {v : Value} {len : UInt32} {target : ValueType} {widening : Widening}
    {expr : Expr} (harray : v.arrayLen = some len) (h : v.read target widening = .ok expr) :
    expr = .atom v.name := by
  unfold Value.read at h
  rw [harray] at h
  by_cases hsame : v.ty = target
  · rw [if_pos hsame] at h
    cases h
    rfl
  · rw [if_neg hsame] at h
    cases h

/-- A value that can be read at the type of a channel that is not an array fits it if it is not an array
itself: an array is read as it stands. -/
theorem exists_wholeAssignment {expr : Expr}
    (hchannel : scope.types channel.var.name = some (.single channel.var.ty))
    (hread : Term.read input.name = some t)
    (htyped : t.typeIn scope = some (variableType input.value.toVariable))
    (hok : input.value.read channel.var.ty .point = .ok expr) :
    ∃ value, ReadsTerm expr.render value ∧
      ((Statement.assign (.name channel.var.name) value).WellTyped scope ↔
        input.value.arrayLen = none) := by
  have hplace : (Term.name channel.var.name).typeIn scope = some (.single channel.var.ty) := by
    rw [Term.typeIn, hchannel]
  cases harray : input.value.arrayLen with
  | none =>
    have hatom : ReadsAt scope (.atom input.value.name) input.value.ty t := by
      rw [variableType, harray] at htyped
      exact ⟨readsTerm_iff.2 hread, htyped⟩
    -- The read was not refused, so it is one of those that have the type that was asked for.
    have hcoercible : Coercible input.value.ty channel.var.ty := by
      by_contra hrefused
      rw [read_eq_error hrefused] at hok
      cases hok
    obtain ⟨found, value, hfound, hreads, -⟩ := exists_readsAt hatom harray hcoercible .point
    rw [hok] at hfound
    cases hfound
    refine ⟨value, hreads.reads, ?_⟩
    rw [wellTyped_assign_iff rfl hplace]
    exact ⟨fun _ => rfl, fun _ => hreads.typed⟩
  | some len =>
    rw [eq_atom_of_read_array harray hok]
    refine ⟨t, readsTerm_iff.2 hread, ?_⟩
    rw [wellTyped_assign_iff rfl hplace, htyped, variableType, harray]
    simp

end Typing

/-! ## Main Result -/

/-- The assignments of a channel. Let a model compile in which a node carries a value over a channel.
Let the name of the channel be a name, and let the value be read as an expression, both with the types
that they have. Then the assignments that the node makes in its turn are read back as statements:

* one of what the value is read as, if the channel is not an array, and
* one for each element of the channel, from the element of the value with the same number, otherwise.

All of them are well typed exactly if the value fits the channel. Nothing of this is checked when the
model is compiled. -/
theorem channel_assignments_typed_iff {m : Model} {start : CompileInput} {shader : Shader}
    (stage : Stage) (index : Nat) (id : NodeId) (channel : Channel) (input : Handle) (scope : Scope)
    (t : Term) (hcompile : (m.compile start).outcome = .ok shader)
    (hnode : (m.graph stage).nodes[index]? =
      some ((LibraryNode.endpoint (.producer channel input)).toNode id))
    (hname : IsName channel.var.name)
    (hchannel : scope.types channel.var.name = some (variableType channel.var))
    (hread : Term.read input.name = some t)
    (htyped : t.typeIn scope = some (variableType input.value.toVariable)) :
    ∃ (position : Nat) (turn : Turn), (m.order stage)[position]? = some index ∧
      (m.turns start stage)[position]? = some turn ∧
      (∃ before after, (shader.program stage).code.main = before ++ fragments turn.calls ++ after) ∧
      ∃ statements : List Statement,
        (fragments turn.calls).map (fun code => Statement.read code.render) =
          statements.map some ∧
        (channel.var.arrayLen = none →
          ∃ value, statements = [.assign (.name channel.var.name) value]) ∧
        (∀ len, channel.var.arrayLen = some len → statements = (List.range len.toNat).map fun i =>
          .assign (.element (.name channel.var.name) i) (.element t i)) ∧
        ((∀ statement ∈ statements, statement.WellTyped scope) ↔
          Carries channel.var input.value.toVariable) := by
  obtain ⟨position, turn, hposition, hturn, hturnNode, ⟨after, hrun⟩, hmain⟩ :=
    exists_turn_of_compile hcompile hnode
  have hcalls : turn.calls = (EndpointNode.producer channel input).emit.codeCalls turn.state := by
    rw [Turn.calls, hturnNode]
    rfl
  obtain ⟨expr, hfragments, hok⟩ := producer_fragments hrun
  refine ⟨position, turn, hposition, hturn, hmain, ?_⟩
  rw [hcalls, hfragments]
  unfold assignmentCode Carries
  cases harray : channel.var.arrayLen with
  | none =>
    rw [variableType, harray] at hchannel
    obtain ⟨value, hvalue, hwellTyped⟩ := exists_wholeAssignment hchannel hread htyped (hok harray)
    refine ⟨[.assign (.name channel.var.name) value], ?_, fun _ => ⟨value, rfl⟩,
      fun len hlen => (by cases hlen), ?_⟩
    · rw [List.map_singleton, read_wholeAssignment hname hvalue]
      rfl
    · rw [List.forall_mem_singleton]
      exact hwellTyped
  | some len =>
    refine ⟨(List.range len.toNat).map fun i =>
      .assign (.element (.name channel.var.name) i) (.element t i), ?_, fun hnone => (by cases hnone),
      fun len' hlen' => (by cases hlen'; rfl), ?_⟩
    · rw [List.map_map, List.map_map]
      exact List.map_congr_left fun i _ =>
        read_elementAssignment hname (readsTerm_iff.2 hread) i
    · -- Each assignment asks for one element, and all of them together for so many.
      rw [List.forall_mem_map]
      refine Iff.trans (forall_congr' fun i => ?_) forall_elementType_iff
      rw [List.mem_range]
      exact forall_congr' fun hi => wellTyped_elementAssignment_iff hchannel harray hi htyped

/-- A design that carries a uniform over a channel. -/
def carryDesign (channel input : Variable) : Design where
  name := "carry"
  vertex := [.library (.endpoint (.producer { id := 0, var := channel } { value := .uniform input }))]
  fragment := [.library (.endpoint (.consumer { id := 0, var := channel } channel))]

/-- The channel and the uniform have their types, and nothing else has one. -/
def carryScope (channel input : Variable) : Scope where
  types text :=
    if text = channel.name then some (variableType channel)
    else if text = input.name then some (variableType input)
    else none
  scalarSwizzles := false

/-- A channel of layers. -/
def layer (len : Option UInt32) : Variable :=
  { name := "layer", ty := .vec4, arrayLen := len }

/-- A uniform array of layers. -/
def uniformLayers (len : UInt32) : Variable :=
  { name := "uLayers", ty := .vec4, arrayLen := some len }

/-- The first two of three layers are carried, by assignments that are well typed. -/
theorem layers_assignments_typed :
    ∃ shader, ((carryDesign (layer (some 2)) (uniformLayers 3)).model.compile
        { target := .vulkan }).outcome = .ok shader ∧
      ∃ (position : Nat) (turn : Turn),
        ((carryDesign (layer (some 2)) (uniformLayers 3)).model.turns
          { target := .vulkan } .vertex)[position]? = some turn ∧
        ∃ statements : List Statement,
          (fragments turn.calls).map (fun code => Statement.read code.render) =
            statements.map some ∧ statements.length = 2 ∧
          ∀ statement ∈ statements,
            statement.WellTyped (carryScope (layer (some 2)) (uniformLayers 3)) := by
  have hcompiles : ((carryDesign (layer (some 2)) (uniformLayers 3)).model.compile
      { target := .vulkan }).outcome.toOption.map (fun _ => ()) = some () := by
    decide +kernel
  obtain ⟨shader, hshader, -⟩ := exists_ok_of_map_eq hcompiles
  obtain ⟨position, turn, -, hturn, -, statements, hstatements, -, helements, hwellTyped⟩ :=
    channel_assignments_typed_iff .vertex 0 { stage := .vertex, graph := 0, index := 0 }
      { id := 0, var := layer (some 2) } { value := .uniform (uniformLayers 3) }
      (carryScope (layer (some 2)) (uniformLayers 3)) (.name "uLayers") hshader rfl (by decide) rfl
      rfl rfl
  refine ⟨shader, hshader, position, turn, hturn, statements, hstatements, ?_, ?_⟩
  · rw [helements 2 rfl]
    rfl
  · exact hwellTyped.2 (.inr ⟨3, rfl, by decide⟩)

/-- An array is assigned to a channel that is not one, and more elements are assigned than there are: both
models compile, and in both of them an assignment is not well typed. -/
theorem unfit_arrays_assigned :
    (∃ shader, ((carryDesign (layer none) (uniformLayers 2)).model.compile
        { target := .vulkan }).outcome = .ok shader ∧
      shader.vertex.code.main.map Code.render = ["layer = uLayers;"] ∧
      ∃ statement, Statement.read "layer = uLayers;" = some statement ∧
        ¬ statement.WellTyped (carryScope (layer none) (uniformLayers 2))) ∧
    ∃ shader, ((carryDesign (layer (some 2)) (uniformLayers 1)).model.compile
        { target := .vulkan }).outcome = .ok shader ∧
      shader.vertex.code.main.map Code.render =
        ["layer[0] = uLayers[0];", "layer[1] = uLayers[1];"] ∧
      ∃ statement, Statement.read "layer[1] = uLayers[1];" = some statement ∧
        ¬ statement.WellTyped (carryScope (layer (some 2)) (uniformLayers 1)) := by
  constructor
  · have hcompiles : ((carryDesign (layer none) (uniformLayers 2)).model.compile
        { target := .vulkan }).outcome.toOption.map
          (fun shader => shader.vertex.code.main.map Code.render) = some ["layer = uLayers;"] := by
      decide +kernel
    obtain ⟨shader, hshader, hmain⟩ := exists_ok_of_map_eq hcompiles
    exact ⟨shader, hshader, hmain, .assign (.name "layer") (.name "uLayers"), rfl, by decide⟩
  · have hcompiles : ((carryDesign (layer (some 2)) (uniformLayers 1)).model.compile
        { target := .vulkan }).outcome.toOption.map
          (fun shader => shader.vertex.code.main.map Code.render) =
            some ["layer[0] = uLayers[0];", "layer[1] = uLayers[1];"] := by
      decide +kernel
    obtain ⟨shader, hshader, hmain⟩ := exists_ok_of_map_eq hcompiles
    exact ⟨shader, hshader, hmain,
      .assign (.element (.name "layer") 1) (.element (.name "uLayers") 1), rfl, by decide⟩

end ShaderWeave
