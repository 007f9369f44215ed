import ShaderWeave.Proofs.EarlyRead

/-!
# What an Emission Writes

The emission of a node depends on the state behind it only through what the code is written for, the
values it reads and the helper routines that are there already. If it reads only values that can be read
and does not look at the answers about helpers, what it writes for a target and a stage is a matter of the
routine alone: `Emit.emission`.

## Main definitions

* `Emit.emission place`: what a routine writes and declares, and how it ends, when every read is allowed.
* `Emit.Reads place inputs`: the routine reads only `inputs` and does not look at the answers about
  helpers.
* `Writes place inputs emit post`: such a routine does not end with an early read, and if it ends with a
  value, `post` holds of the value, the statements and the declared handles.

## Main results

* `run_eq_emission`: where its inputs can be read, running a routine appends what it writes.
* `Writes.read`, `Writes.declare`, `Writes.append`, `Writes.helper`, `Writes.sample`: one rule for each
  call.
-/

namespace ShaderWeave

/-! ## Reading and Declaring -/

/-- A value that cannot be read at a type is not one that is read too early. -/
theorem not_earlyRead_of_read {v : Value} {ty : ValueType} {widening : Widening}
    {error : GraphError} (h : v.read ty widening = .error error) : ¬ error.EarlyRead := by
  have herror : error = .invalidCoercion v.name v.ty ty := by
    unfold Value.read at h
    split at h
    · cases h
    · split at h
      · cases h
        rfl
      · split at h <;> cases h
        rfl
  simp [herror, GraphError.EarlyRead, GraphError.root]

/-! ## Emissions -/

/-- How a routine of the emit pass ends, and what it writes and declares until then. -/
structure Emission (α : Type) where
  /-- Its value or failure. -/
  result : Except NodeFailure α
  /-- The fragments that it appends to the main routine. -/
  statements : List Code := []
  /-- The handles that it declares. -/
  declared : List Handle := []

namespace Emit

variable {α β : Type}

/-- What a routine does for a target and a stage when every read is allowed and every helper routine is
new. -/
def emission (place : CodePlace) : Emit α → Emission α
  | .done value => { result := .ok value }
  | .fail failure => { result := .error failure }
  | .call .place next => emission place (next place)
  | .call (.append code) next =>
    let rest := emission place (next ())
    { rest with statements := code :: rest.statements }
  | .call (.helper ..) next => emission place (next true)
  | .call (.declare handle) next =>
    let rest := emission place (next handle.value.checkDeclarable)
    match handle.value.checkDeclarable with
    | .ok () => { rest with declared := handle :: rest.declared }
    | .error _ => rest
  | .call (.read handle ty widening) next => emission place (next (handle.value.read ty widening))
  | .call (.note _) next => emission place (next ())

/-- When every read is allowed, a routine reads only `inputs`, and it does not look at the answers
about helper routines. -/
def Reads (place : CodePlace) (inputs : List Handle) : Emit α → Prop
  | .done _ => True
  | .fail _ => True
  | .call .place next => Reads place inputs (next place)
  | .call (.append _) next => Reads place inputs (next ())
  | .call (.helper ..) next => (∀ answer, next answer = next true) ∧ Reads place inputs (next true)
  | .call (.declare handle) next => Reads place inputs (next handle.value.checkDeclarable)
  | .call (.read handle ty widening) next =>
    handle ∈ inputs ∧ Reads place inputs (next (handle.value.read ty widening))
  | .call (.note _) next => Reads place inputs (next ())

end Emit

/-- What can be read stays so when more is declared. -/
theorem readable_of_subset {state state' : EmitState} {handle : Handle}
    (hdeclared : state.declared ⊆ state'.declared) (h : state.readable handle = true) :
    state'.readable handle = true := by
  unfold EmitState.readable at *
  simp only [Bool.or_eq_true, List.contains_eq_mem, decide_eq_true_eq] at h ⊢
  exact h.imp_right fun hmem => hdeclared hmem

/-- The main routine and the declared handles have grown by what an emission writes and declares. -/
structure EmitState.Grown {α : Type} (state : EmitState) (emission : Emission α)
    (state' : EmitState) : Prop where
  /-- The statements are appended to the main routine. -/
  main : state'.code.main = state.code.main ++ emission.statements
  /-- The handles are declared. -/
  declared : state'.declared = emission.declared.reverse ++ state.declared

/-- A value that can be declared is declared. -/
theorem run_declare {handle : Handle} {next : Except GraphError Unit → Emit Unit}
    {state : EmitState} :
    Emit.run (.call (.declare handle) next) state =
      match handle.value.checkDeclarable with
      | .ok () => Emit.run (next (.ok ())) (state.markDeclared handle)
      | .error error => Emit.run (next (.error error)) state := by
  have hanswer : EmitState.answer (.declare handle) state =
      match handle.value.checkDeclarable with
      | .ok () => .ok (.ok ()) (state.markDeclared handle)
      | .error error => .ok (.error error) state := rfl
  have hbind : Emit.run (.call (.declare handle) next) state =
      EStateM.bind (EmitState.answer (.declare handle)) (fun answer => Emit.run (next answer))
        state := rfl
  rw [hbind, EStateM.bind, hanswer]
  cases handle.value.checkDeclarable <;> rfl

/-- Where its inputs can be read, running a routine appends what it writes, declares what it declares
and ends as its emission says. -/
theorem run_eq_emission {place : CodePlace} {inputs : List Handle} {emit : Emit Unit}
    {state : EmitState} (hreads : emit.Reads place inputs)
    (hreadable : ∀ h ∈ inputs, state.readable h = true) (hplace : state.place = place) :
    ∃ state', state.Grown (emit.emission place) state' ∧
      emit.run state = match (emit.emission place).result with
        | .ok value => .ok value state'
        | .error failure => .error failure state' := by
  -- On the requests of the routine. The state varies, since each request leaves another one in which
  -- the inputs can still be read.
  induction emit generalizing state with
  | done value => exact ⟨state, ⟨by simp [Emit.emission], by simp [Emit.emission]⟩, rfl⟩
  | fail failure => exact ⟨state, ⟨by simp [Emit.emission], by simp [Emit.emission]⟩, rfl⟩
  | call request next ih =>
    cases request with
    | place =>
      subst hplace
      exact ih state.place hreads hreadable rfl
    | append code =>
      have hafter : ∀ h ∈ inputs,
          { state with code := state.code.append code : EmitState }.readable h = true := hreadable
      obtain ⟨state', hgrown, hrun⟩ := ih () hreads hafter hplace
      refine ⟨state', ⟨?_, hgrown.declared⟩, hrun⟩
      rw [hgrown.main, StageCode.main_append]
      simp [Emit.emission]
    | helper name body =>
      obtain ⟨hsteady, hreads⟩ := hreads
      have hafter : ∀ h ∈ inputs,
          { state with code := state.code.addHelper name body : EmitState }.readable h = true :=
        hreadable
      obtain ⟨state', hgrown, hrun⟩ := ih true hreads hafter hplace
      have hmain : (state.code.addHelper name body).main = state.code.main := by
        unfold StageCode.addHelper
        split <;> rfl
      refine ⟨state', ⟨?_, hgrown.declared⟩, ?_⟩
      · rw [hgrown.main, hmain]
        rfl
      · -- Whether the helper is new makes no difference to what follows.
        rw [← hsteady (!state.code.hasHelper name)] at hrun
        rw [Emit.emission, ← hsteady (!state.code.hasHelper name)]
        exact hrun
    | declare handle =>
      cases hcheck : handle.value.checkDeclarable with
      | ok value =>
        have hafter : ∀ h ∈ inputs, (state.markDeclared handle).readable h = true := fun h hmem =>
          readable_of_subset (List.subset_cons_self handle state.declared) (hreadable h hmem)
        simp only [Emit.Reads, hcheck] at hreads
        obtain ⟨state', hgrown, hrun⟩ := ih (.ok ()) hreads hafter hplace
        simp only [Emit.emission, hcheck]
        refine ⟨state', ⟨?_, ?_⟩, ?_⟩
        · exact hgrown.main
        · rw [List.reverse_cons, List.append_assoc]
          exact hgrown.declared
        · refine run_declare.trans ?_
          rw [hcheck]
          exact hrun
      | error error =>
        simp only [Emit.Reads, hcheck] at hreads
        obtain ⟨state', hgrown, hrun⟩ := ih (.error error) hreads hreadable hplace
        simp only [Emit.emission, hcheck]
        refine ⟨state', hgrown, run_declare.trans ?_⟩
        rw [hcheck]
        exact hrun
    | read handle ty widening =>
      -- Here the assumption on the inputs is used: the check before a read does not refuse it.
      obtain ⟨hmem, hreads⟩ := hreads
      have hread : state.read handle ty widening = handle.value.read ty widening := by
        rw [EmitState.read, if_pos (hreadable handle hmem)]
      obtain ⟨state', hgrown, hrun⟩ := ih _ hreads hreadable hplace
      refine ⟨state', hgrown, ?_⟩
      rw [← hread] at hrun
      rw [Emit.emission, ← hread]
      exact hrun
    | note note =>
      have hafter : ∀ h ∈ inputs,
          { state with notes := state.notes ++ [note] : EmitState }.readable h = true := hreadable
      obtain ⟨state', hgrown, hrun⟩ := ih () hreads hafter hplace
      exact ⟨state', ⟨hgrown.main, hgrown.declared⟩, hrun⟩

/-! ## Rules for Emissions -/

/-- For a target and a stage, a routine reads only `inputs` and does not end with an early read. If it
ends with a value, `post` holds of the value, the statements that it writes and the handles that it
declares. -/
def Writes {α : Type} (place : CodePlace) (inputs : List Handle) (emit : Emit α)
    (post : α → List Code → List Handle → Prop) : Prop :=
  emit.Reads place inputs ∧
    match (emit.emission place).result with
    | .ok value => post value (emit.emission place).statements (emit.emission place).declared
    | .error failure => ¬ failure.EarlyRead

namespace Writes

variable {α β : Type} {place : CodePlace} {inputs : List Handle}
  {post : β → List Code → List Handle → Prop}

theorem done {value : β} (hpost : post value [] []) : Writes place inputs (.done value) post :=
  ⟨trivial, hpost⟩

theorem fail {failure : NodeFailure} (hfailure : ¬ failure.EarlyRead) :
    Writes place inputs (.fail failure) post :=
  ⟨trivial, hfailure⟩

/-- One routine after another. -/
theorem bind {first : Emit α} {next : α → Emit β} {middle : α → List Code → List Handle → Prop}
    (hfirst : Writes place inputs first middle)
    (hnext : ∀ value statements declared, middle value statements declared →
      Writes place inputs (next value) fun result more others =>
        post result (statements ++ more) (declared ++ others)) :
    Writes place inputs (first >>= next) post := by
  -- Both conditions vary: after a statement or a declaration, they are about what is still to come.
  induction first generalizing post middle with
  | done value => exact hnext value [] [] hfirst.2
  | fail failure => exact ⟨trivial, hfirst.2⟩
  | call request rest ih =>
    cases request with
    | place => exact ih place hfirst hnext
    | append code =>
      have hrest : Writes place inputs (rest ()) fun value statements declared =>
        middle value (code :: statements) declared := hfirst
      have hboth : Writes place inputs ((rest ()).bind next) fun result statements declared =>
          post result (code :: statements) declared :=
        ih () hrest fun value statements declared h => hnext value (code :: statements) declared h
      exact hboth
    | helper name body =>
      obtain ⟨⟨hsteady, hreads⟩, hresult⟩ := hfirst
      have hrest := ih true ⟨hreads, hresult⟩ hnext
      exact ⟨⟨fun answer => congrArg (Routine.bind · next) (hsteady answer), hrest.1⟩, hrest.2⟩
    | declare handle =>
      cases hcheck : handle.value.checkDeclarable with
      | ok value =>
        simp only [Writes, Emit.Reads, Emit.emission, hcheck] at hfirst
        have hrest : Writes place inputs (rest (.ok ())) fun value statements declared =>
          middle value statements (handle :: declared) := hfirst
        have hboth : Writes place inputs ((rest (.ok ())).bind next) fun result statements declared =>
            post result statements (handle :: declared) :=
          ih (.ok ()) hrest fun value statements declared h =>
            hnext value statements (handle :: declared) h
        simp only [Writes, Bind.bind, Routine.bind, Emit.Reads, Emit.emission, hcheck]
        exact hboth
      | error error =>
        simp only [Writes, Emit.Reads, Emit.emission, hcheck] at hfirst
        have hboth : Writes place inputs ((rest (.error error)).bind next) post :=
          ih (.error error) hfirst hnext
        simp only [Writes, Bind.bind, Routine.bind, Emit.Reads, Emit.emission, hcheck]
        exact hboth
    | read handle ty widening =>
      obtain ⟨⟨hmem, hreads⟩, hresult⟩ := hfirst
      have hrest := ih _ ⟨hreads, hresult⟩ hnext
      exact ⟨⟨hmem, hrest.1⟩, hrest.2⟩
    | note note => exact ih () hfirst hnext

/-- A read of an input. -/
theorem read {handle : Handle} {ty : ValueType} {widening : Widening} {next : Piece → Emit β}
    (hmem : handle ∈ inputs) (hnext : ∀ expr, Writes place inputs (next (.read handle expr)) post) :
    Writes place inputs (Emit.read handle ty widening >>= next) post := by
  cases hread : handle.value.read ty widening with
  | ok expr =>
    have hrest := hnext expr
    simp only [Writes, Emit.read, Emit.Reads, Emit.emission, Bind.bind, Routine.bind, hread]
    exact ⟨⟨hmem, hrest.1⟩, hrest.2⟩
  | error error =>
    simp only [Writes, Emit.read, Emit.Reads, Emit.emission, Bind.bind, Routine.bind, hread]
    exact ⟨⟨hmem, trivial⟩, not_earlyRead_of_read hread⟩

/-- A declaration of a computed value. -/
theorem declare {handle : Handle} {next : Piece → Emit β}
    (hkind : handle.value.kind = .computed)
    (hnext : Writes place inputs (next (.declaration handle)) fun result statements declared =>
      post result statements (handle :: declared)) :
    Writes place inputs (Emit.declare handle >>= next) post := by
  have hcheck : handle.value.checkDeclarable = .ok () := by
    rw [Value.checkDeclarable, hkind]
  simp only [Writes, Emit.declare, Emit.Reads, Emit.emission, Bind.bind, Routine.bind, hcheck]
  exact hnext

/-- A statement, and what follows it. -/
theorem append {code : Code} {next : Unit → Emit β}
    (hnext : Writes place inputs (next ()) fun result statements declared =>
      post result (code :: statements) declared) :
    Writes place inputs (Emit.append code >>= next) post :=
  hnext

/-- A last statement. -/
theorem append_last {code : Code} {post : Unit → List Code → List Handle → Prop}
    (hpost : post () [code] []) : Writes place inputs (Emit.append code) post :=
  ⟨trivial, hpost⟩

/-- A helper routine. -/
theorem helper {name body : String} {next : Unit → Emit β} (hnext : Writes place inputs (next ()) post) :
    Writes place inputs (Emit.helper name body >>= next) post :=
  ⟨⟨fun _ => rfl, hnext.1⟩, hnext.2⟩

/-- A last helper routine. -/
theorem helper_last {name body : String} {post : Unit → List Code → List Handle → Prop}
    (hpost : post () [] []) : Writes place inputs (Emit.helper name body) post :=
  ⟨⟨fun _ => rfl, trivial⟩, hpost⟩

/-- A sample of a texture, for the target. -/
theorem sample {name : String} {index : Option UInt32} {coordinate : Code} {next : Code → Emit β}
    (hnext : Writes place inputs (next (Code.sample place.target name index coordinate)) post) :
    Writes place inputs (Emit.sample name index coordinate >>= next) post :=
  hnext

/-- The size of a texture, for the target. -/
theorem textureSize {name lod : String} {index : Option UInt32} {next : Code → Emit β}
    (hnext : Writes place inputs (next (Code.textureSize place.target name index lod)) post) :
    Writes place inputs (Emit.textureSize name index lod >>= next) post :=
  hnext

/-- A weaker condition on what is written. -/
theorem imp {emit : Emit β} {weaker : β → List Code → List Handle → Prop}
    (h : Writes place inputs emit post)
    (himp : ∀ value statements declared, post value statements declared →
      weaker value statements declared) : Writes place inputs emit weaker := by
  refine ⟨h.1, ?_⟩
  have hresult := h.2
  split at hresult
  · exact himp _ _ _ hresult
  · exact hresult

end Writes

end ShaderWeave
