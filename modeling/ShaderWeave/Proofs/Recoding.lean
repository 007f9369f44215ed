import ShaderWeave.Proofs.Renumbering

/-!
# Nodes under a Recoding

A recoding gives the graphs of each stage other numbers and puts another target in the place of each
target. What a node makes of them shows only where it should: the owners in handles get the new numbers,
and the textures that a node samples are written for the new target. Its code names variables by the
position of their node, and whether a value can be read depends on which handles are equal, so the
emission of the node takes the same course and ends in the same state, recoded.

## Main definitions

* `Recoding`: other numbers and targets.
* `EmitState.recode`: a state of the emit pass, recoded.
* `Emit.Recodes`: one emission does, recoded, what the other does.
* `Node.Recodes`: the same for a node in all it does.

## Main results

* `Emit.Recodes.bind`, `Emit.Recodes.read` and the other rules: one for each way to make an emission.
* `DesignNode.toNode_recodes`: a node under a faithful recoding is the node, recoded.
-/

namespace ShaderWeave

/-- Other numbers for the graphs of each stage, and another target for each target. -/
structure Recoding where
  /-- The numbers of graphs. -/
  numbering : Numbering
  /-- The targets. -/
  target : Target → Target

/-- Other numbers alone. -/
def Numbering.recoding (numbering : Numbering) : Recoding where
  numbering := numbering
  target := id

/-- Another target alone. -/
def Target.recoding (target : Target) : Recoding where
  numbering := .unchanged
  target _ := target

/-! ## Emissions -/

section States

variable (r : Recoding)

/-- The piece, recoded. -/
def Piece.recode : Piece → Piece
  | text content => text content
  | declaration handle => declaration (handle.renumber r.numbering)
  | read handle expr => read (handle.renumber r.numbering) expr
  | mention handle => mention (handle.renumber r.numbering)
  | texture target name index => texture (r.target target) name index

/-- The fragment of code, recoded. -/
def Code.recode (code : Code) : Code :=
  code.map (Piece.recode r)

/-- What code is written for, recoded. -/
def CodePlace.recode (place : CodePlace) : CodePlace :=
  { place with target := r.target place.target }

/-- What came of an action, recoded. -/
def NoteResult.recode : NoteResult → NoteResult
  | code fragment => code (Code.recode r fragment)
  | place found => place (found.recode r)
  | result => result

/-- The note, recoded. -/
def Note.recode (note : Note) : Note :=
  { note with action := note.action.map fun entry => (entry.1, entry.2.recode r) }

/-- The code of a stage, recoded. -/
def StageCode.recode (stage : StageCode) : StageCode :=
  { stage with fragments := stage.fragments.map (Code.recode r) }

/-- The state of the emit pass, recoded. -/
def EmitState.recode (state : EmitState) : EmitState where
  place := state.place.recode r
  code := state.code.recode r
  declared := state.declared.map (Handle.renumber r.numbering)
  notes := state.notes.map (Note.recode r)

end States

/-- What an emission ends with, recoded, with `image` of its value. -/
def recodeResult {α β : Type} (r : Recoding) (image : α → β) :
    EStateM.Result NodeFailure EmitState α → EStateM.Result NodeFailure EmitState β
  | .ok value state => .ok (image value) (state.recode r)
  | .error failure state => .error failure (state.recode r)

namespace Emit

/-- The second emission does, recoded, what the first one does: from a recoded state it ends in the recoded
state that the first one ends in, with the same failure or with `image` of the value. -/
def Recodes {α β : Type} (r : Recoding) (image : α → β) (first : Emit α) (second : Emit β) : Prop :=
  ∀ state : EmitState, Routine.run throw EmitState.answer second (state.recode r) =
    recodeResult r image (Routine.run throw EmitState.answer first state)

/-- One emission after another runs as the two do. -/
theorem run_bind {α β : Type} (first : Emit α) (next : α → Emit β) (state : EmitState) :
    Routine.run throw EmitState.answer (first >>= next) state =
      match Routine.run throw EmitState.answer first state with
      | .ok value state => Routine.run throw EmitState.answer (next value) state
      | .error failure state => .error failure state := by
  induction first generalizing state with
  | done value => rfl
  | fail failure => rfl
  | call request rest ih =>
    -- Both sides make the request first; the induction is over what is done with the answer.
    show EStateM.bind (EmitState.answer request) _ state = match EStateM.bind _ _ state with
      | .ok value state => Routine.run throw EmitState.answer (next value) state
      | .error failure state => .error failure state
    rw [EStateM.bind, EStateM.bind]
    cases EmitState.answer request state with
    | ok answer state => exact ih answer state
    | error failure state => rfl

namespace Recodes

variable {α β γ δ : Type} {r : Recoding}

theorem done (image : α → β) (value : α) :
    Recodes r image (.done value) (.done (image value)) := fun _ => rfl

theorem fail (image : α → β) (failure : NodeFailure) :
    Recodes r image (.fail failure) (.fail failure) := fun _ => rfl

theorem bind {image : α → β} {image' : γ → δ} {first : Emit α} {second : Emit β}
    {next : α → Emit γ} {next' : β → Emit δ} (hfirst : Recodes r image first second)
    (hnext : ∀ value, Recodes r image' (next value) (next' (image value))) :
    Recodes r image' (first >>= next) (second >>= next') := by
  intro state
  rw [run_bind, run_bind, hfirst state]
  cases Routine.run throw EmitState.answer first state with
  | ok value state => exact hnext value state
  | error failure state => rfl

/-! ### The requests of the emit pass -/

theorem append (code : Code) :
    Recodes r id (Emit.append code) (Emit.append (code.recode r)) :=
  fun _ => rfl

/-- The place is asked for, and answered recoded. -/
theorem perform_place :
    Recodes r (CodePlace.recode r) (Routine.perform EmitCall.place) (Routine.perform EmitCall.place) :=
  fun _ => rfl

theorem append_of_eq {code code' : Code} (h : code.recode r = code') :
    Recodes r id (Emit.append code) (Emit.append code') :=
  h ▸ append code

theorem perform_helper (name body : String) :
    Recodes r (id : Bool → Bool) (Routine.perform (EmitCall.helper name body))
      (Routine.perform (EmitCall.helper name body)) := by
  intro state
  -- Helper routines are texts, in which there is nothing to recode.
  have hadd : (state.code.recode r).addHelper name body =
      (state.code.addHelper name body).recode r := by
    show (if state.code.hasHelper name then _ else _) =
      StageCode.recode r (if state.code.hasHelper name then _ else _)
    split <;> rfl
  show EStateM.Result.ok _ _ = EStateM.Result.ok _ _
  rw [EmitState.recode, hadd]
  rfl

theorem helper (name body : String) :
    Recodes r id (Emit.helper name body) (Emit.helper name body) :=
  (perform_helper name body).bind fun _ => done id ()

theorem perform_declare (handle : Handle) :
    Recodes r (id : Except GraphError Unit → _)
      (Routine.perform (EmitCall.declare handle))
      (Routine.perform (EmitCall.declare (handle.renumber r.numbering))) := by
  intro state
  show EStateM.bind (EmitState.answer (.declare (handle.renumber r.numbering))) _ _ =
    recodeResult r id (EStateM.bind (EmitState.answer (.declare handle)) _ state)
  -- The check looks at the value, and only the mark takes the owner.
  have hcheck : (handle.renumber r.numbering).value.checkDeclarable =
      handle.value.checkDeclarable := rfl
  simp only [EStateM.bind, EmitState.answer, hcheck]
  cases handle.value.checkDeclarable with
  | ok value =>
    obtain ⟨value, owner⟩ := handle
    cases owner <;> rfl
  | error error => rfl

theorem perform_note (r : Recoding) (note : Note) :
    Recodes r (id : Unit → Unit) (Routine.perform (EmitCall.note note))
      (Routine.perform (EmitCall.note (note.recode r))) := by
  intro state
  show EStateM.Result.ok () (EmitState.mk _ _ _ (state.notes.map (Note.recode r) ++ _)) =
    EStateM.Result.ok () (EmitState.mk _ _ _ ((state.notes ++ [note]).map (Note.recode r)))
  rw [List.map_append]
  rfl

/-- Whether a value can be read depends only on which handles are equal. -/
theorem readable_recode (hfaithful : r.numbering.Faithful) (state : EmitState) (handle : Handle) :
    (state.recode r).readable (handle.renumber r.numbering) = state.readable handle := by
  have hneeds : (handle.renumber r.numbering).needsDeclaration = handle.needsDeclaration := by
    rw [Handle.needsDeclaration, Handle.renumber, Option.isSome_map]
    rfl
  -- Handles that differ still do, so this one is among the declared ones as before.
  have hcontains : (state.declared.map (Handle.renumber r.numbering)).contains
      (handle.renumber r.numbering) = state.declared.contains handle := by
    simp [(Handle.renumber_injective hfaithful).eq_iff]
  rw [EmitState.readable, EmitState.readable, hneeds, ← hcontains]
  rfl

theorem perform_read (hfaithful : r.numbering.Faithful) (handle : Handle) (ty : ValueType)
    (widening : Widening) :
    Recodes r (id : Except GraphError Expr → _)
      (Routine.perform (EmitCall.read handle ty widening))
      (Routine.perform (EmitCall.read (handle.renumber r.numbering) ty widening)) := by
  intro state
  have hread : (state.recode r).read (handle.renumber r.numbering) ty widening =
      state.read handle ty widening := by
    rw [EmitState.read, readable_recode hfaithful]
    rfl
  show EStateM.Result.ok _ _ = EStateM.Result.ok _ _
  rw [hread]
  rfl

theorem declare {image : α → β} {handle : Handle} {next : Piece → Emit α} {next' : Piece → Emit β}
    (hnext : ∀ piece, Recodes r image (next piece) (next' (piece.recode r))) :
    Recodes r image (Emit.declare handle >>= next)
      (Emit.declare (handle.renumber r.numbering) >>= next') := by
  refine (perform_declare handle).bind fun answer => ?_
  cases answer with
  | ok value => exact hnext (.declaration handle)
  | error error => exact fail _ _

theorem read (hfaithful : r.numbering.Faithful) {image : α → β} {handle : Handle} {ty : ValueType}
    {widening : Widening} {next : Piece → Emit α} {next' : Piece → Emit β}
    (hnext : ∀ piece, Recodes r image (next piece) (next' (piece.recode r))) :
    Recodes r image (Emit.read handle ty widening >>= next)
      (Emit.read (handle.renumber r.numbering) ty widening >>= next') := by
  refine (perform_read hfaithful handle ty widening).bind fun answer => ?_
  cases answer with
  | ok expr => exact hnext (.read handle expr)
  | error error => exact fail _ _

/-- A sample is written for the target that the place has. -/
theorem sample {image : α → β} {name : String} {index : Option UInt32} {coordinate coordinate' : Code}
    {next : Code → Emit α} {next' : Code → Emit β}
    (hnext : ∀ target, Recodes r image (next (Code.sample target name index coordinate))
      (next' (Code.sample (r.target target) name index coordinate'))) :
    Recodes r image (Emit.sample name index coordinate >>= next)
      (Emit.sample name index coordinate' >>= next') :=
  perform_place.bind fun place => hnext place.target

theorem textureSize {image : α → β} {name lod : String} {index : Option UInt32}
    {next : Code → Emit α} {next' : Code → Emit β}
    (hnext : ∀ target, Recodes r image (next (Code.textureSize target name index lod))
      (next' (Code.textureSize (r.target target) name index lod))) :
    Recodes r image (Emit.textureSize name index lod >>= next)
      (Emit.textureSize name index lod >>= next') :=
  perform_place.bind fun place => hnext place.target

end Recodes

end Emit

/-! ## Emissions of Nodes -/

open Emit (Recodes)

section Emission

variable {r : Recoding} (hfaithful : r.numbering.Faithful)
include hfaithful

theorem EndpointNode.emit_recodes (node : EndpointNode) :
    Recodes r id node.emit (node.renumber r.numbering).emit := by
  cases node with
  | meshAttribute a => exact .done id ()
  | pushConstant constant => exact .done id ()
  | positionOutput input => exact .read hfaithful fun position => .append _
  | colorOutput target input => exact .read hfaithful fun color => .append _
  | producer channel input =>
    -- An array is handed over element by element, without a read.
    have helements (count start : Nat) : Recodes r id
        (assignElements channel.var.name input count start)
        (assignElements channel.var.name (input.renumber r.numbering) count start) := by
      induction count generalizing start with
      | zero => exact .done id ()
      | succ count ih => exact (Recodes.append _).bind fun _ => ih (start + 1)
    simp only [EndpointNode.renumber, EndpointNode.emit]
    cases channel.var.arrayLen with
    | some len => exact helements len.toNat 0
    | none => exact .read hfaithful fun value => .append _
  | consumer channel expected => exact .done id ()

theorem ArithmeticNode.emit_recodes (self : NodeId) (node : ArithmeticNode) :
    Recodes r id (node.emit self)
      ((node.renumber r.numbering).emit (self.renumber r.numbering)) := by
  cases node with
  | screenQuad texCoord =>
    exact .declare fun declaration => .read hfaithful fun coordinate => .append _
  | split channels kind input => exact .declare fun declaration => .append _
  | combine xyz w =>
    exact .declare fun declaration => .read hfaithful fun first => .read hfaithful fun last =>
      .append _
  | math op ty left right =>
    exact .declare fun declaration => .read hfaithful fun left => .read hfaithful fun right =>
      .append _
  | normalize input => exact .declare fun declaration => .read hfaithful fun vector => .append _
  | gamma input exponent =>
    exact .read hfaithful fun color => .declare fun declaration => .read hfaithful fun root =>
      .append _
  | transform kind input matrix =>
    refine .read hfaithful fun factor => ?_
    have hproduct : Recodes r (Code.recode r) (product kind input factor)
        (product kind (input.renumber r.numbering) (factor.recode r)) := by
      cases kind <;> exact .read hfaithful fun vector => .done _ _
    -- The product is a list that is not known here, so the whole fragment does not reduce.
    refine hproduct.bind fun transformed => .declare fun declaration => ?_
    exact .append_of_eq (by simp [Code.recode, Piece.recode])

theorem TextureNode.emit_recodes (self : NodeId) (node : TextureNode) :
    Recodes r id (node.emit self)
      ((node.renumber r.numbering).emit (self.renumber r.numbering)) := by
  cases node with
  | binding name arrayLen => exact .done id ()
  | sample premultiply texture texCoord =>
    refine .read hfaithful fun coordinate => .sample fun target => ?_
    cases premultiply with
    | true => exact (Recodes.helper _ _).bind fun _ => .declare fun declaration => .append _
    | false => exact .declare fun declaration => .append _

theorem LightNode.emit_recodes (self : NodeId) (node : LightNode) :
    Recodes r id (node.emit self)
      ((node.renumber r.numbering).emit (self.renumber r.numbering)) := by
  have hroutines : Recodes r id LightArray.addRoutines LightArray.addRoutines :=
    (Recodes.helper _ _).bind fun _ => .helper _ _
  cases node with
  | lights max => exact hroutines
  | shadowVertex max channel position matrix =>
    cases matrix with
    | none => exact .fail _ _
    | some matrix =>
      refine .read hfaithful fun matrix => .read hfaithful fun position => ?_
      have hproject (count start : Nat) : Recodes r id
          (Shadow.projectEach channel.var.name matrix position count start)
          (Shadow.projectEach channel.var.name (matrix.recode r) (position.recode r) count start) := by
        induction count generalizing start with
        | zero => exact .done id ()
        | succ count ih => exact (Recodes.append _).bind fun _ => ih (start + 1)
      exact hproject max.toNat 0
  | shadowFragment max channel depthTextures =>
    have haccumulate (light : Nat) (offsets : List Vec2) : Recodes r id
        (Shadow.accumulate depthTextures light offsets)
        (Shadow.accumulate (depthTextures.renumber r.numbering) light offsets) := by
      induction offsets with
      | nil => exact .done id ()
      | cons offset rest ih => exact .sample fun target => (Recodes.append _).bind fun _ => ih
    have hfactor (light : Nat) : Recodes r id (Shadow.factor depthTextures light)
        (Shadow.factor (depthTextures.renumber r.numbering) light) :=
      (Recodes.append _).bind fun _ => (haccumulate light _).bind fun _ => .append _
    have hfactors (count start : Nat) : Recodes r id
        (Shadow.factorEach depthTextures count start)
        (Shadow.factorEach (depthTextures.renumber r.numbering) count start) := by
      induction count generalizing start with
      | zero => exact .done id ()
      | succ count ih => exact (hfactor start).bind fun _ => ih (start + 1)
    have hdeclare : Recodes r id (Shadow.declareFactors max depthTextures)
        (Shadow.declareFactors max (depthTextures.renumber r.numbering)) :=
      .textureSize fun target => .append _
    exact hroutines.bind fun _ => hdeclare.bind fun _ => hfactors max.toNat 0
  | lambert calls inner lightCount fragPos normal albedo =>
    refine .read hfaithful fun normal => .read hfaithful fun albedo =>
      .read hfaithful fun count => .read hfaithful fun position => .declare fun declaration => ?_
    -- The call for the radiance is written in one of two ways.
    obtain ⟨shadowed⟩ := calls
    cases shadowed <;> exact .append _

theorem OcclusionNode.emit_recodes (self : NodeId) (node : OcclusionNode) :
    Recodes r id (node.emit self)
      ((node.renumber r.numbering).emit (self.renumber r.numbering)) := by
  cases node with
  | uniforms inverse settings => exact .done id ()
  | unproject u depth screenPos =>
    obtain ⟨node, inverse⟩ := u
    refine .read hfaithful fun screen => ?_
    -- Without the inverse projection the emission fails after that read, before it declares.
    cases inverse with
    | false => exact .fail _ _
    | true => exact .declare fun declaration => .read hfaithful fun depth => .append _
  | occlusion u component noiseTex depthTex screenPos origin normal =>
    exact .read hfaithful fun origin => .read hfaithful fun normal =>
      .declare fun declaration => .read hfaithful fun screen => .sample fun target =>
        .sample fun target' => .append _

omit hfaithful in
theorem EmitAction.assign_recodes (r : Recoding) (left right : Option Piece) :
    Recodes r id (assign left right)
      (assign (left.map (·.recode r)) (right.map (·.recode r))) := by
  cases left with
  | none => exact .done id ()
  | some left =>
    cases right with
    | none => exact .done id ()
    | some right => exact .append _

/-- An action of a script comes to the same, recoded. -/
theorem EmitAction.take_recodes (output : Handle) (inputs : List Handle) (action : EmitAction) :
    Recodes r (Except.map (NoteResult.recode r)) (action.take output inputs)
      (action.take (output.renumber r.numbering) (inputs.map (·.renumber r.numbering))) := by
  cases action with
  | append code => exact (Recodes.append _).bind fun _ => .done _ _
  | helper name body => exact (Recodes.perform_helper name body).bind fun added => .done _ _
  | sample texture index coordinate => exact .sample fun target => .done _ _
  | textureSize texture index lod => exact .textureSize fun target => .done _ _
  | place => exact Recodes.perform_place.bind fun place => .done _ _
  | declare value =>
    refine (Recodes.perform_declare output).bind fun answer => ?_
    cases answer with
    | error error => exact .done _ _
    | ok declared =>
      have hassign := assign_recodes r (some (.declaration output)) (value.map .text)
      rw [Option.map_map] at hassign
      exact hassign.bind fun _ => .done _ _
  | read input ty widening into =>
    have hsource : source? (output.renumber r.numbering) (inputs.map (·.renumber r.numbering)) input =
        (source? output inputs input).map (·.renumber r.numbering) := by
      cases input with
      | none => rfl
      | some i => exact List.getElem?_map
    simp only [take, hsource]
    cases source? output inputs input with
    | none => exact .fail _ _
    | some handle =>
      refine (Recodes.perform_read hfaithful handle ty widening).bind fun answer => ?_
      cases answer with
      | error error => exact .done _ _
      | ok expr =>
        have hassign := assign_recodes r (into.map .text) (some (.read handle expr))
        rw [Option.map_map] at hassign
        exact hassign.bind fun _ => .done _ _
  | raise error => exact .done _ _

theorem Script.runEmit_recodes {note : Option (String × NoteResult) → Note}
    (hnote : ∀ label result, (note (some (label, result))).recode r =
      note (some (label, result.recode r)))
    (output : Handle) (inputs : List Handle) (steps : List (ScriptStep EmitAction)) :
    Recodes r id (runEmit note output inputs steps)
      (runEmit note (output.renumber r.numbering) (inputs.map (·.renumber r.numbering)) steps) := by
  induction steps with
  | nil => exact .done id ()
  | cons step rest ih =>
    refine (EmitAction.take_recodes hfaithful output inputs step.action).bind fun outcome => ?_
    -- The note tells what came of the action, under the same label.
    have hperform := Recodes.perform_note r (note (some (step.action.label, noted outcome)))
    rw [hnote] at hperform
    cases outcome with
    | ok result => exact hperform.bind fun _ => ih
    | error error =>
      refine hperform.bind fun _ => ?_
      cases step.catches with
      | true => exact ih
      | false => exact .fail _ _

/-! ## Nodes -/

/-- The second node is the first one, recoded. -/
structure Node.Recodes (r : Recoding) (first second : Node) : Prop where
  /-- It has the same name. -/
  name : second.name = first.name
  /-- It may stand in the same stages. -/
  allowed : second.allowed = first.allowed
  /-- It depends on the same nodes, under the new numbers. -/
  dependencies : second.dependencies = first.dependencies.map (·.map (NodeId.renumber r.numbering))
  /-- It registers the same things. -/
  setup : second.setup = first.setup
  /-- It writes the same code, recoded. -/
  emit : Emit.Recodes r id first.emit second.emit

theorem LibraryNode.toNode_recodes (self : NodeId) (node : LibraryNode) :
    Node.Recodes r (node.toNode self)
      ((node.renumber r.numbering).toNode (self.renumber r.numbering)) where
  name := by
    cases node with
    | camera => rfl
    | _ node => cases node <;> rfl
  allowed := by
    cases node with
    | camera => rfl
    | _ node => cases node <;> rfl
  dependencies := by
    rw [LibraryNode.toNode, LibraryNode.inputs_renumber, Handle.owners_renumber]
    rfl
  setup := node.setup_renumber r.numbering
  emit := by
    cases node with
    | endpoint node => exact node.emit_recodes hfaithful
    | arithmetic node => exact node.emit_recodes hfaithful self
    | camera => exact .done id ()
    | texture node => exact node.emit_recodes hfaithful self
    | light node => exact node.emit_recodes hfaithful self
    | occlusion node => exact node.emit_recodes hfaithful self

theorem Script.toNode_recodes (self : NodeId) (script : Script) :
    Node.Recodes r (script.toNode self)
      ((script.renumber r.numbering).toNode (self.renumber r.numbering)) where
  name := rfl
  allowed := rfl
  dependencies := script.dependencies?_renumber r.numbering
  setup := rfl
  emit := by
    -- A computed output is named after the position of the node, which has no number in it.
    have houtput : (script.renumber r.numbering).outputHandle (self.renumber r.numbering) =
        (script.outputHandle self).renumber r.numbering := by
      obtain ⟨name, allowed, inputs, reported, direct, output, setup, emit⟩ := script
      cases output <;> rfl
    refine (Recodes.perform_note r _).bind fun _ => ?_
    rw [houtput]
    refine Script.runEmit_recodes hfaithful ?_ _ _ _
    intro label result
    rfl

/-- With other numbers in its handles, a node is the same node, recoded. Nothing in it depends on the
target, since it asks for one only when it samples a texture. -/
theorem DesignNode.toNode_recodes (self : NodeId) (node : DesignNode) :
    Node.Recodes r (node.toNode self)
      ((node.renumber r.numbering).toNode (self.renumber r.numbering)) := by
  cases node with
  | library node => exact node.toNode_recodes hfaithful self
  | scripted script => exact script.toNode_recodes hfaithful self

end Emission

end ShaderWeave
