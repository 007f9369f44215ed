import ShaderWeave.Pass.Note
import ShaderWeave.Routine

/-!
# The Emit Pass

In the second pass each node writes code: statements of the main routine, and helper routines that
nodes may share by name. Code is written for a target, which a node can ask for; that is how it writes
the textures that it samples.

A value that a node computes can be read only through a handle that has been declared. A handle that has
been declared stays so: in the rest of the stage, in the other stage, and while other models are
compiled.
-/

namespace ShaderWeave

/-- What a node can ask for in the emit pass. -/
inductive EmitCall where
  /-- Ask what the code is written for. -/
  | place
  /-- Append a fragment to the main routine. -/
  | append (code : Code)
  /-- Add a helper routine, unless one of that name is there. -/
  | helper (name body : String)
  /-- Declare a handle, so that it can be read. -/
  | declare (handle : Handle)
  /-- Read a handle at a type. -/
  | read (handle : Handle) (ty : ValueType) (widening : Widening)
  /-- Keep a note. -/
  | note (note : Note)

namespace EmitCall

/-- What a node gets as an answer. A helper routine is answered by whether it was added. -/
def Answer : EmitCall → Type
  | place => CodePlace
  | append _ => Unit
  | helper .. => Bool
  | declare _ => Except GraphError Unit
  | read .. => Except GraphError Expr
  | note _ => Unit

end EmitCall

/-- A routine of the emit pass. -/
abbrev Emit := Routine EmitCall EmitCall.Answer NodeFailure

/-- The code of one stage so far. -/
structure StageCode where
  /-- Fragments of the main routine, last first. -/
  fragments : List Code := []
  /-- Names and bodies of the helper routines. -/
  helpers : List (String × String) := []
deriving DecidableEq, Inhabited

namespace StageCode

/-- Fragments of the main routine, in order. -/
def main (stage : StageCode) : List Code :=
  stage.fragments.reverse

/-- Append a fragment to the main routine. -/
def append (stage : StageCode) (code : Code) : StageCode :=
  { stage with fragments := code :: stage.fragments }

@[simp]
theorem main_append (stage : StageCode) (code : Code) :
    (stage.append code).main = stage.main ++ [code] := by
  simp [main, append]

/-- Whether there is a helper routine of that name. -/
def hasHelper (stage : StageCode) (name : String) : Bool :=
  stage.helpers.any (·.1 == name)

/-- Add a helper routine; the first one of a name stays. -/
def addHelper (stage : StageCode) (name body : String) : StageCode :=
  if stage.hasHelper name then stage else { stage with helpers := stage.helpers ++ [(name, body)] }

end StageCode

/-- The state behind the emission of a node. -/
structure EmitState where
  /-- What the code is written for. -/
  place : CodePlace
  /-- The code of the stage. -/
  code : StageCode := {}
  /-- Handles that have been declared. -/
  declared : List Handle
  /-- Notes kept so far. -/
  notes : List Note := []

namespace EmitState

/-- Whether a handle can be read now. -/
def readable (state : EmitState) (handle : Handle) : Bool :=
  !handle.needsDeclaration || state.declared.contains handle

/-- Read a handle at a type, if it can be read now. -/
def read (state : EmitState) (handle : Handle) (ty : ValueType) (widening : Widening) :
    Except GraphError Expr :=
  if state.readable handle then handle.value.read ty widening
  else .error (.readBeforeDeclaration handle.name)

/-- The state after a handle has been declared. -/
def markDeclared (state : EmitState) (handle : Handle) : EmitState :=
  { state with declared := handle :: state.declared }

/-- Answer one request. -/
def answer (request : EmitCall) : EStateM NodeFailure EmitState request.Answer :=
  match request with
  | .place => fun state => .ok state.place state
  | .append code => fun state => .ok () { state with code := state.code.append code }
  | .helper name body => fun state =>
    .ok (!state.code.hasHelper name) { state with code := state.code.addHelper name body }
  | .declare handle => fun state =>
    match handle.value.checkDeclarable with
    | .ok () => .ok (.ok ()) (state.markDeclared handle)
    | .error error => .ok (.error error) state
  | .read handle ty widening => fun state => .ok (state.read handle ty widening) state
  | .note note => fun state => .ok () { state with notes := state.notes ++ [note] }

end EmitState

namespace Emit

/-- Run the emission of a node. -/
def run (emit : Emit Unit) : EStateM NodeFailure EmitState Unit :=
  Routine.run throw EmitState.answer emit

/-- Append a fragment to the main routine. -/
def append (code : Code) : Emit Unit := .call (.append code) .done

/-- Add a helper routine, unless one of that name is there. -/
def helper (name body : String) : Emit Unit := .call (.helper name body) fun _ => .done ()

/-- Declare a handle and end with the declaration of its value. -/
def declare (handle : Handle) : Emit Piece :=
  .call (.declare handle) fun
    | .ok () => .done (.declaration handle)
    | .error error => .fail (.refused error)

/-- Read a handle at a type. -/
def read (handle : Handle) (ty : ValueType) (widening : Widening := .point) : Emit Piece :=
  .call (.read handle ty widening) fun
    | .ok expr => .done (.read handle expr)
    | .error error => .fail (.refused error)

/-- The expression that samples a texture at a coordinate, for the target. -/
def sample (name : String) (index : Option UInt32) (coordinate : Code) : Emit Code :=
  .call .place fun place => .done (Code.sample place.target name index coordinate)

/-- The expression for the size of a texture at a level of detail, for the target. -/
def textureSize (name : String) (index : Option UInt32) (lod : String) : Emit Code :=
  .call .place fun place => .done (Code.textureSize place.target name index lod)

end Emit

end ShaderWeave
