import ShaderWeave.Block.Writer
import ShaderWeave.Draw.Context
import ShaderWeave.Parameter
import ShaderWeave.Routine

/-!
# Update Routines

Each uniform block has a routine that refreshes it for a draw. The routine sees the draw and the shared
parameters, and makes writes; it may end with an error, pass on the error of a write, or go on after
it.
-/

namespace ShaderWeave

/-- A line of the record that a routine may keep of its writes. -/
structure WriteRecord where
  /-- Name of the block. -/
  block : String
  /-- Name of the member. -/
  member : String
  /-- What was said to the write. -/
  outcome : Except WriteError Unit

/-- What an update routine can call for. -/
inductive UpdateCall where
  /-- Write to a member. -/
  | write (w : Write)
  /-- Keep a record. -/
  | record (entry : WriteRecord)

/-- What an update routine gets as an answer. -/
def UpdateCall.Answer : UpdateCall → Type
  | write _ => Except WriteError Unit
  | record _ => Unit

/-- A routine of writes to one block. -/
abbrev Updating := Routine UpdateCall UpdateCall.Answer WriteError

/-- The update routine of a block: what it does for a draw, with the parameters as they are. -/
abbrev UpdateRoutine := DrawContext → ParameterStore → Updating Unit

namespace Updating

/-- Write to a member, and end with the error if the write is refused. -/
def write (w : Write) : Updating Unit :=
  .call (.write w) fun
    | .ok () => .done ()
    | .error error => .fail error

end Updating

/-- Why an update ended early. -/
inductive UpdateFailure where
  /-- The routine ended with an error. -/
  | refused (error : WriteError)
  /-- A write would have gone past the end of the block. -/
  | overrun
deriving DecidableEq

/-- A block while its routine runs. -/
structure UpdateState where
  /-- The block. -/
  buffer : BlockBuffer
  /-- The records kept so far. -/
  records : List WriteRecord

namespace BlockShape

/-- Answer one call of an update routine. -/
def answer (shape : BlockShape) (request : UpdateCall) :
    EStateM UpdateFailure UpdateState request.Answer :=
  match request with
  | .write w => fun state =>
    match shape.write state.buffer w with
    | .stored buffer => .ok (.ok ()) { state with buffer }
    | .refused error => .ok (.error error) state
    | .overrun => .error .overrun state
  | .record entry => fun state => .ok () { state with records := state.records ++ [entry] }

/-- Run an update on a block. -/
def run (shape : BlockShape) (update : Updating Unit) : EStateM UpdateFailure UpdateState Unit :=
  Routine.run (fun error => throw (.refused error)) shape.answer update

/-- The first call is answered, and the rest goes on with the answer. -/
theorem run_call (shape : BlockShape) (request : UpdateCall)
    (next : request.Answer → Updating Unit) (state : UpdateState) :
    shape.run (.call request next) state =
      EStateM.bind (shape.answer request) (fun answer => shape.run (next answer)) state := rfl

/-- What an update leaves behind: the block, the error it ended with, and its records. -/
structure Refreshed where
  /-- The block. After an error it is blank. -/
  buffer : BlockBuffer
  /-- The error that the routine ended with. -/
  error : Option WriteError
  /-- The records that the routine kept. -/
  records : List WriteRecord

/-- The bytes of the block. -/
def Refreshed.bytes (refreshed : Refreshed) : List UInt8 :=
  refreshed.buffer.bytes

/-- Refresh a block from zero; `none` if a write overruns. -/
def refresh (shape : BlockShape) (update : Updating Unit) : Option Refreshed :=
  match (shape.run update).run { buffer := shape.blank, records := [] } with
  | .ok () state => some { buffer := state.buffer, error := none, records := state.records }
  | .error (.refused error) state =>
    some { buffer := shape.blank, error := some error, records := state.records }
  | .error .overrun _ => none

/-- What an update leaves behind in a buffer of the application. -/
structure Staged where
  /-- The buffer. -/
  bytes : List UInt8
  /-- The error that the routine ended with. -/
  error : Option WriteError
  /-- The records that the routine kept. -/
  records : List WriteRecord

/-- Refresh a block in a buffer of the application, which is resized and filled with zeros before the
writes, and filled with zeros again after an error; `none` if a write overruns. -/
def refreshIn (shape : BlockShape) (staging : List UInt8) (update : Updating Unit) : Option Staged :=
  let cleared := zeroFill (resize staging shape.layout.size.toNat)
  match (shape.run update).run { buffer := shape.blank, records := [] } with
  | .ok () state =>
    some { bytes := state.buffer.copyInto cleared, error := none, records := state.records }
  | .error (.refused error) state =>
    some {
      bytes := zeroFill (state.buffer.copyInto cleared)
      error := some error
      records := state.records }
  | .error .overrun _ => none

/-! ## What an Update Keeps -/

theorem size_write {shape : BlockShape} {buffer after : BlockBuffer} {w : Write}
    (h : shape.write buffer w = .stored after) : after.size = buffer.size := by
  unfold write at h
  split at h
  · cases h
  · split at h
    · next hstore =>
      cases h
      exact BlockBuffer.size_store hstore
    · cases h

/-- A call leaves the size of the block, whether it is answered or ends everything. -/
theorem size_answer (shape : BlockShape) (request : UpdateCall) (state : UpdateState) :
    (finalState (shape.answer request state)).buffer.size = state.buffer.size := by
  cases request with
  | record entry => rfl
  | write w =>
    simp only [answer]
    split
    · next hwrite => exact size_write hwrite
    · rfl
    · rfl

/-- A whole update leaves the size of the block, however it ends. -/
theorem size_run (shape : BlockShape) (update : Updating Unit) (state : UpdateState) :
    (finalState (shape.run update state)).buffer.size = state.buffer.size := by
  induction update generalizing state with
  | done value => rfl
  | fail error => rfl
  | call request next ih =>
    have hanswer := size_answer shape request state
    rw [run_call, EStateM.bind]
    split
    · next answer middle h =>
      rw [h] at hanswer
      exact (ih answer middle).trans hanswer
    · next failure middle h =>
      rw [h] at hanswer
      exact hanswer

/-- What was in the buffer before does not matter: a block is refreshed in it as from zero. -/
theorem refreshIn_eq (shape : BlockShape) (staging : List UInt8) (update : Updating Unit) :
    shape.refreshIn staging update =
      (shape.refresh update).map fun refreshed =>
        { bytes := refreshed.bytes, error := refreshed.error, records := refreshed.records } := by
  have hcleared : zeroFill (resize staging shape.layout.size.toNat) =
      List.replicate shape.blank.size 0 := by
    rw [zeroFill_eq, length_resize]
    rfl
  unfold refreshIn refresh
  rw [hcleared]
  have hsize := size_run shape update { buffer := shape.blank, records := [] }
  rw [EStateM.run]
  cases hrun : shape.run update { buffer := shape.blank, records := [] } with
  | ok _ state =>
    rw [hrun] at hsize
    change state.buffer.size = shape.blank.size at hsize
    simp only [Option.map_some, Refreshed.bytes, ← hsize, BlockBuffer.copyInto_zeros]
  | error failure state =>
    cases failure with
    | overrun => rfl
    | refused error =>
      have hblank : shape.blank.bytes = List.replicate shape.blank.size 0 :=
        Array.toList_replicate ..
      simp only [Option.map_some, Refreshed.bytes, zeroFill_eq, BlockBuffer.length_copyInto,
        List.length_replicate, hblank]

end BlockShape

end ShaderWeave
