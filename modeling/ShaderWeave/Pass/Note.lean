import ShaderWeave.Code

/-!
# Notes

A node may keep notes of what it does in a pass, for the people who write it. Notes change nothing.
-/

namespace ShaderWeave

/-- A pass over the nodes of a stage. -/
inductive Pass where
  /-- The first pass, in which nodes register what they need. -/
  | setup
  /-- The second pass, in which nodes write code. -/
  | emit
deriving DecidableEq, Inhabited

/-- Name of a pass. -/
def Pass.label : Pass → String
  | setup => "setup"
  | emit => "emit"

/-- What code is written for. -/
structure CodePlace where
  /-- The target. -/
  target : Target
  /-- The stage. -/
  stage : StageMask
deriving DecidableEq

/-- What came of an action. -/
inductive NoteResult where
  /-- Nothing to tell. -/
  | nothing
  /-- A location, slot, offset or binding. -/
  | number (n : UInt32)
  /-- Whether something was new. -/
  | flag (value : Bool)
  /-- A piece of code. -/
  | code (code : Code)
  /-- The target and stage that code is written for. -/
  | place (place : CodePlace)
  /-- An error. -/
  | failure (error : GraphError)
deriving DecidableEq

/-- A note of a node: that a pass has reached it, or what came of one of its actions. -/
structure Note where
  /-- The pass. -/
  pass : Pass
  /-- Stage of the node. -/
  stage : Stage
  /-- Name of the node. -/
  node : String
  /-- The action and what came of it. -/
  action : Option (String × NoteResult)
deriving DecidableEq

end ShaderWeave
