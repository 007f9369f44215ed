import ShaderWeave.Pass.Emit
import ShaderWeave.Pass.Setup

/-!
# Nodes

A node as a graph sees it: its name, the stages it may stand in, the nodes it reports to depend on, and
what it does in the two passes.
-/

namespace ShaderWeave

/-- A unit of shading logic. -/
structure Node where
  /-- Name in messages and notes. -/
  name : String
  /-- Stages that the node may stand in. -/
  allowed : StageMask := .all
  /-- The nodes that have to come before it; `none` if the node reports an input that it does not
  have. -/
  dependencies : Option (List NodeId) := some []
  /-- What it does in the setup pass. -/
  setup : Setup Unit := .done ()
  /-- What it does in the emit pass. -/
  emit : Emit Unit := .done ()

/-- The owners of handles, for those that have one. -/
def Handle.owners (handles : List Handle) : List NodeId :=
  handles.filterMap (·.owner)

end ShaderWeave
