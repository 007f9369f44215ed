import ShaderWeave.Stage
import ShaderWeave.Value

/-!
# Nodes' Identities and Handles

A node is known by its stage, the graph it is registered in, and its position there. A handle is a
value together with the node that owns it; values without an owner are defaults and literals. Handles
that are passed on stay the same handle, and two that are made separately differ in their serial number,
even if they hold the same value of the same node.
-/

namespace ShaderWeave

/-- Identity of a node. -/
structure NodeId where
  /-- Stage of the graph. -/
  stage : Stage
  /-- Number of the graph, which tells apart graphs of one stage in different models. -/
  graph : Nat
  /-- Position of the node in its graph. -/
  index : Nat
deriving DecidableEq, Inhabited

/-- Name of a variable that the node declares, which no other node of its graph declares under the
same node name. -/
def NodeId.varName (id : NodeId) (node field : String) : String :=
  node ++ toString id.index ++ "_" ++ field

/-- A value as nodes pass it on. -/
structure Handle where
  /-- The value. -/
  value : Value
  /-- The node that produces it. -/
  owner : Option NodeId := none
  /-- Tells apart handles that are made separately for one value of a node. -/
  serial : Nat := 0
deriving DecidableEq, Inhabited

namespace Handle

/-- Name of the value. -/
def name (h : Handle) : String := h.value.name

/-- A local variable that the node computes. -/
def computed (id : NodeId) (node field : String) (ty : ValueType) : Handle :=
  { value := .computed (id.varName node field) ty, owner := some id }

/-- A uniform that the node registers. -/
def uniform (id : NodeId) (var : Variable) : Handle :=
  { value := .uniform var, owner := some id }

/-- An input of the stage that the node registers. -/
def stageInput (id : NodeId) (var : Variable) : Handle :=
  { value := .stageInput var, owner := some id }

/-- Whether two handles are of the same value of the same node. -/
def same (h other : Handle) : Bool :=
  h.value == other.value && h.owner == other.owner

/-- Whether the value must be declared by its owner before it is read. -/
def needsDeclaration (h : Handle) : Bool :=
  h.owner.isSome && h.value.kind == .computed

end Handle

end ShaderWeave
