import ShaderWeave.Node
import ShaderWeave.Schedule

/-!
# Stage Graphs

The nodes of one stage, in order of registration. A graph has a generation order exactly if every node
reports only inputs that it has, every reported dependency is another node of the graph, and the
dependencies have no cycle.
-/

namespace ShaderWeave

/-- All nodes of one stage of a model. -/
structure StageGraph where
  /-- The stage. -/
  stage : Stage
  /-- Number of the graph. -/
  id : Nat
  /-- The nodes in order of registration. -/
  nodes : List Node

namespace StageGraph

/-- Identity of the node at a position. -/
def nodeId (g : StageGraph) (index : Nat) : NodeId :=
  { stage := g.stage, graph := g.id, index }

/-- Name of the node at a position. -/
def nodeName (g : StageGraph) (index : Nat) : String :=
  (g.nodes[index]?.map (·.name)).getD ""

/-- Check that a dependency of the node at position `index` is another node of the graph. -/
def checkDependency (g : StageGraph) (node : Node) (index : Nat) (dependency : NodeId) :
    Except GraphError Nat :=
  if dependency.stage ≠ g.stage then
    .error (.crossStageDependency node.name g.stage dependency.stage)
  else if dependency.graph ≠ g.id ∨ g.nodes.length ≤ dependency.index ∨ dependency.index = index then
    .error (.missingDependency node.name g.stage dependency.index)
  else
    .ok dependency.index

/-- The positions that the node at position `index` depends on. -/
def dependenciesAt (g : StageGraph) (node : Node) (index : Nat) : Except NodeFailure (List Nat) :=
  match node.dependencies with
  | none => .error .unknownInput
  | some dependencies => (dependencies.mapM (g.checkDependency node index)).mapError .refused

/-- The positions that each node depends on. -/
def dependencyTable (g : StageGraph) : Except NodeFailure (List (List Nat)) :=
  g.nodes.zipIdx.mapM fun (node, index) => g.dependenciesAt node index

/-- The generation order of the nodes. -/
def schedule (g : StageGraph) : Except NodeFailure (List Nat) := do
  let table ← g.dependencyTable
  match generationOrder table with
  | .ok order => .ok order
  | .error node => .error (.refused (.dependencyCycle (g.nodeName node) g.stage))

/-- Check that every node may stand in the stage. -/
def checkStages (g : StageGraph) : Except GraphError Unit :=
  g.nodes.forM fun node =>
    if node.allowed.intersects g.stage.mask then .ok ()
    else .error (.stageNotAllowed node.name g.stage.mask)

end StageGraph

/-- The two stage graphs of a model. -/
structure Model where
  /-- Name of the model. -/
  name : String
  /-- The vertex stage. -/
  vertex : StageGraph
  /-- The fragment stage. -/
  fragment : StageGraph
  /-- The first graph is one of the vertex stage. -/
  vertex_stage : vertex.stage = .vertex
  /-- The second graph is one of the fragment stage. -/
  fragment_stage : fragment.stage = .fragment

/-- The graph of a stage. -/
def Model.graph (m : Model) : Stage → StageGraph
  | .vertex => m.vertex
  | .fragment => m.fragment

@[simp]
theorem Model.graph_stage (m : Model) (stage : Stage) : (m.graph stage).stage = stage := by
  cases stage
  · exact m.vertex_stage
  · exact m.fragment_stage

end ShaderWeave
