import ShaderWeave.Model.Graph
import ShaderWeave.Node.Library
import ShaderWeave.Node.Scripted

/-!
# Designs

A design is a model under construction: nodes are added to its stages and their inputs are wired, in
any order. Designs are made in a workspace, which numbers channels and holds the parameters that nodes
share with the application.
-/

namespace ShaderWeave

/-- A node of a design. -/
inductive DesignNode where
  /-- A node of the library. -/
  | library (node : LibraryNode)
  /-- A node that is given as data. -/
  | scripted (script : Script)
deriving DecidableEq

namespace DesignNode

/-- The outputs of the node, by name. -/
def outputs (id : NodeId) : DesignNode → List (String × Handle)
  | library node => node.outputs id
  | scripted script => [("output", script.outputHandle id)]

/-- The node with an input wired; `none` if it has no such input. -/
def wire (socket : Socket) (h : Handle) : DesignNode → Option DesignNode
  | library node => (node.wire socket h).map library
  | scripted script => (script.wire socket h).map scripted

/-- The node as its graph sees it. -/
def toNode (id : NodeId) : DesignNode → Node
  | library node => node.toNode id
  | scripted script => script.toNode id

end DesignNode

/-- A model under construction. -/
structure Design where
  /-- Name of the model. -/
  name : String
  /-- Number of the graph of the vertex stage. -/
  graph : Nat := 0
  /-- Number of the graph of the fragment stage. -/
  fragmentGraph : Nat := graph + 1
  /-- Nodes of the vertex stage. -/
  vertex : List DesignNode := []
  /-- Nodes of the fragment stage. -/
  fragment : List DesignNode := []
deriving DecidableEq

namespace Design

/-- Number of the graph of a stage. -/
def graphOf (d : Design) : Stage → Nat
  | .vertex => d.graph
  | .fragment => d.fragmentGraph

/-- The nodes of a stage. -/
def nodes (d : Design) : Stage → List DesignNode
  | .vertex => d.vertex
  | .fragment => d.fragment

/-- The design with the nodes of a stage replaced. -/
def withNodes (d : Design) (stage : Stage) (nodes : List DesignNode) : Design :=
  match stage with
  | .vertex => { d with vertex := nodes }
  | .fragment => { d with fragment := nodes }

/-- Identity that the next node of a stage gets. -/
def nextId (d : Design) (stage : Stage) : NodeId :=
  { stage, graph := d.graphOf stage, index := (d.nodes stage).length }

/-- Add a node to a stage. -/
def add (d : Design) (stage : Stage) (node : DesignNode) : Design :=
  d.withNodes stage (d.nodes stage ++ [node])

/-- Wire an input of a node; `none` if there is no such node or it has no such input. -/
def wire? (d : Design) (stage : Stage) (index : Nat) (socket : Socket) (h : Handle) :
    Option Design := do
  let node ← (d.nodes stage)[index]?
  let wired ← node.wire socket h
  return d.withNodes stage ((d.nodes stage).set index wired)

/-- The graph of a stage. -/
def stageGraph (d : Design) (stage : Stage) : StageGraph where
  stage := stage
  id := d.graphOf stage
  nodes := (d.nodes stage).zipIdx.map fun (node, index) =>
    node.toNode { stage, graph := d.graphOf stage, index }

/-- The model. -/
def model (d : Design) : Model where
  name := d.name
  vertex := d.stageGraph .vertex
  fragment := d.stageGraph .fragment
  vertex_stage := rfl
  fragment_stage := rfl

end Design

/-- A design with what its nodes share. -/
structure Workspace where
  /-- The design. -/
  design : Design
  /-- Number of channels so far. -/
  channels : Nat := 0
  /-- Parameters that nodes share with the application. -/
  parameters : ParameterStore := {}
deriving DecidableEq

/-- A step of designing. -/
abbrev Designing := StateM Workspace

namespace Designing

/-- Add a node to a stage; returns its identity. -/
def add (stage : Stage) (node : DesignNode) : Designing NodeId := fun ws =>
  (ws.design.nextId stage, { ws with design := ws.design.add stage node })

/-- Add a node of the library to a stage; returns its identity. -/
def addLibrary (stage : Stage) (node : LibraryNode) : Designing NodeId :=
  add stage (.library node)

/-- Add a node of the library to a stage; returns its first output. -/
def addForOutput (stage : Stage) (node : LibraryNode) : Designing Handle := do
  let id ← addLibrary stage node
  return ((node.outputs id).head?.map (·.2)).getD default

/-- Wire an input of a node, if it has that input; returns whether it has. -/
def wire (stage : Stage) (index : Nat) (socket : Socket) (h : Handle) : Designing Bool := fun ws =>
  match ws.design.wire? stage index socket h with
  | some design => (true, { ws with design })
  | none => (false, ws)

/-- A new channel. -/
def newChannel (var : Variable) : Designing Channel := fun ws =>
  ({ id := ws.channels, var }, { ws with channels := ws.channels + 1 })

/-- A push constant with a new cell. -/
def newPushConstant (var : Variable) (cell : Cell) : Designing PushConstant := fun ws =>
  let (number, parameters) := ws.parameters.addCell cell
  ({ var, cell := number }, { ws with parameters })

/-- The number of new settings of ambient occlusion. -/
def newSettings (settings : AmbientOcclusion.Settings) : Designing Nat := fun ws =>
  let (number, parameters) := ws.parameters.addSettings settings
  (number, { ws with parameters })

/-- Carry a value from the vertex to the fragment stage; returns the value there. -/
def stageInterface (var : Variable) (input : Handle) : Designing Handle := do
  let channel ← newChannel var
  let _ ← addLibrary .vertex (.endpoint (.producer channel input))
  addForOutput .fragment (.endpoint (.consumer channel var))

/-- Both halves of lights with shadows. -/
structure ShadowedLights where
  /-- The half in the vertex stage. -/
  vertex : NodeId
  /-- The half in the fragment stage. -/
  fragment : NodeId
  /-- The channel between them. -/
  channel : Channel
  /-- The array of depth textures. -/
  depthTextures : Handle

/-- Number of active lights. -/
def ShadowedLights.lightCount (lights : ShadowedLights) : Handle :=
  .uniform lights.fragment LightArray.count

/-- Add lights with shadows: a node in the vertex stage, and an array of depth textures and a node in
the fragment stage. -/
def addShadowedLights (max : UInt32) : Designing ShadowedLights := do
  let channel ← newChannel (Shadow.interfaceVar max)
  let vertex ← addLibrary .vertex (.light (.newShadowVertex max channel))
  let depthTextures ←
    addForOutput .fragment (.texture (.binding "depthTextures" (some max)))
  let fragment ← addLibrary .fragment (.light (.shadowFragment max channel depthTextures))
  return { vertex, fragment, channel, depthTextures }

end Designing

end ShaderWeave
