import ShaderWeave.Node.Arithmetic
import ShaderWeave.Node.Camera
import ShaderWeave.Node.Endpoint
import ShaderWeave.Node.Light
import ShaderWeave.Node.Occlusion
import ShaderWeave.Node.Texture

/-!
# The Node Library

All nodes that come with the project, as one type.
-/

namespace ShaderWeave

/-- A node of the library with its inputs. -/
inductive LibraryNode where
  /-- A place where values enter or leave a stage. -/
  | endpoint (node : EndpointNode)
  /-- A computation on values. -/
  | arithmetic (node : ArithmeticNode)
  /-- The matrices of the camera. -/
  | camera
  /-- A texture or a sample of one. -/
  | texture (node : TextureNode)
  /-- A light node. -/
  | light (node : LightNode)
  /-- A node of ambient occlusion. -/
  | occlusion (node : OcclusionNode)
deriving DecidableEq

namespace LibraryNode

/-- Name of the node. -/
def name : LibraryNode → String
  | endpoint node => node.name
  | arithmetic node => node.name
  | camera => "camera"
  | texture node => node.name
  | light node => node.name
  | occlusion node => node.name

/-- Stages that the node may stand in. -/
def allowed : LibraryNode → StageMask
  | endpoint node => node.allowed
  | arithmetic node => node.allowed
  | camera => .all
  | texture _ => .all
  | light node => node.allowed
  | occlusion node => node.allowed

/-- The inputs that the node reports. -/
def inputs : LibraryNode → List Handle
  | endpoint node => node.inputs
  | arithmetic node => node.inputs
  | camera => []
  | texture node => node.inputs
  | light node => node.inputs
  | occlusion node => node.inputs

/-- The outputs of the node, by name. -/
def outputs (id : NodeId) : LibraryNode → List (String × Handle)
  | endpoint node => ((node.output? id).map fun h => ("output", h)).toList
  | arithmetic node => [("output", node.output id)]
  | camera => CameraNode.outputs id
  | texture node => [("output", node.output id)]
  | light node => node.outputs id
  | occlusion node => node.outputs id

/-- What the node registers. -/
def setup : LibraryNode → Setup Unit
  | endpoint node => node.setup
  | arithmetic node => node.setup
  | camera => .addBlock CameraNode.block
  | texture node => node.setup
  | light node => node.setup
  | occlusion node => node.setup

/-- The code that the node writes. -/
def emit (id : NodeId) : LibraryNode → Emit Unit
  | endpoint node => node.emit
  | arithmetic node => node.emit id
  | camera => .done ()
  | texture node => node.emit id
  | light node => node.emit id
  | occlusion node => node.emit id

/-- The node with an input wired; `none` if it has no such input. -/
def wire (socket : Socket) (h : Handle) : LibraryNode → Option LibraryNode
  | endpoint node => (node.wire socket h).map endpoint
  | arithmetic node => (node.wire socket h).map arithmetic
  | camera => none
  | texture node => (node.wire socket h).map texture
  | light node => (node.wire socket h).map light
  | occlusion node => (node.wire socket h).map occlusion

/-- The node as its graph sees it. -/
def toNode (id : NodeId) (node : LibraryNode) : Node where
  name := node.name
  allowed := node.allowed
  dependencies := some (Handle.owners node.inputs)
  setup := node.setup
  emit := node.emit id

end LibraryNode

end ShaderWeave
