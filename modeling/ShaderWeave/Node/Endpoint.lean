import ShaderWeave.Node
import ShaderWeave.Node.Socket

/-!
# Endpoints

The nodes at which values enter and leave a stage: attributes of the mesh, push constants, the position
of the vertex, colors of the fragment, and the two ends of a channel that carries a value from the
vertex to the fragment stage.
-/

namespace ShaderWeave

/-- An endpoint with its input. -/
inductive EndpointNode where
  /-- Reads an attribute of the mesh. -/
  | meshAttribute (a : Attribute)
  /-- Exposes a push constant. -/
  | pushConstant (constant : PushConstant)
  /-- Writes the position of the vertex in clip space. -/
  | positionOutput (input : Handle)
  /-- Writes a color of the fragment. -/
  | colorOutput (target : String) (input : Handle)
  /-- Assigns its input to the interface output of a channel. -/
  | producer (channel : Channel) (input : Handle)
  /-- Exposes the interface input of a channel, with the contract that it expects. -/
  | consumer (channel : Channel) (expected : Variable)
deriving DecidableEq

namespace EndpointNode

/-- A position output that nothing is wired to. -/
def newPositionOutput : EndpointNode :=
  positionOutput { value := .ofVec4 .zero .zero .zero .zero }

/-- A color output that nothing is wired to. -/
def newColorOutput (target : String) : EndpointNode :=
  colorOutput target { value := .ofVec4 .one .zero .one .one }

/-- Name of the node. -/
def name : EndpointNode → String
  | meshAttribute _ => "attribute"
  | pushConstant _ => "pushConstant"
  | positionOutput _ => "positionOutput"
  | colorOutput .. => "colorOutput"
  | producer .. => "stageInterfaceOut"
  | consumer .. => "stageInterfaceIn"

/-- Stages that the node may stand in. -/
def allowed : EndpointNode → StageMask
  | meshAttribute _ => .vertex
  | pushConstant _ => .all
  | positionOutput _ => .vertex
  | colorOutput .. => .fragment
  | producer .. => .vertex
  | consumer .. => .fragment

/-- The inputs that the node reports. -/
def inputs : EndpointNode → List Handle
  | meshAttribute _ => []
  | pushConstant _ => []
  | positionOutput input => [input]
  | colorOutput _ input => [input]
  | producer _ input => [input]
  | consumer .. => []

/-- The output of the node. -/
def output? (id : NodeId) : EndpointNode → Option Handle
  | meshAttribute a => some (.stageInput id { name := a.name, ty := a.ty })
  | pushConstant constant => some (.uniform id constant.var)
  | positionOutput _ => none
  | colorOutput .. => none
  | producer .. => none
  | consumer _ expected => some (.stageInput id expected)

/-- What the node registers. -/
def setup : EndpointNode → Setup Unit
  | meshAttribute a => .bindAttribute a
  | pushConstant constant => .addPushConstant constant
  | positionOutput _ => .done ()
  | colorOutput target _ => .addColorOutput target
  | producer channel _ => .allocateChannel channel
  | consumer channel expected => .registerChannelInput channel expected

/-- The assignments of `count` elements of an array, from element `start` on. -/
def assignElements (name : String) (input : Handle) : (count start : Nat) → Emit Unit
  | 0, _ => .done ()
  | count + 1, start => do
    let place := "[" ++ toString start ++ "]"
    Emit.append [name, place, " = ", .mention input, place, ";"]
    assignElements name input count (start + 1)

/-- The code that the node writes. -/
def emit : EndpointNode → Emit Unit
  | meshAttribute _ => .done ()
  | pushConstant _ => .done ()
  | positionOutput input => do
    let position ← Emit.read input .vec4
    Emit.append ["gl_Position = ", position, ";"]
  | colorOutput target input => do
    let color ← Emit.read input .vec4
    Emit.append [target, " = ", color, ";"]
  | producer channel input =>
    match channel.var.arrayLen with
    | some len => assignElements channel.var.name input len.toNat 0
    | none => do
      let value ← Emit.read input channel.var.ty
      Emit.append [channel.var.name, " = ", value, ";"]
  | consumer .. => .done ()

/-- The node with an input wired; `none` if it has no such input. -/
def wire (socket : Socket) (h : Handle) (node : EndpointNode) : Option EndpointNode :=
  match socket, node with
  | .input, positionOutput _ => some (positionOutput h)
  | .input, colorOutput target _ => some (colorOutput target h)
  | .input, producer channel _ => some (producer channel h)
  | _, _ => none

end EndpointNode

end ShaderWeave
