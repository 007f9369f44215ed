import ShaderWeave.Node
import ShaderWeave.Node.Socket

/-!
# Scripted Nodes

A node that is given as data: the actions it takes in the two passes, and the writes that refresh its
uniform blocks. It keeps a note of each action. An action that goes wrong ends the pass with its
error, unless the script catches it.
-/

namespace ShaderWeave

/-- An action of a script, and whether the script goes on if the action goes wrong. -/
structure ScriptStep (α : Type) where
  /-- The action. -/
  action : α
  /-- Whether its error is caught. -/
  catches : Bool := false
deriving DecidableEq

/-- Where a scripted write takes its value from. -/
inductive WriteSource where
  /-- A given value. -/
  | given (value : Datum)
  /-- Model to world space. -/
  | model
  /-- World to view space. -/
  | view
  /-- View to clip space. -/
  | proj
  /-- Clip to view space. -/
  | invProj
  /-- World to clip space. -/
  | viewProj
  /-- Model to clip space. -/
  | mvp
deriving DecidableEq

/-- The matrix of the draw with the given name. -/
def WriteSource.ofName? (name : String) : Option WriteSource :=
  match name with
  | "model" => some model
  | "view" => some view
  | "proj" => some proj
  | "inv_proj" => some invProj
  | "view_proj" => some viewProj
  | "mvp" => some mvp
  | _ => none

/-- The value that is written for a draw. -/
def WriteSource.datum (draw : DrawContext) : WriteSource → Datum
  | given value => value
  | model => .mat4 draw.model
  | view => .mat4 draw.camera.view
  | proj => .mat4 draw.camera.proj
  | invProj => .mat4 draw.camera.invProj
  | viewProj => .mat4 draw.camera.viewProj
  | mvp => .mat4 draw.mvp

/-- A write of a scripted update routine. -/
structure ScriptedWrite where
  /-- The number of lights that the draw must have for the write to take place. -/
  whenLights : Option Nat := none
  /-- Name of the member. -/
  member : String
  /-- What is written. -/
  source : WriteSource
  /-- Which element is written. -/
  index : Option UInt32 := none
deriving DecidableEq

/-- Whether the write takes place for a draw. -/
def ScriptedWrite.applies (write : ScriptedWrite) (draw : DrawContext) : Bool :=
  write.whenLights.all (· == draw.lights.length)

/-- Perform writes in order, each with a record. -/
def scriptedUpdate (block : String) (draw : DrawContext) :
    List (ScriptStep ScriptedWrite) → Updating Unit
  | [] => .done ()
  | step :: rest =>
    let write := step.action
    if write.applies draw then
      .call
        (.write { member := write.member, value := write.source.datum draw, index := write.index })
        fun outcome => .call (.record { block, member := write.member, outcome }) fun _ =>
          match outcome with
          | .ok () => scriptedUpdate block draw rest
          | .error error => if step.catches then scriptedUpdate block draw rest else .fail error
    else
      scriptedUpdate block draw rest

/-- A uniform block of a script. -/
structure ScriptedBlock where
  /-- Name of the block. -/
  name : String
  /-- Its members. -/
  members : List Variable
  /-- The writes of its update routine, if it has one. -/
  writes : Option (List (ScriptStep ScriptedWrite))
deriving DecidableEq

/-- The block as it is registered. -/
def ScriptedBlock.request (block : ScriptedBlock) : BlockRequest where
  name := block.name
  members := block.members
  update := block.writes.map fun writes draw _ => scriptedUpdate block.name draw writes

/-- An action in the setup pass. -/
inductive SetupAction where
  /-- Bind a vertex attribute. -/
  | bindAttribute (a : Attribute)
  /-- Add a color output. -/
  | addColorOutput (name : String)
  /-- Give an interface output the next slot. -/
  | allocateOutput (var : Variable)
  /-- Register an interface input at a slot. -/
  | registerInput (slot : UInt32) (var : Variable)
  /-- Give a channel the next slot. -/
  | allocateChannel (channel : Channel)
  /-- Ask for the slot of a channel. -/
  | channelSlot (channel : Channel)
  /-- Register an interface input at the slot of a channel. -/
  | registerChannelInput (channel : Channel) (expected : Variable)
  /-- Add a push constant. -/
  | addPushConstant (constant : PushConstant)
  /-- Add a sampled texture. -/
  | addSampler (name : String) (dim : TextureDim) (arrayLen : Option UInt32)
  /-- Add a uniform block. -/
  | addBlock (block : ScriptedBlock)
  /-- Go wrong. -/
  | raise (error : GraphError)
deriving DecidableEq

namespace SetupAction

/-- Name of the action in notes. -/
def label : SetupAction → String
  | bindAttribute _ => "attribute"
  | addColorOutput _ => "color_output"
  | allocateOutput _ => "allocate_output"
  | registerInput .. => "register_input"
  | allocateChannel _ => "channel_allocate"
  | channelSlot _ => "channel_slot"
  | registerChannelInput .. => "channel_register"
  | addPushConstant _ => "push_constant"
  | addSampler .. => "sampler"
  | addBlock _ => "block"
  | raise _ => "raise"

/-- A number as the outcome of an action. -/
def numbered (answer : Except GraphError UInt32) : Setup (Except GraphError NoteResult) :=
  .done (answer.map .number)

/-- Take the action; its error is an outcome and does not end the pass. -/
def take : SetupAction → Setup (Except GraphError NoteResult)
  | bindAttribute a => .call (.bindAttribute a) numbered
  | addColorOutput name => .call (.addColorOutput name) numbered
  | allocateOutput var => .call (.allocateOutput var) numbered
  | registerInput slot var => .call (.registerInput slot var) fun answer =>
    .done (Except.map (fun _ => .nothing) answer)
  | allocateChannel channel => .call (.allocateChannel channel) numbered
  | channelSlot channel => .call (.channelSlot channel) numbered
  | registerChannelInput channel expected => .call (.registerChannelInput channel expected) numbered
  | addPushConstant constant => .call (.addPushConstant constant) numbered
  | addSampler name dim arrayLen => .call (.addSampler name dim arrayLen) numbered
  | addBlock block => .call (.addBlock block.request) numbered
  | raise error => .done (.error error)

end SetupAction

/-- An action in the emit pass. -/
inductive EmitAction where
  /-- Append code to the main routine. -/
  | append (code : String)
  /-- Add a helper routine. -/
  | helper (name body : String)
  /-- Ask for the expression that samples a texture. -/
  | sample (texture : String) (index : Option UInt32) (coordinate : String)
  /-- Ask for the expression for the size of a texture. -/
  | textureSize (texture : String) (index : Option UInt32) (lod : String)
  /-- Ask which target and stage the code is written for. -/
  | place
  /-- Declare the output, and assign an expression to it. -/
  | declare (value : Option String)
  /-- Read an input, or the output, and assign it to a variable. -/
  | read (input : Option Nat) (ty : ValueType) (widening : Widening) (into : Option String)
  /-- Go wrong. -/
  | raise (error : GraphError)
deriving DecidableEq

namespace EmitAction

/-- Name of the action in notes. -/
def label : EmitAction → String
  | append _ => "main"
  | helper .. => "function"
  | sample .. => "sample"
  | textureSize .. => "size"
  | place => "where"
  | declare _ => "declare"
  | read .. => "read"
  | raise _ => "raise"

/-- The handle that a read goes to: the output, or an input by its position. -/
def source? (output : Handle) (inputs : List Handle) : Option Nat → Option Handle
  | none => some output
  | some i => inputs[i]?

/-- Append an assignment, if both sides are given. -/
def assign (left right : Option Piece) : Emit Unit :=
  match left, right with
  | some left, some right => .append [left, " = ", right, ";"]
  | _, _ => .done ()

/-- Take the action for a node with the given output and inputs; its error is an outcome and does not
end the pass, but a read of an input that the node does not have ends it. -/
def take (output : Handle) (inputs : List Handle) :
    EmitAction → Emit (Except GraphError NoteResult)
  | append code => do
    Emit.append [.text code]
    return .ok .nothing
  | helper name body => .call (.helper name body) fun added => .done (.ok (.flag added))
  | sample texture index coordinate => do
    let code ← Emit.sample texture index [.text coordinate]
    return .ok (.code code)
  | textureSize texture index lod => do
    let code ← Emit.textureSize texture index lod
    return .ok (.code code)
  | place => .call .place fun place => .done (.ok (.place place))
  | declare value => .call (.declare output) fun
    | .ok () => do
      assign (some (.declaration output)) (value.map .text)
      return .ok (.code [.declaration output])
    | .error error => .done (.error error)
  | read input ty widening into =>
    match source? output inputs input with
    | none => .fail .unknownInput
    | some handle => .call (.read handle ty widening) fun
      | .ok expr => do
        assign (into.map .text) (some (.read handle expr))
        return .ok (.code [.read handle expr])
      | .error error => .done (.error error)
  | raise error => .done (.error error)

end EmitAction

/-- The output of a scripted node. -/
inductive ScriptOutput where
  /-- A local variable that is named after the node. -/
  | computed (ty : ValueType) (arrayLen : Option UInt32)
  /-- A given value. -/
  | given (value : Value)
deriving DecidableEq

/-- A node that is given as data. -/
structure Script where
  /-- Name of the node. -/
  name : String
  /-- Stages that the node may stand in. -/
  allowed : StageMask := .all
  /-- Its inputs. -/
  inputs : List Handle := []
  /-- Positions of the inputs that it reports. -/
  reported : List Nat
  /-- Handles whose owners it depends on without reading them. -/
  direct : List Handle := []
  /-- Its output. -/
  output : ScriptOutput := .computed .float none
  /-- What it does in the setup pass. -/
  setup : List (ScriptStep SetupAction) := []
  /-- What it does in the emit pass. -/
  emit : List (ScriptStep EmitAction) := []
deriving DecidableEq

namespace Script

/-- The handle of the output. -/
def outputHandle (id : NodeId) (script : Script) : Handle :=
  match script.output with
  | .computed ty arrayLen =>
    { value := .computed (id.varName script.name "out") ty arrayLen, owner := some id }
  | .given value => { value, owner := some id }

/-- What came of an action, as it is noted. -/
def noted : Except GraphError NoteResult → NoteResult
  | .ok result => result
  | .error error => .failure error

/-- Take the actions of the setup pass in order. -/
def runSetup (note : Option (String × NoteResult) → Note) :
    List (ScriptStep SetupAction) → Setup Unit
  | [] => .done ()
  | step :: rest => do
    let outcome ← step.action.take
    Routine.call (.note (note (some (step.action.label, noted outcome)))) Routine.done
    match outcome with
    | .ok _ => runSetup note rest
    | .error error => if step.catches then runSetup note rest else .fail error

/-- Take the actions of the emit pass in order. -/
def runEmit (note : Option (String × NoteResult) → Note) (output : Handle) (inputs : List Handle) :
    List (ScriptStep EmitAction) → Emit Unit
  | [] => .done ()
  | step :: rest => do
    let outcome ← step.action.take output inputs
    Routine.call (.note (note (some (step.action.label, noted outcome)))) Routine.done
    match outcome with
    | .ok _ => runEmit note output inputs rest
    | .error error =>
      if step.catches then runEmit note output inputs rest else .fail (.refused error)

/-- The nodes that the script depends on; `none` if it reports an input that it does not have. -/
def dependencies? (script : Script) : Option (List NodeId) := do
  let reported ← script.reported.mapM (script.inputs[·]?)
  return Handle.owners reported ++ Handle.owners script.direct

/-- The script as its graph sees it. -/
def toNode (id : NodeId) (script : Script) : Node where
  name := script.name
  allowed := script.allowed
  dependencies := script.dependencies?
  setup :=
    let note action : Note := { pass := .setup, stage := id.stage, node := script.name, action }
    .call (.note (note none)) fun _ => runSetup note script.setup
  emit :=
    let note action : Note := { pass := .emit, stage := id.stage, node := script.name, action }
    .call (.note (note none)) fun _ =>
      runEmit note (script.outputHandle id) script.inputs script.emit

/-- The script with an input wired; `none` if it has no such input. -/
def wire (socket : Socket) (h : Handle) (script : Script) : Option Script :=
  match socket with
  | .numbered i =>
    if i < script.inputs.length then some { script with inputs := script.inputs.set i h } else none
  | _ => none

end Script

end ShaderWeave
