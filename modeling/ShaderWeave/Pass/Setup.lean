import ShaderWeave.Pass.Note
import ShaderWeave.Resource.Registry

/-!
# The Setup Pass

In the first pass each node registers what it needs: attributes, interface slots, color outputs and
bindings. A node's setup is a routine of such requests.
-/

namespace ShaderWeave

/-- What a node can ask for in the setup pass. -/
inductive SetupCall where
  /-- Bind a vertex attribute. -/
  | bindAttribute (a : Attribute)
  /-- Add a color output. -/
  | addColorOutput (name : String)
  /-- Give an interface output the next slot. -/
  | allocateOutput (var : Variable)
  /-- Register an interface input at a slot. -/
  | registerInput (slot : UInt32) (var : Variable)
  /-- Give a channel the next slot. -/
  | allocateChannel (channel : Channel)
  /-- The slot of a channel. -/
  | channelSlot (channel : Channel)
  /-- Register an interface input at the slot of a channel. -/
  | registerChannelInput (channel : Channel) (expected : Variable)
  /-- Add a push constant. -/
  | addPushConstant (constant : PushConstant)
  /-- Add a sampled texture. -/
  | addSampler (name : String) (dim : TextureDim) (arrayLen : Option UInt32)
  /-- Add a uniform block. -/
  | addBlock (request : BlockRequest)
  /-- Keep a note. -/
  | note (note : Note)

namespace SetupCall

/-- What a node gets as an answer: the number that the resource got, or an error. -/
def Answer : SetupCall → Type
  | registerInput .. => Except GraphError Unit
  | note _ => Unit
  | _ => Except GraphError UInt32

end SetupCall

/-- A routine of the setup pass. -/
abbrev Setup := Routine SetupCall SetupCall.Answer GraphError

/-- The state behind the setup of a node. -/
structure SetupState where
  /-- What has been registered. -/
  registry : Registry
  /-- Notes kept so far. -/
  notes : List Note

namespace SetupState

/-- Perform a registration. That it is refused is an answer and does not end the routine. -/
def register {α : Type} (operation : Registering α) :
    EStateM RegisterFailure SetupState (Except GraphError α) := fun state =>
  match operation state.registry with
  | .ok value registry => .ok (.ok value) { state with registry }
  | .error (.refused error) registry => .ok (.error error) { state with registry }
  | .error .overflow registry => .error .overflow { state with registry }

/-- Answer one request. -/
def answer (request : SetupCall) : EStateM RegisterFailure SetupState request.Answer :=
  match request with
  | .bindAttribute a => register (Registry.addAttribute a)
  | .addColorOutput name => register (Registry.addColorOutput name)
  | .allocateOutput var => register (Registry.allocateOutput var)
  | .registerInput slot var => register (Registry.registerInput slot var)
  | .allocateChannel channel => register (Registry.allocateChannel channel)
  | .channelSlot channel => register (Registry.channelSlot channel)
  | .registerChannelInput channel expected =>
    register (Registry.registerChannelInput channel expected)
  | .addPushConstant constant => register (Registry.addPushConstant constant)
  | .addSampler name dim arrayLen => register (Registry.addSampler name dim arrayLen)
  | .addBlock request => register (Registry.addBlock request)
  | .note note => fun state => .ok () { state with notes := state.notes ++ [note] }

end SetupState

namespace Setup

/-- Run the setup of a node. -/
def run (setup : Setup Unit) : EStateM RegisterFailure SetupState Unit :=
  Routine.run (fun error => throw (.refused error)) SetupState.answer setup

/-- The first request is answered, and the rest goes on with the answer. -/
theorem run_call (request : SetupCall) (next : request.Answer → Setup Unit) (state : SetupState) :
    run (.call request next) state =
      EStateM.bind (SetupState.answer request) (fun answer => run (next answer)) state := rfl

/-- End with the error of an answer, or go on without its number. -/
def checked : Except GraphError UInt32 → Setup Unit
  | .ok _ => .done ()
  | .error error => .fail error

/-- Bind a vertex attribute. -/
def bindAttribute (a : Attribute) : Setup Unit := .call (.bindAttribute a) checked

/-- Add a color output. -/
def addColorOutput (name : String) : Setup Unit := .call (.addColorOutput name) checked

/-- Give a channel the next slot. -/
def allocateChannel (channel : Channel) : Setup Unit := .call (.allocateChannel channel) checked

/-- Register an interface input at the slot of a channel. -/
def registerChannelInput (channel : Channel) (expected : Variable) : Setup Unit :=
  .call (.registerChannelInput channel expected) checked

/-- Add a push constant. -/
def addPushConstant (constant : PushConstant) : Setup Unit :=
  .call (.addPushConstant constant) checked

/-- Add a sampled texture. -/
def addSampler (name : String) (dim : TextureDim) (arrayLen : Option UInt32) : Setup Unit :=
  .call (.addSampler name dim arrayLen) checked

/-- Add a uniform block. -/
def addBlock (request : BlockRequest) : Setup Unit := .call (.addBlock request) checked

end Setup

end ShaderWeave
