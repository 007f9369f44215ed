import ShaderWeave.Resource.Binding

/-!
# Registry

The state behind the first pass over a stage: what its nodes have registered so far, the counters that
both stages share, and the slots that channels have got. Each operation either returns the number that
the resource got, or fails and leaves the registry as it was. A number that does not fit a word is not
given out: that ends everything.
-/

namespace ShaderWeave

/-- A registered block with the routine that refreshes it. -/
structure RegisteredBlock where
  /-- The block. -/
  block : UniformBlock
  /-- Its update routine. -/
  update : UpdateRoutine

/-- A registered push constant with the cell that holds its value. -/
structure RegisteredPushConstant where
  /-- The push constant. -/
  slot : PushConstantSlot
  /-- Number of its cell. -/
  cell : Nat
deriving DecidableEq, Inhabited

/-- What has been registered. -/
structure Registry where
  /-- The stage that registers. -/
  stage : Stage
  /-- Interface outputs of the stage. -/
  outputs : List InterfaceSlot := []
  /-- Interface inputs of the stage. -/
  inputs : List InterfaceSlot := []
  /-- The next free output slot. -/
  nextSlot : UInt32 := 0
  /-- Vertex attributes of the stage. -/
  attributes : List BoundAttribute := []
  /-- The next free attribute location. -/
  nextLocation : UInt32 := 0
  /-- Color outputs of the stage. -/
  colorOutputs : List ColorOutput := []
  /-- Uniform blocks of the stage. -/
  blocks : List RegisteredBlock := []
  /-- Push constants of the stage. -/
  pushConstants : List RegisteredPushConstant := []
  /-- Samplers of the stage. -/
  samplers : List SamplerBinding := []
  /-- The next free binding of the model. -/
  nextBinding : UInt32 := 0
  /-- Bytes of push constants of the model. -/
  pushConstantSize : UInt32 := 0
  /-- Slots of the channels that have one, by channel number. -/
  channelSlots : List (Nat × UInt32) := []

/-- Why an operation on the registry fails. -/
inductive RegisterFailure where
  /-- It breaks a rule. -/
  | refused (error : GraphError)
  /-- A number would not fit a word. -/
  | overflow
deriving DecidableEq

/-- An operation on the registry. -/
abbrev Registering := EStateM RegisterFailure Registry

namespace Registry

/-- The registry of another stage of the same model: nothing registered yet, with the shared counters
and channels as they are. -/
def enter (r : Registry) (stage : Stage) : Registry :=
  { stage, nextBinding := r.nextBinding, pushConstantSize := r.pushConstantSize,
    channelSlots := r.channelSlots }

/-- Whether an interface variable of the stage has the name. -/
def interfaceNameTaken (r : Registry) (name : String) : Bool :=
  (r.outputs ++ r.inputs).any (·.var.name == name)

/-- Whether a block, push constant or sampler of the stage has the name. -/
def bindingNameTaken (r : Registry) (name : String) : Bool :=
  r.blocks.any (·.block.name == name) || r.pushConstants.any (·.slot.name == name)
    || r.samplers.any (·.name == name)

/-- The slot of a channel. -/
def channelSlot? (r : Registry) (channel : Channel) : Option UInt32 :=
  r.channelSlots.lookup channel.id

/-- The next free slot after an interface output. -/
def slotAfter? (r : Registry) (var : Variable) : Option UInt32 := do
  Word.add? r.nextSlot (← var.locationCount?)

/-- Give an interface output the next free slot. Slots advance by the locations that the variable
takes. -/
def allocateOutput (var : Variable) : Registering UInt32 := fun r =>
  if r.interfaceNameTaken var.name then
    .error (.refused (.duplicateInterfaceName r.stage var.name)) r
  else
    match r.slotAfter? var with
    | none => .error .overflow r
    | some nextSlot =>
      .ok r.nextSlot
        { r with outputs := r.outputs ++ [{ slot := r.nextSlot, var }], nextSlot }

/-- Register an interface input at a slot. The same contract at the same slot again changes nothing. -/
def registerInput (slot : UInt32) (var : Variable) : Registering Unit := fun r =>
  match r.inputs.find? (·.slot == slot) with
  | some existing =>
    if existing.var = var then .ok () r
    else .error (.refused (.duplicateInterfaceSlot r.stage slot existing.var var)) r
  | none =>
    if r.interfaceNameTaken var.name then
      .error (.refused (.duplicateInterfaceName r.stage var.name)) r
    else
      .ok () { r with inputs := r.inputs ++ [{ slot, var }] }

/-- Bind a vertex attribute. The same attribute again has the location it had. -/
def addAttribute (a : Attribute) : Registering UInt32 := fun r =>
  match r.attributes.find? (·.name == a.name) with
  | some existing =>
    if existing.ty = a.ty then .ok existing.location r
    else .error (.refused (.duplicateInterfaceName r.stage existing.name)) r
  | none =>
    match Word.add? r.nextLocation a.ty.locationCount with
    | none => .error .overflow r
    | some nextLocation =>
      .ok r.nextLocation
        { r with
          attributes := r.attributes ++ [{ a with location := r.nextLocation }], nextLocation }

/-- Add a color output. Locations follow the order of registration. -/
def addColorOutput (name : String) : Registering UInt32 := fun r =>
  if r.colorOutputs.any (·.name == name) then
    .error (.refused (.duplicateInterfaceName r.stage name)) r
  else
    let location := r.colorOutputs.length.toUInt32
    .ok location { r with colorOutputs := r.colorOutputs ++ [{ name, location }] }

/-- The first variable whose name an earlier one has. -/
def firstRepeated (seen : List String) : List Variable → Option String
  | [] => none
  | var :: rest =>
    if seen.contains var.name then some var.name else firstRepeated (var.name :: seen) rest

/-- Add a uniform block, laid out by the order of its members. -/
def addBlock (request : BlockRequest) : Registering UInt32 := fun r =>
  if r.bindingNameTaken request.name then
    .error (.refused (.duplicateBinding request.name r.stage)) r
  else
    match firstRepeated [] request.members, request.update with
    | some member, _ => .error (.refused (.duplicateBlockMember request.name member)) r
    | none, none => .error (.refused (.missingUpdateRoutine request.name)) r
    | none, some update =>
      match BlockLayout.std140? request.members, Word.add? r.nextBinding 1 with
      | some layout, some nextBinding =>
        let block : UniformBlock :=
          { name := request.name, stage := r.stage, binding := r.nextBinding, layout }
        .ok r.nextBinding { r with blocks := r.blocks ++ [{ block, update }], nextBinding }
      | _, _ => .error .overflow r

/-- The next offset of an alignment among the push constants, and the end of a constant of a size that
is put there. -/
def pushConstantExtent? (r : Registry) (align size : UInt32) : Option (UInt32 × UInt32) := do
  let offset ← Word.roundUp? r.pushConstantSize align
  let finish ← Word.add? offset size
  return (offset, finish)

/-- Add a push constant at the next offset of its alignment. -/
def addPushConstant (constant : PushConstant) : Registering UInt32 := fun r =>
  if r.bindingNameTaken constant.var.name then
    .error (.refused (.duplicateBinding constant.var.name r.stage)) r
  else
    match constant.var.ty.std430 with
    | none => .error (.refused (.unsupportedPushConstant constant.var.name constant.var.ty)) r
    | some (align, size) =>
      match r.pushConstantExtent? align size with
      | none => .error .overflow r
      | some (offset, finish) =>
        let slot : PushConstantSlot :=
          { name := constant.var.name, stage := r.stage, ty := constant.var.ty, offset, size }
        .ok offset
          { r with
            pushConstants := r.pushConstants ++ [{ slot, cell := constant.cell }]
            pushConstantSize := finish }

/-- The binding of a sampler after those of its textures, and the next free one after it. -/
def samplerBindings? (r : Registry) (textures : UInt32) : Option (UInt32 × UInt32) := do
  let samplerBinding ← Word.add? r.nextBinding textures
  let nextBinding ← Word.add? samplerBinding 1
  return (samplerBinding, nextBinding)

/-- Add a sampled texture: a binding for each of its textures and one for its sampler. -/
def addSampler (name : String) (dim : TextureDim) (arrayLen : Option UInt32) :
    Registering UInt32 := fun r =>
  if r.bindingNameTaken name then
    .error (.refused (.duplicateBinding name r.stage)) r
  else
    match r.samplerBindings? (arrayLen.getD 1) with
    | none => .error .overflow r
    | some (samplerBinding, nextBinding) =>
      let sampler : SamplerBinding :=
        { name, stage := r.stage, dim, arrayLen, binding := r.nextBinding, samplerBinding }
      .ok r.nextBinding { r with samplers := r.samplers ++ [sampler], nextBinding }

/-- Give a channel the next free output slot of the stage. -/
def allocateChannel (channel : Channel) : Registering UInt32 := fun r =>
  match r.channelSlot? channel with
  | some _ => .error (.refused (.channelAllocatedTwice channel.var.name)) r
  | none =>
    match allocateOutput channel.var r with
    | .error error r => .error error r
    | .ok slot r => .ok slot { r with channelSlots := (channel.id, slot) :: r.channelSlots }

/-- The slot that a channel has got. -/
def channelSlot (channel : Channel) : Registering UInt32 := fun r =>
  match r.channelSlot? channel with
  | some slot => .ok slot r
  | none => .error (.refused (.channelNotAllocated channel.var.name)) r

/-- Register the input that a reader of a channel expects, at the slot that the channel has got. -/
def registerChannelInput (channel : Channel) (expected : Variable) : Registering UInt32 := fun r =>
  match channelSlot channel r with
  | .error error r => .error error r
  | .ok slot r =>
    match registerInput slot expected r with
    | .error error r => .error error r
    | .ok () r => .ok slot r

end Registry

/-- Check that every input of the consuming stage is, at its slot, an output of the producing stage with
the same contract. -/
def verifyLink (producer consumer : Registry) : Except GraphError Unit :=
  consumer.inputs.forM fun input =>
    match producer.outputs.find? (·.slot == input.slot) with
    | none => .error (.unmatchedInterfaceInput input.var.name input.slot)
    | some output =>
      if output.var = input.var then .ok ()
      else .error (.interfaceMismatch input.slot input.var output.var)

end ShaderWeave
