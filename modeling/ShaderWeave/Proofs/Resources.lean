import ShaderWeave.Proofs.DeclaredBeforeRead

/-!
# What the Nodes of the Library Register

The setup of a library node makes a fixed list of requests and gives up at the first that is refused.
So in a model that compiles, a stage has registered exactly what its nodes ask for, whatever the order
of the nodes; only the numbers depend on the order.

## Main definitions

* `Resource`: something that is registered, without the number that it gets.
* `Registry.Holds`: a resource is registered.
* `LibraryNode.resources`: what a node of the library asks for.
* `Setup.Asks setup resources`: a setup that ends well has been granted `resources`.

## Main results

* `run_resources`: a setup that ends well adds what it asks for to the registry, and nothing else.
* `resources_of_compile`: in a compiled shader, the resources of a stage are those of its nodes.
* `belongs_of_compile`: each resource stands in a stage that can have it.
-/

namespace ShaderWeave

/-- Something that is registered, without the number that it gets. -/
inductive Resource where
  /-- A vertex attribute. -/
  | vertexAttribute (a : Attribute)
  /-- An interface output. -/
  | output (var : Variable)
  /-- An interface input. -/
  | input (var : Variable)
  /-- A color output. -/
  | color (name : String)
  /-- A uniform block. -/
  | block (name : String) (members : List Variable)
  /-- A push constant. -/
  | pushConstant (name : String) (ty : ValueType)
  /-- A sampled texture, or an array of them. -/
  | sampler (name : String) (dim : TextureDim) (arrayLen : Option UInt32)
deriving DecidableEq

/-- The resource is registered. -/
def Registry.Holds (r : Registry) : Resource → Prop
  | .vertexAttribute a => ∃ bound ∈ r.attributes, bound.toAttribute = a
  | .output var => ∃ output ∈ r.outputs, output.var = var
  | .input var => ∃ input ∈ r.inputs, input.var = var
  | .color name => ∃ color ∈ r.colorOutputs, color.name = name
  | .block name members => ∃ registered ∈ r.blocks, registered.block.name = name ∧
      registered.block.layout.members.map (·.toVariable) = members
  | .pushConstant name ty => ∃ constant ∈ r.pushConstants,
      constant.slot.name = name ∧ constant.slot.ty = ty
  | .sampler name dim arrayLen => ∃ sampler ∈ r.samplers,
      sampler.name = name ∧ sampler.dim = dim ∧ sampler.arrayLen = arrayLen

/-! ## Operations on the Registry -/

/-- The members of a layout are the variables that it was made of, in order. -/
theorem members_of_place? {start finish : UInt32} {vars : List Variable} {members : List Member}
    (h : BlockLayout.place? start vars = some (members, finish)) :
    members.map (·.toVariable) = vars := by
  induction vars generalizing start finish members with
  | nil =>
    cases h
    rfl
  | cons var rest ih =>
    obtain ⟨member, hmember, h⟩ := Option.bind_eq_some_iff.1 h
    obtain ⟨next, -, h⟩ := Option.bind_eq_some_iff.1 h
    obtain ⟨⟨others, last⟩, hothers, h⟩ := Option.bind_eq_some_iff.1 h
    cases h
    -- A placed member is its variable with a place.
    obtain ⟨footprint, -, hplaced⟩ := Option.bind_eq_some_iff.1 hmember
    obtain ⟨offset, -, hplaced⟩ := Option.bind_eq_some_iff.1 hplaced
    cases hplaced
    rw [List.map_cons, ih hothers]

theorem members_of_std140? {vars : List Variable} {layout : BlockLayout}
    (h : BlockLayout.std140? vars = some layout) : layout.members.map (·.toVariable) = vars := by
  obtain ⟨⟨members, finish⟩, hplaced, h⟩ := Option.bind_eq_some_iff.1 h
  obtain ⟨size, -, h⟩ := Option.bind_eq_some_iff.1 h
  cases h
  exact members_of_place? hplaced

namespace Registry

/-- The second registry has the resources of the first, the given ones, and no others. -/
def Gains (r : Registry) (resources : List Resource) (r' : Registry) : Prop :=
  ∀ resource, r'.Holds resource ↔ r.Holds resource ∨ resource ∈ resources

theorem Gains.refl (r : Registry) : Gains r [] r := by
  intro resource
  simp

theorem Gains.trans {r middle r' : Registry} {resources more : List Resource}
    (hfirst : Gains r resources middle) (hrest : Gains middle more r') :
    Gains r (resources ++ more) r' := by
  intro resource
  rw [hrest, hfirst, List.mem_append, or_assoc]

/-- Nothing is registered in an empty registry. -/
theorem not_holds {r : Registry} {resource : Resource} (hattributes : r.attributes = [])
    (houtputs : r.outputs = []) (hinputs : r.inputs = []) (hcolors : r.colorOutputs = [])
    (hblocks : r.blocks = []) (hconstants : r.pushConstants = []) (hsamplers : r.samplers = []) :
    ¬ r.Holds resource := by
  cases resource <;>
    simp [Holds, hattributes, houtputs, hinputs, hcolors, hblocks, hconstants, hsamplers]

/-- What is there already is not gained again. -/
theorem Gains.of_holds {r : Registry} {resource : Resource} (h : r.Holds resource) :
    Gains r [resource] r := by
  intro other
  rw [List.mem_singleton]
  exact ⟨.inl, fun hor => hor.elim id fun heq => heq ▸ h⟩

/-- An operation that succeeds gains the given resources. -/
def Provides {α : Type} (operation : Registering α) (resources : List Resource) : Prop :=
  ∀ r value r', operation r = .ok value r' → Gains r resources r'

theorem addAttribute_provides (a : Attribute) :
    Provides (addAttribute a) [.vertexAttribute a] := by
  intro r location r' h
  unfold addAttribute at h
  split at h
  · rename_i existing hfind
    split at h <;> cases h
    rename_i hty
    -- The attribute that is found has the name, and its type was compared.
    have hname : existing.name = a.name := by simpa using List.find?_some hfind
    have heq : existing.toAttribute = a :=
      calc existing.toAttribute = ⟨existing.name, existing.ty⟩ := rfl
        _ = ⟨a.name, a.ty⟩ := by rw [hname, hty]
    exact .of_holds ⟨existing, List.mem_of_find?_eq_some hfind, heq⟩
  · split at h <;> cases h
    exact fun resource => by cases resource <;> simp [Holds, or_and_right, exists_or, eq_comm]

theorem addColorOutput_provides (name : String) : Provides (addColorOutput name) [.color name] := by
  intro r location r' h
  unfold addColorOutput at h
  split at h <;> cases h
  exact fun resource => by cases resource <;> simp [Holds, or_and_right, exists_or, eq_comm]

theorem allocateOutput_provides (var : Variable) :
    Provides (allocateOutput var) [.output var] := by
  intro r slot r' h
  unfold allocateOutput at h
  split at h
  · cases h
  · split at h <;> cases h
    exact fun resource => by cases resource <;> simp [Holds, or_and_right, exists_or, eq_comm]

theorem registerInput_provides (slot : UInt32) (var : Variable) :
    Provides (registerInput slot var) [.input var] := by
  intro r value r' h
  unfold registerInput at h
  split at h
  · rename_i existing hfind
    split at h <;> cases h
    rename_i hvar
    exact .of_holds ⟨existing, List.mem_of_find?_eq_some hfind, hvar⟩
  · split at h <;> cases h
    exact fun resource => by cases resource <;> simp [Holds, or_and_right, exists_or, eq_comm]

theorem addBlock_provides (request : BlockRequest) :
    Provides (addBlock request) [.block request.name request.members] := by
  intro r binding r' h
  unfold addBlock at h
  split at h
  · cases h
  · split at h
    · cases h
    · cases h
    · split at h <;> cases h
      rename_i layout nextBinding hlayout _
      have hmembers := members_of_std140? hlayout
      exact fun resource => by
        cases resource <;> simp [Holds, or_and_right, exists_or, hmembers, eq_comm]

theorem addPushConstant_provides (constant : PushConstant) :
    Provides (addPushConstant constant) [.pushConstant constant.var.name constant.var.ty] := by
  intro r offset r' h
  unfold addPushConstant at h
  split at h
  · cases h
  · split at h
    · cases h
    · split at h <;> cases h
      exact fun resource => by cases resource <;> simp [Holds, or_and_right, exists_or, eq_comm]

theorem addSampler_provides (name : String) (dim : TextureDim) (arrayLen : Option UInt32) :
    Provides (addSampler name dim arrayLen) [.sampler name dim arrayLen] := by
  intro r binding r' h
  unfold addSampler at h
  split at h
  · cases h
  · split at h <;> cases h
    exact fun resource => by cases resource <;> simp [Holds, or_and_right, exists_or, eq_comm]

theorem allocateChannel_provides (channel : Channel) :
    Provides (allocateChannel channel) [.output channel.var] := by
  intro r slot r' h
  unfold allocateChannel at h
  split at h
  · cases h
  · split at h <;> cases h
    rename_i reached hallocate
    -- The slot that the channel gets besides is not a resource.
    exact allocateOutput_provides channel.var r slot reached hallocate

theorem channelSlot_provides (channel : Channel) : Provides (channelSlot channel) [] := by
  intro r slot r' h
  unfold channelSlot at h
  split at h <;> cases h
  exact .refl r

theorem registerChannelInput_provides (channel : Channel) (expected : Variable) :
    Provides (registerChannelInput channel expected) [.input expected] := by
  intro r slot r' h
  unfold registerChannelInput at h
  split at h
  · cases h
  · rename_i found reached hslot
    split at h <;> cases h
    rename_i hregister
    exact (channelSlot_provides channel r slot reached hslot).trans
      (registerInput_provides slot expected reached () r' hregister)

end Registry

/-! ## Setups -/

/-- What a request asks for. -/
def SetupCall.resources : SetupCall → List Resource
  | bindAttribute a => [.vertexAttribute a]
  | addColorOutput name => [.color name]
  | allocateOutput var => [.output var]
  | registerInput _ var => [.input var]
  | allocateChannel channel => [.output channel.var]
  | channelSlot _ => []
  | registerChannelInput _ expected => [.input expected]
  | addPushConstant constant => [.pushConstant constant.var.name constant.var.ty]
  | addSampler name dim arrayLen => [.sampler name dim arrayLen]
  | addBlock request => [.block request.name request.members]
  | note _ => []

theorem register_gains {α : Type} {operation : Registering α} {resources : List Resource}
    {value : α} {state state' : SetupState} (hoperation : Registry.Provides operation resources)
    (h : SetupState.register operation state = .ok (.ok value) state') :
    state.registry.Gains resources state'.registry := by
  unfold SetupState.register at h
  split at h <;> cases h
  rename_i hrun
  exact hoperation _ _ _ hrun

/-- A request that is not refused gains what it asks for. -/
theorem answer_gains {request : SetupCall} {answer : request.Answer} {state state' : SetupState}
    (h : SetupState.answer request state = .ok answer state')
    (hgranted : request.refusal? answer = none) :
    state.registry.Gains request.resources state'.registry := by
  cases request with
  | note note =>
    cases h
    exact .refl _
  | bindAttribute a =>
    cases answer with
    | error error => cases hgranted
    | ok value => exact register_gains (Registry.addAttribute_provides a) h
  | addColorOutput name =>
    cases answer with
    | error error => cases hgranted
    | ok value => exact register_gains (Registry.addColorOutput_provides name) h
  | allocateOutput var =>
    cases answer with
    | error error => cases hgranted
    | ok value => exact register_gains (Registry.allocateOutput_provides var) h
  | registerInput slot var =>
    cases answer with
    | error error => cases hgranted
    | ok value => exact register_gains (Registry.registerInput_provides slot var) h
  | allocateChannel channel =>
    cases answer with
    | error error => cases hgranted
    | ok value => exact register_gains (Registry.allocateChannel_provides channel) h
  | channelSlot channel =>
    cases answer with
    | error error => cases hgranted
    | ok value => exact register_gains (Registry.channelSlot_provides channel) h
  | registerChannelInput channel expected =>
    cases answer with
    | error error => cases hgranted
    | ok value => exact register_gains (Registry.registerChannelInput_provides channel expected) h
  | addPushConstant constant =>
    cases answer with
    | error error => cases hgranted
    | ok value => exact register_gains (Registry.addPushConstant_provides constant) h
  | addSampler name dim arrayLen =>
    cases answer with
    | error error => cases hgranted
    | ok value => exact register_gains (Registry.addSampler_provides name dim arrayLen) h
  | addBlock request =>
    cases answer with
    | error error => cases hgranted
    | ok value => exact register_gains (Registry.addBlock_provides request) h

namespace Setup

/-- Whatever it is answered, a setup asks for `resources` in order, and fails once a request is
refused. -/
def Asks : Setup Unit → List Resource → Prop
  | .done _, resources => resources = []
  | .fail _, _ => True
  | .call request next, resources => ∃ rest, resources = request.resources ++ rest ∧
      ∀ answer, match request.refusal? answer with
        | none => Asks (next answer) rest
        | some _ => ∃ error, next answer = .fail error

/-- A setup that ends well has been granted what it asks for. -/
theorem run_resources {setup : Setup Unit} {resources : List Resource} {state state' : SetupState}
    (hasks : Asks setup resources) (h : setup.run state = .ok () state') :
    state.registry.Gains resources state'.registry := by
  induction setup generalizing resources state with
  | done value =>
    cases h
    rw [show resources = [] from hasks]
    exact .refl _
  | fail error => cases h
  | call request next ih =>
    obtain ⟨rest, rfl, hnext⟩ := hasks
    rw [run_call, EStateM.bind] at h
    cases hanswer : SetupState.answer request state with
    | error failure middle =>
      rw [hanswer] at h
      cases h
    | ok answer middle =>
      rw [hanswer] at h
      have hrest := hnext answer
      cases hrefusal : request.refusal? answer with
      | none =>
        rw [hrefusal] at hrest
        exact (answer_gains hanswer hrefusal).trans (ih answer hrest h)
      | some error =>
        -- After a refusal the setup would have failed.
        rw [hrefusal] at hrest
        obtain ⟨failure, hfail⟩ := hrest
        have hrun : run (next answer) middle = .ok () state' := h
        rw [hfail] at hrun
        cases hrun

theorem Asks.bind {first : Setup Unit} {next : Unit → Setup Unit} {resources more : List Resource}
    (hfirst : Asks first resources) (hnext : Asks (next ()) more) :
    Asks (first >>= next) (resources ++ more) := by
  induction first generalizing resources with
  | done value =>
    rw [show resources = [] from hfirst]
    exact hnext
  | fail error => trivial
  | call request rest ih =>
    obtain ⟨later, rfl, hrest⟩ := hfirst
    refine ⟨later ++ more, List.append_assoc _ _ _, fun answer => ?_⟩
    have hanswer := hrest answer
    cases hrefusal : request.refusal? answer with
    | none =>
      rw [hrefusal] at hanswer
      exact ih answer hanswer
    | some error =>
      rw [hrefusal] at hanswer
      obtain ⟨failure, hfail⟩ := hanswer
      exact ⟨failure, congrArg (Routine.bind · next) hfail⟩

/-- A single request, after which the setup ends well if it is granted. -/
theorem Asks.single {request : SetupCall} {next : request.Answer → Setup Unit}
    (hnext : ∀ answer, next answer = match request.refusal? answer with
      | none => .done ()
      | some error => .fail error) :
    Asks (.call request next) request.resources := by
  refine ⟨[], (List.append_nil _).symm, fun answer => ?_⟩
  rw [hnext]
  cases request.refusal? answer with
  | none => rfl
  | some error => exact ⟨error, rfl⟩

theorem bindAttribute_asks (a : Attribute) : Asks (bindAttribute a) [.vertexAttribute a] :=
  .single fun answer => by cases answer <;> rfl

theorem addColorOutput_asks (name : String) : Asks (addColorOutput name) [.color name] :=
  .single fun answer => by cases answer <;> rfl

theorem allocateChannel_asks (channel : Channel) :
    Asks (allocateChannel channel) [.output channel.var] :=
  .single fun answer => by cases answer <;> rfl

theorem registerChannelInput_asks (channel : Channel) (expected : Variable) :
    Asks (registerChannelInput channel expected) [.input expected] :=
  .single fun answer => by cases answer <;> rfl

theorem addPushConstant_asks (constant : PushConstant) :
    Asks (addPushConstant constant) [.pushConstant constant.var.name constant.var.ty] :=
  .single fun answer => by cases answer <;> rfl

theorem addSampler_asks (name : String) (dim : TextureDim) (arrayLen : Option UInt32) :
    Asks (addSampler name dim arrayLen) [.sampler name dim arrayLen] :=
  .single fun answer => by cases answer <;> rfl

theorem addBlock_asks (request : BlockRequest) :
    Asks (addBlock request) [.block request.name request.members] :=
  .single fun answer => by cases answer <;> rfl

end Setup

/-! ## The Library -/

/-- The block that a request asks for. -/
def BlockRequest.resource (request : BlockRequest) : Resource :=
  .block request.name request.members

/-- What an endpoint asks for. -/
def EndpointNode.resources : EndpointNode → List Resource
  | meshAttribute a => [.vertexAttribute a]
  | pushConstant constant => [.pushConstant constant.var.name constant.var.ty]
  | positionOutput _ => []
  | colorOutput target _ => [.color target]
  | producer channel _ => [.output channel.var]
  | consumer _ expected => [.input expected]

/-- What a texture node asks for. -/
def TextureNode.resources : TextureNode → List Resource
  | binding name arrayLen => [.sampler name .tex2d arrayLen]
  | sample .. => []

/-- What a light node asks for. -/
def LightNode.resources : LightNode → List Resource
  | lights max => [(LightArray.block max).resource]
  | shadowVertex max channel _ _ => [.output channel.var, (Shadow.block max).resource]
  | shadowFragment max _ _ => [(LightArray.block max).resource, .input (Shadow.interfaceVar max)]
  | lambert .. => []

/-- What a node of ambient occlusion asks for. -/
def OcclusionNode.resources : OcclusionNode → List Resource
  | uniforms inverse settings => [(OcclusionUniforms.block inverse settings).resource]
  | _ => []

/-- What a node of the library asks for. -/
def LibraryNode.resources : LibraryNode → List Resource
  | endpoint node => node.resources
  | arithmetic _ => []
  | camera => [CameraNode.block.resource]
  | texture node => node.resources
  | light node => node.resources
  | occlusion node => node.resources

/-- Only texture nodes ask for textures. -/
theorem eq_binding_of_sampler_mem {node : LibraryNode} {name : String} {dim : TextureDim}
    {arrayLen : Option UInt32} (h : .sampler name dim arrayLen ∈ node.resources) :
    node = .texture (.binding name arrayLen) ∧ dim = .tex2d := by
  cases node with
  | endpoint node => cases node <;> simp [LibraryNode.resources, EndpointNode.resources] at h
  | arithmetic node => cases h
  | camera => simp [LibraryNode.resources, BlockRequest.resource] at h
  | texture node =>
    cases node with
    | binding texture length =>
      obtain ⟨rfl, rfl, rfl⟩ : name = texture ∧ dim = .tex2d ∧ arrayLen = length := by
        simpa [LibraryNode.resources, TextureNode.resources] using h
      exact ⟨rfl, rfl⟩
    | sample premultiply texture texCoord => cases h
  | light node =>
    cases node <;> simp [LibraryNode.resources, LightNode.resources, BlockRequest.resource] at h
  | occlusion node =>
    cases node <;> simp [LibraryNode.resources, OcclusionNode.resources, BlockRequest.resource] at h

/-- The uniform blocks of the library, up to the lengths of arrays in them. -/
inductive LibraryBlock where
  /-- The matrices of the camera. -/
  | camera
  /-- An array of lights. -/
  | lights
  /-- The matrices of lights with shadows. -/
  | shadows
  /-- The uniforms of ambient occlusion. -/
  | occlusion (inverse : Bool)
deriving DecidableEq

namespace LibraryBlock

/-- Name of the block. -/
def name : LibraryBlock → String
  | camera => CameraNode.block.name
  | lights => (LightArray.block 0).name
  | shadows => (Shadow.block 0).name
  | occlusion inverse => (OcclusionUniforms.block inverse 0).name

/-- Names of its members. -/
def memberNames : LibraryBlock → List String
  | camera => CameraNode.block.members.map (·.name)
  | lights => (LightArray.block 0).members.map (·.name)
  | shadows => (Shadow.block 0).members.map (·.name)
  | occlusion inverse => (OcclusionUniforms.block inverse 0).members.map (·.name)

/-- All blocks. -/
def all : List LibraryBlock := [camera, lights, shadows, occlusion false, occlusion true]

theorem mem_all (block : LibraryBlock) : block ∈ all := by
  cases block with
  | camera | lights | shadows => decide
  | occlusion inverse => cases inverse <;> decide

end LibraryBlock

/-- The block that a node asks for. -/
def LibraryNode.block? : LibraryNode → Option LibraryBlock
  | camera => some .camera
  | light (.lights _) | light (.shadowFragment ..) => some .lights
  | light (.shadowVertex ..) => some .shadows
  | occlusion (.uniforms inverse _) => some (.occlusion inverse)
  | _ => none

theorem LibraryNode.eq_camera {node : LibraryNode} (h : node.block? = some .camera) :
    node = .camera := by
  unfold block? at h
  split at h <;> first | rfl | cases h

theorem LibraryNode.eq_uniforms {node : LibraryNode} {inverse : Bool}
    (h : node.block? = some (.occlusion inverse)) :
    ∃ settings, node = .occlusion (.uniforms inverse settings) := by
  unfold block? at h
  split at h <;> cases h
  exact ⟨_, rfl⟩

/-- A block that a node asks for is its block of the library. -/
theorem LibraryNode.block?_of_mem {node : LibraryNode} {name : String} {members : List Variable}
    (h : .block name members ∈ node.resources) :
    ∃ block, node.block? = some block ∧ name = block.name ∧
      members.map (·.name) = block.memberNames := by
  cases node with
  | endpoint node => cases node <;> simp [resources, EndpointNode.resources] at h
  | arithmetic node => cases h
  | camera =>
    cases List.mem_singleton.1 h
    exact ⟨.camera, rfl, rfl, rfl⟩
  | texture node => cases node <;> simp [resources, TextureNode.resources] at h
  | light node =>
    cases node with
    | lights max =>
      cases List.mem_singleton.1 h
      exact ⟨.lights, rfl, rfl, rfl⟩
    | shadowVertex max channel position matrix =>
      rcases List.mem_pair.1 h with h | h <;> cases h
      exact ⟨.shadows, rfl, rfl, rfl⟩
    | shadowFragment max channel depthTextures =>
      rcases List.mem_pair.1 h with h | h <;> cases h
      exact ⟨.lights, rfl, rfl, rfl⟩
    | lambert calls inner lightCount fragPos normal albedo => cases h
  | occlusion node =>
    cases node with
    | uniforms inverse settings =>
      cases List.mem_singleton.1 h
      exact ⟨.occlusion inverse, rfl, rfl, rfl⟩
    | unproject u depth screenPos => cases h
    | occlusion u component noiseTex depthTex screenPos origin normal => cases h

theorem EndpointNode.setup_asks (node : EndpointNode) : Setup.Asks node.setup node.resources := by
  cases node with
  | meshAttribute a => exact Setup.bindAttribute_asks a
  | pushConstant constant => exact Setup.addPushConstant_asks constant
  | positionOutput input => rfl
  | colorOutput target input => exact Setup.addColorOutput_asks target
  | producer channel input => exact Setup.allocateChannel_asks channel
  | consumer channel expected => exact Setup.registerChannelInput_asks channel expected

theorem ArithmeticNode.setup_asks (node : ArithmeticNode) : Setup.Asks node.setup [] := by
  cases node with
  | split channels kind input =>
    -- Channels are checked, which asks for nothing.
    rw [ArithmeticNode.setup]
    cases Swizzle.validate input.value.ty channels with
    | ok value => rfl
    | error error => trivial
  | screenQuad | combine | math | normalize | gamma | transform => rfl

theorem LightNode.setup_asks (node : LightNode) : Setup.Asks node.setup node.resources := by
  cases node with
  | lights max => exact Setup.addBlock_asks (LightArray.block max)
  | shadowVertex max channel position matrix =>
    cases matrix with
    | none => trivial
    | some matrix =>
      exact (Setup.allocateChannel_asks channel).bind (Setup.addBlock_asks (Shadow.block max))
  | shadowFragment max channel depthTextures =>
    exact (Setup.addBlock_asks (LightArray.block max)).bind
      (Setup.registerChannelInput_asks channel (Shadow.interfaceVar max))
  | lambert calls inner lightCount fragPos normal albedo => rfl

theorem OcclusionNode.setup_asks (node : OcclusionNode) :
    Setup.Asks node.setup node.resources := by
  cases node with
  | uniforms inverse settings =>
    exact Setup.addBlock_asks (OcclusionUniforms.block inverse settings)
  | unproject u depth screenPos =>
    rw [OcclusionNode.setup]
    split
    · rfl
    · trivial
  | occlusion u component noiseTex depthTex screenPos origin normal => rfl

theorem LibraryNode.setup_asks (node : LibraryNode) : Setup.Asks node.setup node.resources := by
  cases node with
  | endpoint node => exact node.setup_asks
  | arithmetic node => exact node.setup_asks
  | camera => exact Setup.addBlock_asks CameraNode.block
  | texture node =>
    cases node with
    | binding name arrayLen => exact Setup.addSampler_asks name .tex2d arrayLen
    | sample premultiply texture texCoord => rfl
  | light node => exact node.setup_asks
  | occlusion node => exact node.setup_asks

/-! ## Setting Stages Up -/

/-- A compiled stage was set up from an empty registry. -/
theorem exists_setupSteps_of_compile {m : Model} {input : CompileInput} {shader : Shader}
    (h : (m.compile input).outcome = .ok shader) (stage : Stage) :
    ∃ p finish, Performed m input p (m.setupSteps stage) finish ∧
      (∀ resource, ¬ ((p.enter stage).registry stage).Holds resource) ∧
      finish.registry stage = (shader.program stage).registry := by
  obtain ⟨finish, hperformed, rfl⟩ := performed_of_compile h
  obtain ⟨declared, hdeclare, hemit⟩ := performed_append_iff.1 hperformed
  obtain ⟨setUp, hsetup, hrest⟩ := performed_append_iff.1 hdeclare
  obtain ⟨vertexSetUp, hvertex, hfragment⟩ := performed_append_iff.1 hsetup
  -- What comes after the setups leaves both registries alone.
  obtain ⟨-, hupdate⟩ := performed_link hrest
  obtain ⟨updated, hupdateVertex, hupdateFragment⟩ := performed_append_iff.1 hupdate
  obtain rfl := performed_updates hupdateVertex
  obtain rfl := performed_updates hupdateFragment
  obtain ⟨emitted, hemitVertex, hemitFragment⟩ := performed_append_iff.1 hemit
  obtain ⟨vertexCode, vertexDeclared, rfl⟩ := performed_emits hemitVertex
  obtain ⟨fragmentCode, fragmentDeclared, rfl⟩ := performed_emits hemitFragment
  cases stage with
  | vertex =>
    -- Nor does the setup of the fragment stage touch the registry of the vertex stage.
    obtain ⟨registry, rfl⟩ := performed_setupSteps hfragment
    exact ⟨_, _, hvertex, fun resource => Registry.not_holds rfl rfl rfl rfl rfl rfl rfl, rfl⟩
  | fragment =>
    exact ⟨_, _, hfragment, fun resource => Registry.not_holds rfl rfl rfl rfl rfl rfl rfl, rfl⟩

section Library

variable {name : String} {graph : Stage → Nat} {nodes : Stage → List LibraryNode} {stage : Stage}
  {input : CompileInput}

/-- The setup of the node at a position gains what the node asks for. -/
theorem setupOutcome_gains {r r' : Registry} {index : Nat} {node : LibraryNode}
    (hnode : (nodes stage)[index]? = some node)
    (h : ((libraryModel name graph nodes).graph stage).setupOutcome r index = .ok r') :
    r.Gains node.resources r' := by
  unfold StageGraph.setupOutcome at h
  rw [getElem?_libraryModel_of_eq_some name graph hnode] at h
  simp only at h
  split at h
  · rename_i state hrun
    cases h
    exact Setup.run_resources node.setup_asks hrun
  · cases h
  · cases h

/-- Setups gain what the nodes at their positions ask for. -/
theorem setups_gain {p finish : Progress} {positions : List Nat}
    (hpositions : ∀ index ∈ positions, ∃ node, (nodes stage)[index]? = some node)
    (h : Performed (libraryModel name graph nodes) input p (callSteps (.setup stage) positions)
      finish) :
    (p.registry stage).Gains
      (positions.flatMap fun index => ((nodes stage)[index]?.map (·.resources)).getD [])
      (finish.registry stage) := by
  induction positions generalizing p with
  | nil =>
    cases h
    exact .refl _
  | cons index rest ih =>
    obtain ⟨reached, hfirst, hrest⟩ := performed_cons_iff.1 h
    obtain ⟨node, hnode⟩ := hpositions index List.mem_cons_self
    have hlater := ih (fun i hi => hpositions i (List.mem_cons_of_mem index hi)) hrest
    simp only [CompileStep.perform] at hfirst
    split at hfirst
    · rename_i registry hsetup
      cases hfirst
      rw [Progress.registry_withRegistry] at hlater
      rw [List.flatMap_cons, hnode]
      exact (setupOutcome_gains hnode hsetup).trans hlater
    · cases hfirst

/-- An order names the position of every node. -/
theorem mem_order_of_getElem? {order : List Nat} {index : Nat} {node : LibraryNode}
    (hschedule : ((libraryModel name graph nodes).graph stage).schedule = .ok order)
    (hnode : (nodes stage)[index]? = some node) : index ∈ order := by
  rw [(StageGraph.schedule_perm hschedule).mem_iff, List.mem_range]
  exact (List.getElem?_eq_some_iff.1 (getElem?_libraryModel_of_eq_some name graph hnode)).1

/-- In a compiled shader, a stage has registered what its nodes ask for, and nothing else. -/
theorem resources_of_compile {shader : Shader}
    (h : ((libraryModel name graph nodes).compile input).outcome = .ok shader) (stage : Stage)
    (resource : Resource) :
    (shader.program stage).registry.Holds resource ↔
      ∃ node ∈ nodes stage, resource ∈ node.resources := by
  obtain ⟨p, finish, hperformed, hempty, hregistry⟩ := exists_setupSteps_of_compile h stage
  have hschedule := schedule_of_performed hperformed
  have hnode : ∀ index ∈ (libraryModel name graph nodes).order stage,
      ∃ node, (nodes stage)[index]? = some node :=
    fun index hindex => exists_node_of_mem_schedule hschedule hindex
  obtain ⟨entered, hcheck, hperformed⟩ := performed_cons_iff.1 hperformed
  obtain ⟨ordered, hordered, hsetups⟩ := performed_cons_iff.1 hperformed
  simp only [CompileStep.perform] at hcheck hordered
  split at hcheck <;> cases hcheck
  split at hordered <;> cases hordered
  rw [← hregistry, setups_gain hnode hsetups resource, or_iff_right (hempty resource),
    List.mem_flatMap]
  constructor
  · rintro ⟨index, hindex, hmem⟩
    obtain ⟨node, hget⟩ := hnode index hindex
    rw [hget] at hmem
    exact ⟨node, List.mem_of_getElem? hget, hmem⟩
  · rintro ⟨node, hmem, hresource⟩
    obtain ⟨index, hget⟩ := List.mem_iff_getElem?.1 hmem
    refine ⟨index, mem_order_of_getElem? hschedule hget, ?_⟩
    rw [hget]
    exact hresource

/-- The nodes of a compiled stage may stand there. -/
theorem allowed_of_compile {shader : Shader}
    (h : ((libraryModel name graph nodes).compile input).outcome = .ok shader)
    {node : LibraryNode} (hmem : node ∈ nodes stage) :
    node.allowed.intersects stage.mask = true := by
  obtain ⟨p, finish, hperformed, -, -⟩ := exists_setupSteps_of_compile h stage
  obtain ⟨entered, hcheck, -⟩ := performed_cons_iff.1 hperformed
  simp only [CompileStep.perform] at hcheck
  split at hcheck
  · rename_i hchecked
    obtain ⟨index, hget⟩ := List.mem_iff_getElem?.1 hmem
    have hnode := List.mem_of_getElem? (getElem?_libraryModel_of_eq_some name graph hget)
    have hallowed := forM_eq_ok hchecked _ hnode
    rw [Model.graph_stage] at hallowed
    split at hallowed
    · assumption
    · cases hallowed
  · cases hcheck

/-- The stages that a resource can stand in: attributes and interface outputs in the vertex stage,
interface inputs and color outputs in the fragment stage, and all others in both. -/
def Resource.Belongs (stage : Stage) : Resource → Prop
  | .vertexAttribute _ | .output _ => stage = .vertex
  | .input _ | .color _ => stage = .fragment
  | _ => True

theorem eq_vertex_of_intersects (h : StageMask.vertex.intersects stage.mask = true) :
    stage = .vertex := by
  cases stage with
  | vertex => rfl
  | fragment => exact absurd h (by decide)

theorem eq_fragment_of_intersects (h : StageMask.fragment.intersects stage.mask = true) :
    stage = .fragment := by
  cases stage with
  | vertex => exact absurd h (by decide)
  | fragment => rfl

/-- A node asks only for what its stages can have. -/
theorem LibraryNode.belongs {node : LibraryNode} {resource : Resource}
    (hallowed : node.allowed.intersects stage.mask = true) (hmem : resource ∈ node.resources) :
    resource.Belongs stage := by
  cases node with
  | endpoint node =>
    cases node with
    | meshAttribute a =>
      obtain rfl := List.mem_singleton.1 hmem
      exact eq_vertex_of_intersects hallowed
    | pushConstant constant =>
      obtain rfl := List.mem_singleton.1 hmem
      trivial
    | positionOutput input => cases hmem
    | colorOutput target input =>
      obtain rfl := List.mem_singleton.1 hmem
      exact eq_fragment_of_intersects hallowed
    | producer channel input =>
      obtain rfl := List.mem_singleton.1 hmem
      exact eq_vertex_of_intersects hallowed
    | consumer channel expected =>
      obtain rfl := List.mem_singleton.1 hmem
      exact eq_fragment_of_intersects hallowed
  | arithmetic node => cases hmem
  | camera =>
    obtain rfl := List.mem_singleton.1 hmem
    trivial
  | texture node =>
    cases node with
    | binding texture arrayLen =>
      obtain rfl := List.mem_singleton.1 hmem
      trivial
    | sample premultiply texture texCoord => cases hmem
  | light node =>
    cases node with
    | lights max =>
      obtain rfl := List.mem_singleton.1 hmem
      trivial
    | shadowVertex max channel position matrix =>
      -- The half in the vertex stage asks for an interface output and for a block.
      rcases List.mem_pair.1 hmem with rfl | rfl
      · exact eq_vertex_of_intersects hallowed
      · trivial
    | shadowFragment max channel depthTextures =>
      rcases List.mem_pair.1 hmem with rfl | rfl
      · trivial
      · exact eq_fragment_of_intersects hallowed
    | lambert calls inner lightCount fragPos normal albedo => cases hmem
  | occlusion node =>
    cases node with
    | uniforms inverse settings =>
      obtain rfl := List.mem_singleton.1 hmem
      trivial
    | unproject u depth screenPos => cases hmem
    | occlusion u component noiseTex depthTex screenPos origin normal => cases hmem

theorem belongs_of_compile {shader : Shader}
    (h : ((libraryModel name graph nodes).compile input).outcome = .ok shader)
    {resource : Resource} (hmem : (shader.program stage).registry.Holds resource) :
    resource.Belongs stage := by
  obtain ⟨node, hnode, hresource⟩ := (resources_of_compile h stage resource).1 hmem
  exact node.belongs (allowed_of_compile h hnode) hresource

end Library

end ShaderWeave
