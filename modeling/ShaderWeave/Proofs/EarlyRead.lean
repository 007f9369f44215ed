import ShaderWeave.Node.Library
import ShaderWeave.Proofs.TwoPass

/-!
# Early Reads

Reading a value before its owner declared it is an error that only emissions make. Whatever the nodes
of the library register, and whatever is checked before the first emission, another error comes first.

## Main definitions

* `GraphError.EarlyRead`: the error that is left when the wrappers of nodes are taken off is an early
  read.
* `Setup.Sound`: a setup ends with no early read of its own, so that none comes from it.

## Main results

* `LibraryNode.setup_sound`: the setups of the library are sound.
* `not_earlyRead_of_perform`: a step that emits nothing does not fail with an early read.
-/

namespace ShaderWeave

/-- A value was read before its owner declared it. -/
def GraphError.EarlyRead (error : GraphError) : Prop :=
  ∃ value, error.root = .readBeforeDeclaration value

/-- The failure of a node is an early read. -/
def NodeFailure.EarlyRead : NodeFailure → Prop
  | refused error => error.EarlyRead
  | unknownInput => False

@[simp]
theorem GraphError.root_leaveNode (node : String) (stage : Stage) (error : GraphError) :
    (error.leaveNode node stage).root = error.root := by
  cases error <;> rfl

@[simp]
theorem NodeFailure.earlyRead_leaveNode (node : String) (stage : Stage) (failure : NodeFailure) :
    (failure.leaveNode node stage).EarlyRead ↔ failure.EarlyRead := by
  cases failure with
  | refused error => simp [leaveNode, EarlyRead, GraphError.EarlyRead]
  | unknownInput => exact Iff.rfl

/-- The failure of a compilation is an early read. -/
def CompileFailure.EarlyRead : CompileFailure → Prop
  | graph error => error.EarlyRead
  | _ => False

@[simp]
theorem CompileFailure.earlyRead_ofNode (failure : NodeFailure) :
    (CompileFailure.ofNode failure).EarlyRead ↔ failure.EarlyRead := by
  cases failure <;> exact Iff.rfl

/-! ## Registrations -/

/-- An operation is not refused because of an early read. -/
def RefusesSoundly {α : Type} (operation : Registering α) : Prop :=
  ∀ r error r', operation r = .error (.refused error) r' → ¬ error.EarlyRead

namespace Registry

theorem allocateOutput_sound (var : Variable) : RefusesSoundly (allocateOutput var) := by
  intro r error r' h
  unfold allocateOutput at h
  split at h
  · cases h
    simp [GraphError.EarlyRead, GraphError.root]
  · split at h <;> cases h

theorem registerInput_sound (slot : UInt32) (var : Variable) :
    RefusesSoundly (registerInput slot var) := by
  intro r error r' h
  unfold registerInput at h
  split at h
  · split at h <;> cases h
    simp [GraphError.EarlyRead, GraphError.root]
  · split at h <;> cases h
    simp [GraphError.EarlyRead, GraphError.root]

theorem addAttribute_sound (a : Attribute) : RefusesSoundly (addAttribute a) := by
  intro r error r' h
  unfold addAttribute at h
  split at h
  · split at h <;> cases h
    simp [GraphError.EarlyRead, GraphError.root]
  · split at h <;> cases h

theorem addColorOutput_sound (name : String) : RefusesSoundly (addColorOutput name) := by
  intro r error r' h
  unfold addColorOutput at h
  split at h <;> cases h
  simp [GraphError.EarlyRead, GraphError.root]

theorem addBlock_sound (request : BlockRequest) : RefusesSoundly (addBlock request) := by
  intro r error r' h
  unfold addBlock at h
  split at h
  · cases h
    simp [GraphError.EarlyRead, GraphError.root]
  · split at h
    · cases h
      simp [GraphError.EarlyRead, GraphError.root]
    · cases h
      simp [GraphError.EarlyRead, GraphError.root]
    · split at h <;> cases h

theorem addPushConstant_sound (constant : PushConstant) :
    RefusesSoundly (addPushConstant constant) := by
  intro r error r' h
  unfold addPushConstant at h
  split at h
  · cases h
    simp [GraphError.EarlyRead, GraphError.root]
  · split at h
    · cases h
      simp [GraphError.EarlyRead, GraphError.root]
    · split at h <;> cases h

theorem addSampler_sound (name : String) (dim : TextureDim) (arrayLen : Option UInt32) :
    RefusesSoundly (addSampler name dim arrayLen) := by
  intro r error r' h
  unfold addSampler at h
  split at h
  · cases h
    simp [GraphError.EarlyRead, GraphError.root]
  · split at h <;> cases h

theorem allocateChannel_sound (channel : Channel) : RefusesSoundly (allocateChannel channel) := by
  intro r error r' h
  unfold allocateChannel at h
  split at h
  · cases h
    simp [GraphError.EarlyRead, GraphError.root]
  · split at h
    · rename_i hallocate
      cases h
      exact allocateOutput_sound _ _ _ _ hallocate
    · cases h

theorem channelSlot_sound (channel : Channel) : RefusesSoundly (channelSlot channel) := by
  intro r error r' h
  unfold channelSlot at h
  split at h <;> cases h
  simp [GraphError.EarlyRead, GraphError.root]

theorem registerChannelInput_sound (channel : Channel) (expected : Variable) :
    RefusesSoundly (registerChannelInput channel expected) := by
  intro r error r' h
  unfold registerChannelInput at h
  split at h
  · rename_i hslot
    cases h
    exact channelSlot_sound _ _ _ _ hslot
  · split at h
    · rename_i hregister
      cases h
      exact registerInput_sound _ _ _ _ _ hregister
    · cases h

end Registry

/-! ## Setups -/

/-- The error by which a request is refused. -/
def SetupCall.refusal? : (request : SetupCall) → request.Answer → Option GraphError
  | bindAttribute _, .error error => some error
  | addColorOutput _, .error error => some error
  | allocateOutput _, .error error => some error
  | registerInput .., .error error => some error
  | allocateChannel _, .error error => some error
  | channelSlot _, .error error => some error
  | registerChannelInput .., .error error => some error
  | addPushConstant _, .error error => some error
  | addSampler .., .error error => some error
  | addBlock _, .error error => some error
  | _, _ => none

/-- A refusal is passed on as an answer. -/
theorem register_refusal {α : Type} {operation : Registering α} {state state' : SetupState}
    {error : GraphError} (hoperation : RefusesSoundly operation)
    (h : SetupState.register operation state = .ok (.error error) state') : ¬ error.EarlyRead := by
  unfold SetupState.register at h
  split at h
  · cases h
  · rename_i hrefused
    cases h
    exact hoperation _ _ _ hrefused
  · cases h

/-- No request is refused because of an early read. -/
theorem answer_refusal {request : SetupCall} {answer : request.Answer} {state state' : SetupState}
    {error : GraphError} (h : SetupState.answer request state = .ok answer state')
    (hrefusal : request.refusal? answer = some error) : ¬ error.EarlyRead := by
  cases request with
  | note note => cases hrefusal
  | bindAttribute a =>
    cases answer <;> cases hrefusal
    exact register_refusal (Registry.addAttribute_sound a) h
  | addColorOutput name =>
    cases answer <;> cases hrefusal
    exact register_refusal (Registry.addColorOutput_sound name) h
  | allocateOutput var =>
    cases answer <;> cases hrefusal
    exact register_refusal (Registry.allocateOutput_sound var) h
  | registerInput slot var =>
    cases answer <;> cases hrefusal
    exact register_refusal (Registry.registerInput_sound slot var) h
  | allocateChannel channel =>
    cases answer <;> cases hrefusal
    exact register_refusal (Registry.allocateChannel_sound channel) h
  | channelSlot channel =>
    cases answer <;> cases hrefusal
    exact register_refusal (Registry.channelSlot_sound channel) h
  | registerChannelInput channel expected =>
    cases answer <;> cases hrefusal
    exact register_refusal (Registry.registerChannelInput_sound channel expected) h
  | addPushConstant constant =>
    cases answer <;> cases hrefusal
    exact register_refusal (Registry.addPushConstant_sound constant) h
  | addSampler name dim arrayLen =>
    cases answer <;> cases hrefusal
    exact register_refusal (Registry.addSampler_sound name dim arrayLen) h
  | addBlock request =>
    cases answer <;> cases hrefusal
    exact register_refusal (Registry.addBlock_sound request) h

theorem register_error {α : Type} {operation : Registering α} {state state' : SetupState}
    {failure : RegisterFailure} (h : SetupState.register operation state = .error failure state') :
    failure = .overflow := by
  unfold SetupState.register at h
  split at h <;> cases h
  rfl

/-- Only an overflow ends a setup in the middle of a request. -/
theorem answer_error {request : SetupCall} {state state' : SetupState} {failure : RegisterFailure}
    (h : SetupState.answer request state = .error failure state') : failure = .overflow := by
  cases request with
  | note note => cases h
  | bindAttribute | addColorOutput | allocateOutput | registerInput | allocateChannel | channelSlot
  | registerChannelInput | addPushConstant | addSampler | addBlock => exact register_error h

/-- As long as no request is refused because of an early read, a setup does not end with one. -/
def Setup.Sound : Setup Unit → Prop
  | .done _ => True
  | .fail error => ¬ error.EarlyRead
  | .call request next =>
    ∀ answer, (∀ error, request.refusal? answer = some error → ¬ error.EarlyRead) →
      Setup.Sound (next answer)

/-- A sound setup does not end with an early read. -/
theorem Setup.Sound.run {setup : Setup Unit} {state state' : SetupState} {error : GraphError}
    (hsound : Setup.Sound setup) (h : Setup.run setup state = .error (.refused error) state') :
    ¬ error.EarlyRead := by
  induction setup generalizing state with
  | done value => cases h
  | fail failure =>
    cases h
    exact hsound
  | call request next ih =>
    rw [Setup.run_call, EStateM.bind] at h
    cases hanswer : SetupState.answer request state with
    | ok answer middle =>
      rw [hanswer] at h
      exact ih answer (hsound answer fun error hrefusal => answer_refusal hanswer hrefusal) h
    | error failure middle =>
      -- An answer fails only by overflow, which is not a refusal.
      rw [hanswer] at h
      cases h
      cases answer_error hanswer

namespace Setup

/-- One sound setup after another. -/
theorem Sound.bind {first : Setup Unit} {next : Unit → Setup Unit} (hfirst : Sound first)
    (hnext : Sound (next ())) : Sound (first >>= next) := by
  induction first with
  | done value => exact hnext
  | fail error => exact hfirst
  | call request rest ih =>
    intro answer hanswer
    exact ih answer (hfirst answer hanswer)

theorem checked_sound {answer : Except GraphError UInt32}
    (h : ∀ error, answer = .error error → ¬ error.EarlyRead) : Sound (checked answer) := by
  cases answer with
  | ok value => trivial
  | error error => exact h error rfl

theorem bindAttribute_sound (a : Attribute) : Sound (bindAttribute a) :=
  fun _ hanswer => checked_sound fun error h => hanswer error (by rw [h]; rfl)

theorem addColorOutput_sound (name : String) : Sound (addColorOutput name) :=
  fun _ hanswer => checked_sound fun error h => hanswer error (by rw [h]; rfl)

theorem allocateChannel_sound (channel : Channel) : Sound (allocateChannel channel) :=
  fun _ hanswer => checked_sound fun error h => hanswer error (by rw [h]; rfl)

theorem registerChannelInput_sound (channel : Channel) (expected : Variable) :
    Sound (registerChannelInput channel expected) :=
  fun _ hanswer => checked_sound fun error h => hanswer error (by rw [h]; rfl)

theorem addPushConstant_sound (constant : PushConstant) : Sound (addPushConstant constant) :=
  fun _ hanswer => checked_sound fun error h => hanswer error (by rw [h]; rfl)

theorem addSampler_sound (name : String) (dim : TextureDim) (arrayLen : Option UInt32) :
    Sound (addSampler name dim arrayLen) :=
  fun _ hanswer => checked_sound fun error h => hanswer error (by rw [h]; rfl)

theorem addBlock_sound (request : BlockRequest) : Sound (addBlock request) :=
  fun _ hanswer => checked_sound fun error h => hanswer error (by rw [h]; rfl)

end Setup

/-- Channels that select nothing are not an early read. -/
theorem validate_sound (ty : ValueType) (channels : String) :
    Setup.Sound (Routine.ofExcept (Swizzle.validate ty channels)) := by
  have hinvalid : ¬ (GraphError.invalidSwizzle channels).EarlyRead := by
    simp [GraphError.EarlyRead, GraphError.root]
  unfold Swizzle.validate
  split
  · exact hinvalid
  · split
    · exact hinvalid
    · split
      · trivial
      · exact hinvalid

/-- An input that is not wired is not an early read. -/
theorem not_earlyRead_unconnectedInput (input : String) :
    ¬ (GraphError.unconnectedInput input).EarlyRead := by
  simp [GraphError.EarlyRead, GraphError.root]

/-- The setups of the library are sound. -/
theorem LibraryNode.setup_sound (node : LibraryNode) : Setup.Sound node.setup := by
  cases node with
  | endpoint node =>
    cases node with
    | meshAttribute a => exact Setup.bindAttribute_sound a
    | pushConstant constant => exact Setup.addPushConstant_sound constant
    | positionOutput input => trivial
    | colorOutput target input => exact Setup.addColorOutput_sound target
    | producer channel input => exact Setup.allocateChannel_sound channel
    | consumer channel expected => exact Setup.registerChannelInput_sound channel expected
  | arithmetic node =>
    cases node with
    | split channels kind input => exact validate_sound input.value.ty channels
    | screenQuad | combine | math | normalize | gamma | transform => trivial
  | camera => exact Setup.addBlock_sound CameraNode.block
  | texture node =>
    cases node with
    | binding name arrayLen => exact Setup.addSampler_sound name .tex2d arrayLen
    | sample premultiply texture texCoord => trivial
  | light node =>
    cases node with
    | lights max => exact Setup.addBlock_sound (LightArray.block max)
    | shadowVertex max channel position matrix =>
      cases matrix with
      | none =>
        -- The setup refuses a missing matrix before it registers anything.
        exact not_earlyRead_unconnectedInput "model_matrix"
      | some matrix =>
        exact (Setup.allocateChannel_sound channel).bind (Setup.addBlock_sound (Shadow.block max))
    | shadowFragment max channel depthTextures =>
      exact (Setup.addBlock_sound (LightArray.block max)).bind
        (Setup.registerChannelInput_sound channel (Shadow.interfaceVar max))
    | lambert calls inner lightCount fragPos normal albedo => trivial
  | occlusion node =>
    cases node with
    | uniforms inverse settings =>
      exact Setup.addBlock_sound (OcclusionUniforms.block inverse settings)
    | unproject u depth screenPos =>
      cases hinverse : u.inverse with
      | true => simp [setup, OcclusionNode.setup, hinverse, Setup.Sound]
      | false =>
        simp only [setup, OcclusionNode.setup, hinverse, Bool.false_eq_true, ↓reduceIte]
        exact not_earlyRead_unconnectedInput "uInvProj"
    | occlusion u component noiseTex depthTex screenPos origin normal => trivial

/-! ## Steps Before the Emissions -/

/-- The only thing that is wrong with the stages of nodes is that one may not stand where it does. -/
theorem checkStages_error {g : StageGraph} {error : GraphError} (h : g.checkStages = .error error) :
    ∃ node stage, error = .stageNotAllowed node stage := by
  obtain ⟨node, -, hnode⟩ := exists_mem_of_forM_eq_error h
  split at hnode <;> cases hnode
  exact ⟨_, _, rfl⟩

theorem not_earlyRead_of_checkStages {g : StageGraph} {error : GraphError}
    (h : g.checkStages = .error error) : ¬ error.EarlyRead := by
  obtain ⟨node, stage, rfl⟩ := checkStages_error h
  simp [GraphError.EarlyRead, GraphError.root]

/-- Why the dependencies of a node are no positions of its graph. -/
theorem dependenciesAt_error {g : StageGraph} {node : Node} {index : Nat} {failure : NodeFailure}
    (h : g.dependenciesAt node index = .error failure) :
    failure = .unknownInput ∨
      (∃ name stage other, failure = .refused (.crossStageDependency name stage other)) ∨
      ∃ name stage dependency, failure = .refused (.missingDependency name stage dependency) := by
  unfold StageGraph.dependenciesAt at h
  split at h
  · cases h
    exact .inl rfl
  · rename_i dependencies _
    cases hcheck : dependencies.mapM (g.checkDependency node index) with
    | ok positions =>
      rw [hcheck] at h
      cases h
    | error error =>
      rw [hcheck] at h
      cases h
      obtain ⟨dependency, -, herror⟩ := exists_mem_of_mapM_eq_error hcheck
      unfold StageGraph.checkDependency at herror
      split at herror
      · cases herror
        exact .inr (.inl ⟨_, _, _, rfl⟩)
      · split at herror <;> cases herror
        exact .inr (.inr ⟨_, _, _, rfl⟩)

/-- Why a stage has no order. -/
theorem schedule_error {g : StageGraph} {failure : NodeFailure} (h : g.schedule = .error failure) :
    failure = .unknownInput ∨
      (∃ name stage other, failure = .refused (.crossStageDependency name stage other)) ∨
      (∃ name stage dependency, failure = .refused (.missingDependency name stage dependency)) ∨
      ∃ name stage, failure = .refused (.dependencyCycle name stage) := by
  unfold StageGraph.schedule at h
  cases htable : g.dependencyTable with
  | error failure' =>
    rw [htable] at h
    cases h
    obtain ⟨⟨node, index⟩, -, hnode⟩ := exists_mem_of_mapM_eq_error htable
    rcases dependenciesAt_error hnode with hunknown | hcross | hmissing
    · exact .inl hunknown
    · exact .inr (.inl hcross)
    · exact .inr (.inr (.inl hmissing))
  | ok table =>
    rw [htable] at h
    cases horder : generationOrder table with
    | ok order => simp [horder, Bind.bind, Except.bind] at h
    | error node =>
      simp only [Bind.bind, Except.bind, horder] at h
      cases h
      exact .inr (.inr (.inr ⟨_, _, rfl⟩))

/-- A stage that has no order does not fail with an early read. -/
theorem not_earlyRead_of_schedule {g : StageGraph} {failure : NodeFailure}
    (h : g.schedule = .error failure) : ¬ failure.EarlyRead := by
  rcases schedule_error h with rfl | ⟨_, _, _, rfl⟩ | ⟨_, _, _, rfl⟩ | ⟨_, _, rfl⟩ <;>
    simp [NodeFailure.EarlyRead, GraphError.EarlyRead, GraphError.root]

/-- Why two interfaces do not match. -/
theorem verifyLink_error {producer consumer : Registry} {error : GraphError}
    (h : verifyLink producer consumer = .error error) :
    (∃ name slot, error = .unmatchedInterfaceInput name slot) ∨
      ∃ slot input output, error = .interfaceMismatch slot input output := by
  obtain ⟨input, -, hinput⟩ := exists_mem_of_forM_eq_error h
  split at hinput
  · cases hinput
    exact .inl ⟨_, _, rfl⟩
  · split at hinput <;> cases hinput
    exact .inr ⟨_, _, _, rfl⟩

theorem not_earlyRead_of_verifyLink {producer consumer : Registry} {error : GraphError}
    (h : verifyLink producer consumer = .error error) : ¬ error.EarlyRead := by
  rcases verifyLink_error h with ⟨_, _, rfl⟩ | ⟨_, _, _, rfl⟩ <;>
    simp [GraphError.EarlyRead, GraphError.root]

theorem not_earlyRead_of_updateOutcome {parameters : ParameterStore} {blocks : List RegisteredBlock}
    {index : Nat} {failure : CompileFailure}
    (h : updateOutcome parameters blocks index = .error failure) : ¬ failure.EarlyRead := by
  unfold updateOutcome at h
  split at h
  · cases h
  · split at h
    · cases h
      exact id
    · split at h <;> cases h
      simp [CompileFailure.EarlyRead, GraphError.EarlyRead, GraphError.root]

theorem not_earlyRead_of_setupOutcome {g : StageGraph} {registry : Registry} {index : Nat}
    {failure : CompileFailure} (hsound : ∀ node ∈ g.nodes, Setup.Sound node.setup)
    (h : g.setupOutcome registry index = .error failure) : ¬ failure.EarlyRead := by
  unfold StageGraph.setupOutcome at h
  split at h
  · cases h
  · rename_i node hnode
    split at h
    · cases h
    · rename_i error state hrun
      cases h
      have hearly := (hsound node (List.mem_of_getElem? hnode)).run hrun
      simpa [CompileFailure.EarlyRead, GraphError.EarlyRead] using hearly
    · cases h
      exact id

/-- Where setups are sound, a step that emits nothing does not fail with an early read. -/
theorem not_earlyRead_of_perform {m : Model} {input : CompileInput} {p : Progress}
    {step : CompileStep} {failure : CompileFailure}
    (hsound : ∀ stage, ∀ node ∈ (m.graph stage).nodes, Setup.Sound node.setup)
    (hstep : ∀ stage index, step ≠ .call (.emit stage index))
    (h : step.perform m input p = .error failure) : ¬ failure.EarlyRead := by
  cases step with
  | checkStages stage =>
    simp only [CompileStep.perform] at h
    split at h
    · cases h
    · rename_i error hcheck
      cases h
      exact not_earlyRead_of_checkStages hcheck
  | schedule stage =>
    simp only [CompileStep.perform] at h
    split at h
    · cases h
    · rename_i failure' hschedule
      cases h
      rw [CompileFailure.earlyRead_ofNode]
      exact not_earlyRead_of_schedule hschedule
  | link =>
    simp only [CompileStep.perform] at h
    split at h
    · cases h
    · rename_i error hlink
      cases h
      exact not_earlyRead_of_verifyLink hlink
  | call made =>
    cases made with
    | setup stage index =>
      simp only [CompileStep.perform] at h
      split at h
      · cases h
      · rename_i failure' hsetup
        cases h
        exact not_earlyRead_of_setupOutcome (hsound stage) hsetup
    | update stage index =>
      simp only [CompileStep.perform] at h
      split at h
      · cases h
      · rename_i failure' hupdate
        cases h
        exact not_earlyRead_of_updateOutcome hupdate
    | emit stage index => exact absurd rfl (hstep stage index)

end ShaderWeave
