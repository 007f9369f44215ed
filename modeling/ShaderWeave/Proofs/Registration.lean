import Mathlib.Logic.Relation
import ShaderWeave.Proofs.TwoPass

/-!
# What Setups Do to a Registry

Whatever a node does in the setup pass, it changes the registry only by registrations. `Registration`
lists them, each with what is checked before it is made, so that what every registration keeps is kept
by every setup, by every stage and by the whole first pass.

## Main definitions

* `Registration r r'`: one registration brings the registry `r` to `r'`.
* `Registrations r r'`: any number of registrations do.

## Main results

* `answer_registrations`: answering a request of a node makes only registrations.
* `run_registrations`: so does the setup of a node.
* `compile_registrations`: what a compiled shader has registered comes about by registrations alone,
  from nothing in the vertex stage and from the shared counters and channels in the fragment stage.
-/

namespace ShaderWeave

/-- One registration. -/
inductive Registration (r : Registry) : Registry → Prop where
  /-- An interface output gets the next slot. -/
  | output (var : Variable) (nextSlot : UInt32) (hname : r.interfaceNameTaken var.name = false)
      (hnext : r.slotAfter? var = some nextSlot) :
      Registration r
        { r with outputs := r.outputs ++ [{ slot := r.nextSlot, var }], nextSlot }
  /-- A channel without a slot gets that of the last output, which carries its contract. -/
  | channel (channel : Channel) (slot : UInt32) (hfresh : r.channelSlot? channel = none)
      (hlast : r.outputs.getLast? = some { slot, var := channel.var }) :
      Registration r { r with channelSlots := (channel.id, slot) :: r.channelSlots }
  /-- An interface input is registered at a slot that no other input has. -/
  | input (slot : UInt32) (var : Variable) (hslot : r.inputs.find? (·.slot == slot) = none)
      (hname : r.interfaceNameTaken var.name = false) :
      Registration r { r with inputs := r.inputs ++ [{ slot, var }] }
  /-- A vertex attribute is bound to the next location. -/
  | vertexAttribute (a : Attribute) (nextLocation : UInt32)
      (hname : r.attributes.find? (·.name == a.name) = none)
      (hnext : Word.add? r.nextLocation a.ty.locationCount = some nextLocation) :
      Registration r
        { r with
          attributes := r.attributes ++ [{ a with location := r.nextLocation }], nextLocation }
  /-- A color output is added. -/
  | colorOutput (name : String) (hname : r.colorOutputs.any (·.name == name) = false) :
      Registration r
        { r with
          colorOutputs :=
            r.colorOutputs ++ [{ name, location := r.colorOutputs.length.toUInt32 }] }
  /-- A uniform block gets the next binding. -/
  | block (name : String) (members : List Variable) (update : UpdateRoutine) (layout : BlockLayout)
      (nextBinding : UInt32) (hname : r.bindingNameTaken name = false)
      (hmembers : Registry.firstRepeated [] members = none)
      (hlayout : BlockLayout.std140? members = some layout)
      (hnext : Word.add? r.nextBinding 1 = some nextBinding) :
      Registration r
        { r with
          blocks := r.blocks
            ++ [{ block := { name, stage := r.stage, binding := r.nextBinding, layout }, update }]
          nextBinding }
  /-- A push constant gets the next offset of its alignment. -/
  | pushConstant (constant : PushConstant) (align size offset finish : UInt32)
      (hname : r.bindingNameTaken constant.var.name = false)
      (hty : constant.var.ty.std430 = some (align, size))
      (hextent : r.pushConstantExtent? align size = some (offset, finish)) :
      Registration r
        { r with
          pushConstants := r.pushConstants
            ++ [{ slot := { name := constant.var.name, stage := r.stage, ty := constant.var.ty,
                            offset, size }
                  cell := constant.cell }]
          pushConstantSize := finish }
  /-- A sampled texture gets the next bindings. -/
  | sampler (name : String) (dim : TextureDim) (arrayLen : Option UInt32)
      (samplerBinding nextBinding : UInt32) (hname : r.bindingNameTaken name = false)
      (hbindings : r.samplerBindings? (arrayLen.getD 1) = some (samplerBinding, nextBinding)) :
      Registration r
        { r with
          samplers := r.samplers
            ++ [{ name, stage := r.stage, dim, arrayLen, binding := r.nextBinding,
                  samplerBinding }]
          nextBinding }

/-- Any number of registrations. -/
abbrev Registrations : Registry → Registry → Prop := Relation.ReflTransGen Registration

/-- What every registration keeps, any number of them keep. -/
theorem Registrations.keep {keeps : Registry → Prop} {r r' : Registry} (h : Registrations r r')
    (hstep : ∀ r r', Registration r r' → keeps r → keeps r') (hr : keeps r) : keeps r' := by
  induction h with
  | refl => exact hr
  | tail _ hlast ih => exact hstep _ _ hlast ih

/-! ## Operations on the Registry -/

namespace Registry

/-- An operation that succeeds makes only registrations, and one that fails leaves the registry as it
was. -/
def Registers {α : Type} (operation : Registering α) : Prop :=
  ∀ r, match operation r with
    | .ok _ r' => Registrations r r'
    | .error _ r' => r' = r

theorem allocateOutput_registers (var : Variable) : Registers (allocateOutput var) := by
  intro r
  unfold allocateOutput
  cases hname : r.interfaceNameTaken var.name with
  | true => rfl
  | false =>
    cases hnext : r.slotAfter? var with
    | none => rfl
    | some nextSlot => exact .single (.output var nextSlot hname hnext)

theorem registerInput_registers (slot : UInt32) (var : Variable) :
    Registers (registerInput slot var) := by
  intro r
  unfold registerInput
  cases hslot : r.inputs.find? (·.slot == slot) with
  | some existing =>
    -- The same variable once more registers nothing, another one at its slot is refused.
    by_cases hvar : existing.var = var
    · simp only [hvar, ↓reduceIte]
      exact .refl
    · simp only [hvar, ↓reduceIte]
  | none =>
    cases hname : r.interfaceNameTaken var.name with
    | true => rfl
    | false => exact .single (.input slot var hslot hname)

theorem addAttribute_registers (a : Attribute) : Registers (addAttribute a) := by
  intro r
  unfold addAttribute
  cases hname : r.attributes.find? (·.name == a.name) with
  | some existing =>
    by_cases hty : existing.ty = a.ty
    · simp only [hty, ↓reduceIte]
      exact .refl
    · simp only [hty, ↓reduceIte]
  | none =>
    cases hnext : Word.add? r.nextLocation a.ty.locationCount with
    | none => rfl
    | some nextLocation => exact .single (.vertexAttribute a nextLocation hname hnext)

theorem addColorOutput_registers (name : String) : Registers (addColorOutput name) := by
  intro r
  unfold addColorOutput
  cases hname : r.colorOutputs.any (·.name == name) with
  | true => rfl
  | false => exact .single (.colorOutput name hname)

theorem addBlock_registers (request : BlockRequest) : Registers (addBlock request) := by
  intro r
  unfold addBlock
  cases hname : r.bindingNameTaken request.name with
  | true => rfl
  | false =>
    cases hmembers : firstRepeated [] request.members with
    | some member => rfl
    | none =>
      cases hupdate : request.update with
      | none => rfl
      | some update =>
        cases hlayout : BlockLayout.std140? request.members with
        | none => rfl
        | some layout =>
          cases hnext : Word.add? r.nextBinding 1 with
          | none => rfl
          | some nextBinding =>
            exact .single (.block request.name request.members update layout nextBinding hname
              hmembers hlayout hnext)

theorem addPushConstant_registers (constant : PushConstant) :
    Registers (addPushConstant constant) := by
  intro r
  unfold addPushConstant
  cases hname : r.bindingNameTaken constant.var.name with
  | true => rfl
  | false =>
    cases hty : constant.var.ty.std430 with
    | none => rfl
    | some extent =>
      obtain ⟨align, size⟩ := extent
      cases hextent : r.pushConstantExtent? align size with
      | none => simp only [hextent, Bool.false_eq_true, ↓reduceIte]
      | some placed =>
        obtain ⟨offset, finish⟩ := placed
        simp only [hextent, Bool.false_eq_true, ↓reduceIte]
        exact .single (.pushConstant constant align size offset finish hname hty hextent)

theorem addSampler_registers (name : String) (dim : TextureDim) (arrayLen : Option UInt32) :
    Registers (addSampler name dim arrayLen) := by
  intro r
  unfold addSampler
  cases hname : r.bindingNameTaken name with
  | true => rfl
  | false =>
    cases hbindings : r.samplerBindings? (arrayLen.getD 1) with
    | none => rfl
    | some bindings =>
      obtain ⟨samplerBinding, nextBinding⟩ := bindings
      exact .single (.sampler name dim arrayLen samplerBinding nextBinding hname hbindings)

/-- The channel gets the slot of the output that is allocated for it. -/
theorem allocateChannel_registers (channel : Channel) : Registers (allocateChannel channel) := by
  intro r
  unfold allocateChannel allocateOutput
  cases hfresh : r.channelSlot? channel with
  | some slot => rfl
  | none =>
    cases hname : r.interfaceNameTaken channel.var.name with
    | true => rfl
    | false =>
      cases hnext : r.slotAfter? channel.var with
      | none => simp only [Bool.false_eq_true, ↓reduceIte]
      | some nextSlot =>
        simp only [Bool.false_eq_true, ↓reduceIte]
        -- Two registrations: the output, and then the channel, whose slot is that of the last output.
        have hallocated : Registration r
            { r with
              outputs := r.outputs ++ [{ slot := r.nextSlot, var := channel.var }], nextSlot } :=
          .output channel.var nextSlot hname hnext
        exact (Relation.ReflTransGen.single hallocated).tail
          (.channel channel r.nextSlot hfresh List.getLast?_concat)

theorem channelSlot_registers (channel : Channel) : Registers (channelSlot channel) := by
  intro r
  unfold channelSlot
  cases r.channelSlot? channel with
  | none => rfl
  | some slot => exact .refl

theorem registerChannelInput_registers (channel : Channel) (expected : Variable) :
    Registers (registerChannelInput channel expected) := by
  intro r
  unfold registerChannelInput channelSlot
  cases r.channelSlot? channel with
  | none => rfl
  | some slot =>
    have hinput := registerInput_registers slot expected r
    cases hregister : registerInput slot expected r with
    | ok value r' =>
      rw [hregister] at hinput
      simpa only [hregister] using hinput
    | error failure r' =>
      rw [hregister] at hinput
      simpa only [hregister] using hinput

end Registry

/-! ## Setups -/

/-- What is registered for a request, refused or not, is registered by registrations. -/
theorem register_registrations {α : Type} {operation : Registering α} {state state' : SetupState}
    {value : Except GraphError α} (hoperation : Registry.Registers operation)
    (h : SetupState.register operation state = .ok value state') :
    Registrations state.registry state'.registry := by
  have hresult := hoperation state.registry
  unfold SetupState.register at h
  cases hrun : operation state.registry with
  | ok value r' =>
    rw [hrun] at h hresult
    cases h
    exact hresult
  | error failure r' =>
    rw [hrun] at h hresult
    subst hresult
    cases failure with
    | refused error =>
      -- The node sees the refusal as an answer and goes on with the registry as it was.
      cases h
      exact .refl
    | overflow => cases h

/-- Answering a request makes only registrations. -/
theorem answer_registrations {request : SetupCall} {state state' : SetupState}
    {value : request.Answer} (h : SetupState.answer request state = .ok value state') :
    Registrations state.registry state'.registry := by
  cases request with
  | bindAttribute a => exact register_registrations (Registry.addAttribute_registers a) h
  | addColorOutput name => exact register_registrations (Registry.addColorOutput_registers name) h
  | allocateOutput var => exact register_registrations (Registry.allocateOutput_registers var) h
  | registerInput slot var =>
    exact register_registrations (Registry.registerInput_registers slot var) h
  | allocateChannel channel =>
    exact register_registrations (Registry.allocateChannel_registers channel) h
  | channelSlot channel => exact register_registrations (Registry.channelSlot_registers channel) h
  | registerChannelInput channel expected =>
    exact register_registrations (Registry.registerChannelInput_registers channel expected) h
  | addPushConstant constant =>
    exact register_registrations (Registry.addPushConstant_registers constant) h
  | addSampler name dim arrayLen =>
    exact register_registrations (Registry.addSampler_registers name dim arrayLen) h
  | addBlock request => exact register_registrations (Registry.addBlock_registers request) h
  | note note =>
    cases h
    exact .refl

/-- The setup of a node makes only registrations. -/
theorem run_registrations {setup : Setup Unit} {state state' : SetupState}
    (h : setup.run state = .ok () state') : Registrations state.registry state'.registry := by
  induction setup generalizing state with
  | done value =>
    cases h
    exact .refl
  | fail error => cases h
  | call request next ih =>
    rw [Setup.run_call, EStateM.bind] at h
    cases hanswer : SetupState.answer request state with
    | ok answer middle =>
      rw [hanswer] at h
      exact (answer_registrations hanswer).trans (ih answer h)
    | error failure middle =>
      rw [hanswer] at h
      cases h

/-- The setup of the node at a position makes only registrations. -/
theorem setupOutcome_registrations {g : StageGraph} {registry registry' : Registry} {index : Nat}
    (h : g.setupOutcome registry index = .ok registry') : Registrations registry registry' := by
  unfold StageGraph.setupOutcome at h
  cases hnode : g.nodes[index]? with
  | none =>
    rw [hnode] at h
    cases h
    exact .refl
  | some node =>
    rw [hnode] at h
    cases hrun : node.setup.run.run { registry, notes := [] } with
    | ok value state =>
      simp only [hrun] at h
      cases h
      exact run_registrations hrun
    | error failure state => cases failure <;> simp [hrun] at h

section Performed

variable {m : Model} {input : CompileInput} {p finish : Progress} {stage : Stage}

/-- Setups make only registrations, in their own stage. -/
theorem setups_registrations {positions : List Nat}
    (h : Performed m input p (callSteps (.setup stage) positions) finish) :
    Registrations (p.registry stage) (finish.registry stage) := by
  induction positions generalizing p with
  | nil =>
    cases h
    exact .refl
  | cons index rest ih =>
    obtain ⟨reached, hfirst, hrest⟩ := performed_cons_iff.1 h
    refine .trans ?_ (ih hrest)
    simp only [CompileStep.perform] at hfirst
    split at hfirst
    · rename_i registry hsetup
      cases hfirst
      rw [Progress.registry_withRegistry]
      exact setupOutcome_registrations hsetup
    · cases hfirst

/-- Setting a stage up makes only registrations, from the registry with which the stage is entered. -/
theorem setupSteps_registrations (h : Performed m input p (m.setupSteps stage) finish) :
    Registrations ((p.enter stage).registry stage) (finish.registry stage) := by
  obtain ⟨entered, hcheck, h⟩ := performed_cons_iff.1 h
  obtain ⟨ordered, hschedule, h⟩ := performed_cons_iff.1 h
  simp only [CompileStep.perform] at hcheck hschedule
  split at hcheck <;> cases hcheck
  split at hschedule <;> cases hschedule
  exact setups_registrations h

/-- Trials of update routines leave everything as it is. -/
theorem performed_updates {positions : List Nat}
    (h : Performed m input p (callSteps (.update stage) positions) finish) : finish = p := by
  induction positions with
  | nil =>
    cases h
    rfl
  | cons index rest ih =>
    obtain ⟨reached, hfirst, hrest⟩ := performed_cons_iff.1 h
    simp only [CompileStep.perform] at hfirst
    split at hfirst <;> cases hfirst
    exact ih hrest

/-- Linking leaves everything as it is, and succeeds only if the interfaces match. -/
theorem performed_link {steps : List CompileStep}
    (h : Performed m input p (.link :: steps) finish) :
    verifyLink p.vertex.registry p.fragment.registry = .ok () ∧
      Performed m input p steps finish := by
  obtain ⟨reached, hlink, hrest⟩ := performed_cons_iff.1 h
  simp only [CompileStep.perform] at hlink
  split at hlink <;> cases hlink
  exact ⟨by assumption, hrest⟩

end Performed

/-- Before any code is written, what is registered came about by registrations: in the vertex stage
from nothing, and in the fragment stage from the counters and channels that the vertex stage left. The
two interfaces match. -/
theorem performed_declareSteps {m : Model} {input : CompileInput} {p : Progress}
    (h : Performed m input (.start input) (m.declareSteps input) p) :
    Registrations { stage := .vertex } p.vertex.registry ∧
      Registrations (p.vertex.registry.enter .fragment) p.fragment.registry ∧
      verifyLink p.vertex.registry p.fragment.registry = .ok () ∧
      p.vertex.code = {} ∧ p.fragment.code = {} := by
  obtain ⟨setUp, hsetup, hrest⟩ := performed_append_iff.1 h
  obtain ⟨vertexSetUp, hvertex, hfragment⟩ := performed_append_iff.1 hsetup
  obtain ⟨hlink, hupdate⟩ := performed_link hrest
  obtain ⟨updated, hupdateVertex, hupdateFragment⟩ := performed_append_iff.1 hupdate
  obtain rfl := performed_updates hupdateVertex
  obtain rfl := performed_updates hupdateFragment
  have hvertexRegistrations := setupSteps_registrations hvertex
  have hfragmentRegistrations := setupSteps_registrations hfragment
  obtain ⟨vertexRegistry, rfl⟩ := performed_setupSteps hvertex
  obtain ⟨fragmentRegistry, rfl⟩ := performed_setupSteps hfragment
  exact ⟨hvertexRegistrations, hfragmentRegistrations, hlink, rfl, rfl⟩

/-- What a compiled shader has registered came about by registrations, and its two interfaces match. -/
theorem compile_registrations {m : Model} {input : CompileInput} {shader : Shader}
    (h : (m.compile input).outcome = .ok shader) :
    Registrations { stage := .vertex } shader.vertex.registry ∧
      Registrations (shader.vertex.registry.enter .fragment) shader.fragment.registry ∧
      verifyLink shader.vertex.registry shader.fragment.registry = .ok () := by
  obtain ⟨finish, hperformed, rfl⟩ := performed_of_compile h
  obtain ⟨declared, hdeclare, hemit⟩ := performed_append_iff.1 hperformed
  obtain ⟨hvertex, hfragment, hlink, -, -⟩ := performed_declareSteps hdeclare
  -- Emissions touch no registry.
  obtain ⟨emitted, hemitVertex, hemitFragment⟩ := performed_append_iff.1 hemit
  obtain ⟨vertexCode, vertexDeclared, rfl⟩ := performed_emits hemitVertex
  obtain ⟨fragmentCode, fragmentDeclared, rfl⟩ := performed_emits hemitFragment
  exact ⟨hvertex, hfragment, hlink⟩

end ShaderWeave
