import ShaderWeave.Proofs.Registration

/-!
# Where Blocks and Push Constants Come From

Every uniform block and every push constant of a stage was asked for by a node of the stage. A block has
the name and the members of the request, laid out by the std140 rules, and the update routine that the
node gave; a push constant has the name, the type and the cell of the request. This holds at every point
of a compilation, since both are only ever added, each for one request.

## Main definitions

* `RegisteredBlock.IsFor`, `RegisteredPushConstant.IsFor`: what is registered for a request.
* `Setup.MayMake request setup`: on some way through it, a setup makes the request.
* `Setup.Requests asked setup`: whatever it is answered, a setup asks only for blocks of `asked`.
* `BlocksAsked asked p`: all blocks that have been registered were asked for.

## Main results

* `answer_bindings`: what answering one request does to the blocks and the push constants.
* `run_keeps`, `perform_keeps`, `performed_keeps`: what the answers to the requests of the nodes keep is
  kept by setups, by every step of a compilation, and so by all that is performed from the beginning.
* `performed_blocksAsked`, `compile_pushConstants_asked`: every block and every push constant was asked
  for.
-/

namespace ShaderWeave

/-- The block is the one that the request asks for, in the given stage. -/
structure RegisteredBlock.IsFor (registered : RegisteredBlock) (request : BlockRequest)
    (stage : Stage) : Prop where
  /-- It has the name of the request. -/
  name_eq : registered.block.name = request.name
  /-- It stands in the stage. -/
  stage_eq : registered.block.stage = stage
  /-- It is laid out by the members of the request. -/
  layout_eq : BlockLayout.std140? request.members = some registered.block.layout
  /-- It is refreshed by the routine of the request. -/
  update_eq : request.update = some registered.update

/-- The push constant is the one that was asked for, in the given stage. -/
structure RegisteredPushConstant.IsFor (registered : RegisteredPushConstant)
    (constant : PushConstant) (stage : Stage) : Prop where
  /-- It has the name that was asked for. -/
  name_eq : registered.slot.name = constant.var.name
  /-- It has the type that was asked for. -/
  ty_eq : registered.slot.ty = constant.var.ty
  /-- It stands in the stage. -/
  stage_eq : registered.slot.stage = stage
  /-- It shows the cell that was given with it. -/
  cell_eq : registered.cell = constant.cell

/-! ## Operations on the Registry -/

namespace Registry

/-- An operation that succeeds leaves the blocks and the push constants of the stage as they are. -/
def KeepsBindings {α : Type} (operation : Registering α) : Prop :=
  ∀ r value r', operation r = .ok value r' →
    r'.stage = r.stage ∧ r'.blocks = r.blocks ∧ r'.pushConstants = r.pushConstants

theorem allocateOutput_keepsBindings (var : Variable) : KeepsBindings (allocateOutput var) := by
  intro r slot r' h
  unfold allocateOutput at h
  split at h
  · cases h
  · split at h <;> cases h
    exact ⟨rfl, rfl, rfl⟩

theorem registerInput_keepsBindings (slot : UInt32) (var : Variable) :
    KeepsBindings (registerInput slot var) := by
  intro r value r' h
  unfold registerInput at h
  split at h
  · split at h <;> cases h
    exact ⟨rfl, rfl, rfl⟩
  · split at h <;> cases h
    exact ⟨rfl, rfl, rfl⟩

theorem addAttribute_keepsBindings (a : Attribute) : KeepsBindings (addAttribute a) := by
  intro r location r' h
  unfold addAttribute at h
  split at h
  · split at h <;> cases h
    exact ⟨rfl, rfl, rfl⟩
  · split at h <;> cases h
    exact ⟨rfl, rfl, rfl⟩

theorem addColorOutput_keepsBindings (name : String) : KeepsBindings (addColorOutput name) := by
  intro r location r' h
  unfold addColorOutput at h
  split at h <;> cases h
  exact ⟨rfl, rfl, rfl⟩

theorem addSampler_keepsBindings (name : String) (dim : TextureDim) (arrayLen : Option UInt32) :
    KeepsBindings (addSampler name dim arrayLen) := by
  intro r binding r' h
  unfold addSampler at h
  split at h
  · cases h
  · split at h <;> cases h
    exact ⟨rfl, rfl, rfl⟩

theorem allocateChannel_keepsBindings (channel : Channel) :
    KeepsBindings (allocateChannel channel) := by
  intro r slot r' h
  unfold allocateChannel at h
  split at h
  · cases h
  · split at h <;> cases h
    rename_i reached hallocate
    exact allocateOutput_keepsBindings channel.var r slot reached hallocate

theorem channelSlot_keepsBindings (channel : Channel) : KeepsBindings (channelSlot channel) := by
  intro r slot r' h
  unfold channelSlot at h
  split at h <;> cases h
  exact ⟨rfl, rfl, rfl⟩

theorem registerChannelInput_keepsBindings (channel : Channel) (expected : Variable) :
    KeepsBindings (registerChannelInput channel expected) := by
  intro r slot r' h
  unfold registerChannelInput at h
  split at h
  · cases h
  · rename_i found reached hslot
    split at h <;> cases h
    rename_i hregister
    obtain ⟨hstage, hblocks, hconstants⟩ := channelSlot_keepsBindings channel r slot reached hslot
    rw [← hstage, ← hblocks, ← hconstants]
    exact registerInput_keepsBindings slot expected reached () r' hregister

/-- A block that is added is the one that the request asks for. -/
theorem blocks_of_addBlock {request : BlockRequest} {r r' : Registry} {binding : UInt32}
    (h : addBlock request r = .ok binding r') :
    r'.stage = r.stage ∧ r'.pushConstants = r.pushConstants ∧
      ∃ registered, registered.IsFor request r.stage ∧ r'.blocks = r.blocks ++ [registered] := by
  unfold addBlock at h
  split at h
  · cases h
  · split at h
    · cases h
    · cases h
    · rename_i hupdate
      split at h <;> cases h
      rename_i hlayout _
      exact ⟨rfl, rfl, _, ⟨rfl, rfl, hlayout, hupdate⟩, rfl⟩

/-- A push constant that is added is the one that was asked for. -/
theorem pushConstants_of_addPushConstant {constant : PushConstant} {r r' : Registry}
    {offset : UInt32} (h : addPushConstant constant r = .ok offset r') :
    r'.stage = r.stage ∧ r'.blocks = r.blocks ∧
      ∃ registered, registered.IsFor constant r.stage ∧
        r'.pushConstants = r.pushConstants ++ [registered] := by
  unfold addPushConstant at h
  split at h
  · cases h
  · split at h
    · cases h
    · split at h <;> cases h
      exact ⟨rfl, rfl, _, ⟨rfl, rfl, rfl, rfl⟩, rfl⟩

end Registry

/-! ## Requests -/

/-- What answering a request does to the blocks and the push constants of a stage. -/
structure BindingsAfter (request : SetupCall) (r r' : Registry) : Prop where
  /-- The stage is the same. -/
  stage_eq : r'.stage = r.stage
  /-- The blocks are the same, or the one that is asked for comes after them. -/
  blocks : r'.blocks = r.blocks ∨ ∃ block registered, request = .addBlock block ∧
    registered.IsFor block r.stage ∧ r'.blocks = r.blocks ++ [registered]
  /-- The push constants are the same, or the one that is asked for comes after them. -/
  pushConstants : r'.pushConstants = r.pushConstants ∨
    ∃ constant registered, request = .addPushConstant constant ∧
      registered.IsFor constant r.stage ∧ r'.pushConstants = r.pushConstants ++ [registered]

/-- A registration that is refused is answered with everything as it was. -/
theorem register_bindings {α : Type} {operation : Registering α} {value : Except GraphError α}
    {state state' : SetupState} {request : SetupCall} (hregisters : Registry.Registers operation)
    (hbindings : ∀ {value : α} {r' : Registry}, operation state.registry = .ok value r' →
      BindingsAfter request state.registry r')
    (h : SetupState.register operation state = .ok value state') :
    BindingsAfter request state.registry state'.registry := by
  have hresult := hregisters state.registry
  unfold SetupState.register at h
  cases hrun : operation state.registry with
  | ok value r' =>
    rw [hrun] at h
    cases h
    exact hbindings hrun
  | error failure r' =>
    rw [hrun] at h hresult
    subst hresult
    cases failure <;> cases h
    exact ⟨rfl, .inl rfl, .inl rfl⟩

theorem Registry.KeepsBindings.after {α : Type} {operation : Registering α}
    (hkeeps : KeepsBindings operation) {r r' : Registry} {value : α} (request : SetupCall)
    (h : operation r = .ok value r') : BindingsAfter request r r' := by
  obtain ⟨hstage, hblocks, hconstants⟩ := hkeeps r value r' h
  exact ⟨hstage, .inl hblocks, .inl hconstants⟩

theorem answer_bindings {request : SetupCall} {answer : request.Answer} {state state' : SetupState}
    (h : SetupState.answer request state = .ok answer state') :
    BindingsAfter request state.registry state'.registry := by
  cases request with
  | bindAttribute a =>
    exact register_bindings (Registry.addAttribute_registers a)
      ((Registry.addAttribute_keepsBindings a).after _) h
  | addColorOutput name =>
    exact register_bindings (Registry.addColorOutput_registers name)
      ((Registry.addColorOutput_keepsBindings name).after _) h
  | allocateOutput var =>
    exact register_bindings (Registry.allocateOutput_registers var)
      ((Registry.allocateOutput_keepsBindings var).after _) h
  | registerInput slot var =>
    exact register_bindings (Registry.registerInput_registers slot var)
      ((Registry.registerInput_keepsBindings slot var).after _) h
  | allocateChannel channel =>
    exact register_bindings (Registry.allocateChannel_registers channel)
      ((Registry.allocateChannel_keepsBindings channel).after _) h
  | channelSlot channel =>
    exact register_bindings (Registry.channelSlot_registers channel)
      ((Registry.channelSlot_keepsBindings channel).after _) h
  | registerChannelInput channel expected =>
    exact register_bindings (Registry.registerChannelInput_registers channel expected)
      ((Registry.registerChannelInput_keepsBindings channel expected).after _) h
  | addSampler name dim arrayLen =>
    exact register_bindings (Registry.addSampler_registers name dim arrayLen)
      ((Registry.addSampler_keepsBindings name dim arrayLen).after _) h
  | addPushConstant constant =>
    refine register_bindings (Registry.addPushConstant_registers constant) ?_ h
    intro offset r' hrun
    obtain ⟨hstage, hblocks, registered, hfor, hconstants⟩ :=
      Registry.pushConstants_of_addPushConstant hrun
    exact ⟨hstage, .inl hblocks, .inr ⟨constant, registered, rfl, hfor, hconstants⟩⟩
  | addBlock block =>
    refine register_bindings (Registry.addBlock_registers block) ?_ h
    intro binding r' hrun
    obtain ⟨hstage, hconstants, registered, hfor, hblocks⟩ := Registry.blocks_of_addBlock hrun
    exact ⟨hstage, .inr ⟨block, registered, rfl, hfor, hblocks⟩, .inl hconstants⟩
  | note note =>
    cases h
    exact ⟨rfl, .inl rfl, .inl rfl⟩

/-! ## Setups -/

/-- On some way through it, the setup makes the request. -/
def Setup.MayMake (request : SetupCall) : Setup Unit → Prop
  | .done _ | .fail _ => False
  | .call first next => first = request ∨ ∃ answer, Setup.MayMake request (next answer)

/-- What the answers to the requests of a setup keep, the setup keeps. -/
theorem run_keeps {keeps : Registry → Prop} {setup : Setup Unit} {state state' : SetupState}
    (hanswer : ∀ request, setup.MayMake request → ∀ before answer after,
      SetupState.answer request before = .ok answer after →
        keeps before.registry → keeps after.registry)
    (h : setup.run state = .ok () state') (hkeeps : keeps state.registry) :
    keeps state'.registry := by
  induction setup generalizing state with
  | done value =>
    cases h
    exact hkeeps
  | fail error => cases h
  | call request next ih =>
    rw [Setup.run_call, EStateM.bind] at h
    cases hfirst : SetupState.answer request state with
    | ok answer middle =>
      rw [hfirst] at h
      -- What the rest asks for, the whole setup asks for.
      exact ih answer (fun later hlater => hanswer later (.inr ⟨answer, hlater⟩)) h
        (hanswer request (.inl rfl) state answer middle hfirst hkeeps)
    | error failure middle =>
      rw [hfirst] at h
      cases h

/-- Whatever it is answered, the setup asks only for blocks of `asked`. -/
def Setup.Requests (asked : BlockRequest → Prop) : Setup Unit → Prop
  | .done _ | .fail _ => True
  | .call request next =>
    (∀ block, request = .addBlock block → asked block) ∧ ∀ answer, Setup.Requests asked (next answer)

theorem Setup.Requests.asked {asked : BlockRequest → Prop} {setup : Setup Unit}
    {block : BlockRequest} (h : Requests asked setup) (hmakes : setup.MayMake (.addBlock block)) :
    asked block := by
  induction setup with
  | done value => cases hmakes
  | fail error => cases hmakes
  | call request next ih =>
    rcases hmakes with hrequest | ⟨answer, hlater⟩
    · exact h.1 block hrequest
    · exact ih answer (h.2 answer) hlater

theorem Setup.Requests.mono {asked allowed : BlockRequest → Prop} {setup : Setup Unit}
    (h : Requests asked setup) (himp : ∀ block, asked block → allowed block) :
    Requests allowed setup := by
  induction setup with
  | done value => trivial
  | fail error => trivial
  | call request next ih =>
    exact ⟨fun block hblock => himp block (h.1 block hblock), fun answer => ih answer (h.2 answer)⟩

/-- One setup after another asks for what they ask for. -/
theorem Setup.Requests.bind {asked : BlockRequest → Prop} {first : Setup Unit}
    {next : Unit → Setup Unit} (hfirst : Requests asked first) (hnext : Requests asked (next ())) :
    Requests asked (first >>= next) := by
  induction first with
  | done value => exact hnext
  | fail error => trivial
  | call request rest ih => exact ⟨hfirst.1, fun answer => ih answer (hfirst.2 answer)⟩

theorem Setup.checked_requests {asked : BlockRequest → Prop} (answer : Except GraphError UInt32) :
    Requests asked (checked answer) := by
  cases answer <;> trivial

theorem Setup.addBlock_requests {asked : BlockRequest → Prop} {block : BlockRequest}
    (h : asked block) : Requests asked (addBlock block) :=
  ⟨fun other hother => by cases hother; exact h, checked_requests⟩

/-! ## Compilations -/

section Performed

variable {m : Model} {input : CompileInput} {keeps : Stage → Registry → Prop}
  {p p' : Progress}

/-- What the setups of the nodes keep, every step keeps, if a stage is entered with it. -/
theorem perform_keeps {step : CompileStep} (henter : ∀ r, keeps .fragment (Registry.enter r .fragment))
    (hanswer : ∀ stage, ∀ node ∈ (m.graph stage).nodes, ∀ request, node.setup.MayMake request →
      ∀ before answer after, SetupState.answer request before = .ok answer after →
        keeps stage before.registry → keeps stage after.registry)
    (h : step.perform m input p = .ok p') (hkeeps : ∀ stage, keeps stage (p.registry stage)) :
    ∀ stage, keeps stage (p'.registry stage) := by
  have hreplaced : ∀ {stage : Stage} {registry : Registry}, keeps stage registry →
      ∀ other, keeps other ((p.withRegistry registry stage).registry other) := by
    intro stage registry hregistry other
    have hother := hkeeps other
    cases stage <;> cases other <;> first | exact hregistry | exact hother
  cases step with
  | checkStages stage =>
    simp only [CompileStep.perform] at h
    split at h <;> cases h
    cases stage with
    | vertex => exact hkeeps
    | fragment => exact hreplaced (henter _)
  | schedule stage =>
    simp only [CompileStep.perform] at h
    split at h <;> cases h
    exact hkeeps
  | link =>
    simp only [CompileStep.perform] at h
    split at h <;> cases h
    exact hkeeps
  | call made =>
    cases made with
    | setup stage index =>
      simp only [CompileStep.perform] at h
      split at h
      · rename_i registry houtcome
        cases h
        refine hreplaced ?_
        unfold StageGraph.setupOutcome at houtcome
        split at houtcome
        · cases houtcome
          exact hkeeps stage
        · rename_i node hnode
          split at houtcome <;> cases houtcome
          rename_i state hrun
          exact run_keeps (hanswer stage node (List.mem_of_getElem? hnode)) hrun (hkeeps stage)
      · cases h
    | update stage index =>
      simp only [CompileStep.perform] at h
      split at h <;> cases h
      exact hkeeps
    | emit stage index =>
      simp only [CompileStep.perform] at h
      split at h <;> cases h
      intro other
      have hother := hkeeps other
      cases stage <;> cases other <;> exact hother

/-- What empty registries have and the setups of the nodes keep holds after all that is performed from
the beginning. -/
theorem performed_keeps {steps : List CompileStep}
    (hempty : ∀ (stage : Stage) (r : Registry), r.stage = stage → r.blocks = [] →
      r.pushConstants = [] → keeps stage r)
    (hanswer : ∀ stage, ∀ node ∈ (m.graph stage).nodes, ∀ request, node.setup.MayMake request →
      ∀ before answer after, SetupState.answer request before = .ok answer after →
        keeps stage before.registry → keeps stage after.registry)
    (h : Performed m input (.start input) steps p) : ∀ stage, keeps stage (p.registry stage) := by
  have hstart : ∀ stage, keeps stage ((Progress.start input).registry stage) := by
    intro stage
    cases stage <;> exact hempty _ _ rfl rfl rfl
  generalize Progress.start input = start at h hstart
  induction steps generalizing start with
  | nil =>
    cases h
    exact hstart
  | cons step rest ih =>
    obtain ⟨reached, hfirst, hrest⟩ := performed_cons_iff.1 h
    exact ih reached hrest
      (perform_keeps (fun r => hempty .fragment _ rfl rfl rfl) hanswer hfirst hstart)

end Performed

/-! ## Blocks -/

/-- What is registered belongs to the stage, and all its blocks were asked for. -/
structure Registry.BlocksAsked (asked : BlockRequest → Prop) (stage : Stage) (r : Registry) :
    Prop where
  /-- The registry is that of the stage. -/
  stage_eq : r.stage = stage
  /-- Each block is the one that some request asks for. -/
  exists_request : ∀ registered ∈ r.blocks, ∃ request, asked request ∧
    registered.IsFor request stage

theorem BindingsAfter.blocksAsked {asked : BlockRequest → Prop} {stage : Stage}
    {request : SetupCall} {r r' : Registry} (h : BindingsAfter request r r')
    (hasked : ∀ block, request = .addBlock block → asked block)
    (hr : r.BlocksAsked asked stage) : r'.BlocksAsked asked stage := by
  refine ⟨h.stage_eq.trans hr.stage_eq, fun registered hmem => ?_⟩
  rcases h.blocks with hsame | ⟨block, added, hrequest, hfor, hadded⟩
  · exact hr.exists_request registered (hsame ▸ hmem)
  · rw [hadded, List.mem_append, List.mem_singleton] at hmem
    rcases hmem with hmem | rfl
    · exact hr.exists_request registered hmem
    · exact ⟨block, hasked block hrequest, hr.stage_eq ▸ hfor⟩

/-- All blocks that have been registered were asked for. -/
def BlocksAsked (asked : Stage → BlockRequest → Prop) (p : Progress) : Prop :=
  ∀ stage, (p.registry stage).BlocksAsked (asked stage) stage

/-- Steps that are performed from the beginning leave only blocks that were asked for. -/
theorem performed_blocksAsked {m : Model} {input : CompileInput} {p : Progress}
    {asked : Stage → BlockRequest → Prop} {steps : List CompileStep}
    (hsetup : ∀ stage, ∀ node ∈ (m.graph stage).nodes, Setup.Requests (asked stage) node.setup)
    (h : Performed m input (.start input) steps p) : BlocksAsked asked p := by
  refine performed_keeps (fun stage r hstage hblocks _ => ⟨hstage, ?_⟩) ?_ h
  · intro registered hmem
    rw [hblocks] at hmem
    cases hmem
  · intro stage node hnode request hmakes before answer after hanswered hbefore
    refine (answer_bindings hanswered).blocksAsked (fun block hblock => ?_) hbefore
    exact (hsetup stage node hnode).asked (hblock ▸ hmakes)

/-! ## Push Constants -/

/-- What is registered belongs to the stage, and all its push constants were asked for. -/
structure Registry.ConstantsAsked (asked : PushConstant → Prop) (stage : Stage) (r : Registry) :
    Prop where
  /-- The registry is that of the stage. -/
  stage_eq : r.stage = stage
  /-- Each push constant is the one that was asked for. -/
  exists_constant : ∀ registered ∈ r.pushConstants, ∃ constant, asked constant ∧
    registered.IsFor constant stage

theorem BindingsAfter.constantsAsked {asked : PushConstant → Prop} {stage : Stage}
    {request : SetupCall} {r r' : Registry} (h : BindingsAfter request r r')
    (hasked : ∀ constant, request = .addPushConstant constant → asked constant)
    (hr : r.ConstantsAsked asked stage) : r'.ConstantsAsked asked stage := by
  refine ⟨h.stage_eq.trans hr.stage_eq, fun registered hmem => ?_⟩
  rcases h.pushConstants with hsame | ⟨constant, added, hrequest, hfor, hadded⟩
  · exact hr.exists_constant registered (hsame ▸ hmem)
  · rw [hadded, List.mem_append, List.mem_singleton] at hmem
    rcases hmem with hmem | rfl
    · exact hr.exists_constant registered hmem
    · exact ⟨constant, hasked constant hrequest, hr.stage_eq ▸ hfor⟩

/-- Every push constant of a compiled shader is one that a node of its stage asks for. -/
theorem compile_pushConstants_asked {m : Model} {input : CompileInput} {shader : Shader}
    (h : (m.compile input).outcome = .ok shader) :
    ∀ registered ∈ shader.pushConstants, ∃ node ∈ (m.graph registered.slot.stage).nodes,
      ∃ constant, node.setup.MayMake (.addPushConstant constant) ∧
        registered.IsFor constant registered.slot.stage := by
  obtain ⟨finish, hperformed, rfl⟩ := performed_of_compile h
  have hasked : ∀ stage, (finish.registry stage).ConstantsAsked (fun constant =>
      ∃ node ∈ (m.graph stage).nodes, node.setup.MayMake (.addPushConstant constant)) stage := by
    refine performed_keeps (fun stage r hstage _ hconstants => ⟨hstage, ?_⟩) ?_ hperformed
    · intro registered hmem
      rw [hconstants] at hmem
      cases hmem
    · intro stage node hnode request hmakes before answer after hanswered hbefore
      refine (answer_bindings hanswered).constantsAsked (fun constant hconstant => ?_) hbefore
      exact ⟨node, hnode, hconstant ▸ hmakes⟩
  have hstage : ∀ stage, ∀ registered ∈ (finish.registry stage).pushConstants,
      ∃ node ∈ (m.graph registered.slot.stage).nodes,
        ∃ constant, node.setup.MayMake (.addPushConstant constant) ∧
          registered.IsFor constant registered.slot.stage := by
    intro stage registered hmem
    obtain ⟨constant, ⟨node, hnode, hmakes⟩, hfor⟩ := (hasked stage).exists_constant registered hmem
    obtain rfl := hfor.stage_eq
    exact ⟨node, hnode, constant, hmakes, hfor⟩
  intro registered hmem
  rcases List.mem_append.1 hmem with hmem | hmem
  · exact hstage .vertex registered hmem
  · exact hstage .fragment registered hmem

end ShaderWeave
