import Mathlib.Data.List.Count
import ShaderWeave.Model.Compile
import ShaderWeave.Proofs.GenerationOrder

/-!
# The Two Passes of a Compilation

Compiling a model takes the steps of one agenda, in order, up to the first one that fails. The agenda
is read off the model: for each stage a check of the masks, the ordering of the nodes and the setups in
that order; then the check of the interface and one trial of each registered update routine; and only
then the emissions of both stages.

The steps are given by what each makes of the progress so far, without the log and the notes that
`Model.compile` keeps. What a step has declared stays so even if it fails.

## Main definitions

* `CompileStep.perform`: what a step makes of the progress, or why it fails.
* `Model.agenda`: all steps of a model, of which `Model.callPlan` are the calls.
* `Follows`: a computation takes steps, logs their calls, and stops at the first that fails.

## Main results

* `follows_compileSteps`: compiling a model follows its agenda.
* `compile_two_pass`: the calls are a prefix of the plan, they are the whole plan exactly if nothing
  fails, and nothing is emitted unless both declaring passes, the link and the trials succeed.
-/

namespace ShaderWeave

/-! ## Steps and What They Do -/

/-- A step of a compilation: a check of the model, or a call to a node or an update routine. -/
inductive CompileStep where
  /-- Check that the nodes of a stage may stand there. -/
  | checkStages (stage : Stage)
  /-- Order the nodes of a stage. -/
  | schedule (stage : Stage)
  /-- Check the interface between the stages. -/
  | link
  /-- Make a call. -/
  | call (made : PassCall)
deriving DecidableEq

/-- The call that a step makes, if it makes one. -/
def CompileStep.call? : CompileStep → Option PassCall
  | call made => some made
  | _ => none

/-- A stage of a shader. -/
def Shader.program (shader : Shader) : Stage → StageProgram
  | .vertex => shader.vertex
  | .fragment => shader.fragment

/-- What the steps of a compilation have brought about. -/
structure Progress where
  /-- The vertex stage. -/
  vertex : StageProgram := { registry := { stage := .vertex }, code := {} }
  /-- The fragment stage. -/
  fragment : StageProgram := { registry := { stage := .fragment }, code := {} }
  /-- Handles that have been declared. -/
  declared : List Handle := []

namespace Progress

/-- The progress at first. -/
def start (input : CompileInput) : Progress := { declared := input.declared }

/-- A stage so far. -/
def program (p : Progress) : Stage → StageProgram
  | .vertex => p.vertex
  | .fragment => p.fragment

/-- What a stage has registered so far. -/
def registry (p : Progress) (stage : Stage) : Registry := (p.program stage).registry

/-- The progress with another registry of a stage. -/
def withRegistry (p : Progress) (registry : Registry) : Stage → Progress
  | .vertex => { p with vertex := { p.vertex with registry } }
  | .fragment => { p with fragment := { p.fragment with registry } }

/-- The progress with other code of a stage, and after more handles have been declared. -/
def withCode (p : Progress) (code : StageCode) (declared : List Handle) : Stage → Progress
  | .vertex => { p with vertex := { p.vertex with code }, declared }
  | .fragment => { p with fragment := { p.fragment with code }, declared }

/-- The progress when a stage begins to register. The fragment stage takes the counters and channels
over from the vertex stage. -/
def enter (p : Progress) : Stage → Progress
  | .vertex => p
  | .fragment => p.withRegistry (p.vertex.registry.enter .fragment) .fragment

/-- The state from which the next node of a stage is emitted. -/
def emitState (p : Progress) (target : Target) (stage : Stage) : EmitState where
  place := { target, stage := stage.mask }
  code := (p.program stage).code
  declared := p.declared

@[simp]
theorem place_emitState (p : Progress) (target : Target) (stage : Stage) :
    (p.emitState target stage).place = { target, stage := stage.mask } :=
  rfl

@[simp]
theorem code_emitState (p : Progress) (target : Target) (stage : Stage) :
    (p.emitState target stage).code = (p.program stage).code :=
  rfl

@[simp]
theorem declared_emitState (p : Progress) (target : Target) (stage : Stage) :
    (p.emitState target stage).declared = p.declared :=
  rfl

/-- The shader that has come about. -/
def shader (p : Progress) (name : String) (target : Target) : Shader :=
  { name, target, vertex := p.vertex, fragment := p.fragment }

@[simp]
theorem program_shader (p : Progress) (name : String) (target : Target) (stage : Stage) :
    (p.shader name target).program stage = p.program stage := by
  cases stage <;> rfl

@[simp]
theorem registry_withRegistry (p : Progress) (registry : Registry) (stage : Stage) :
    (p.withRegistry registry stage).registry stage = registry := by
  cases stage <;> rfl

end Progress

/-- What the setup of the node at a position makes of a registry. -/
def StageGraph.setupOutcome (g : StageGraph) (registry : Registry) (index : Nat) :
    Except CompileFailure Registry :=
  match g.nodes[index]? with
  | none => .ok registry
  | some node =>
    match node.setup.run.run { registry, notes := [] } with
    | .ok () state => .ok state.registry
    | .error (.refused error) _ => .error (.graph (error.leaveNode node.name g.stage))
    | .error .overflow _ => .error .overflow

/-- What the emission of the node at a position makes of the code and the declared handles. -/
def StageGraph.emitOutcome (g : StageGraph) (state : EmitState) (index : Nat) :
    Except CompileFailure (StageCode × List Handle) :=
  match g.nodes[index]? with
  | none => .ok (state.code, state.declared)
  | some node =>
    match node.emit.run.run state with
    | .ok () after => .ok (after.code, after.declared)
    | .error failure _ => .error (.ofNode (failure.leaveNode node.name g.stage))

/-- The handles that are declared after the emission of the node at a position, also if it fails. -/
def StageGraph.declaredAfter (g : StageGraph) (state : EmitState) (index : Nat) : List Handle :=
  match g.nodes[index]? with
  | none => state.declared
  | some node =>
    match node.emit.run.run state with
    | .ok () after | .error _ after => after.declared

/-- What comes of trying the update routine of the block at a position. -/
def updateOutcome (parameters : ParameterStore) (blocks : List RegisteredBlock) (index : Nat) :
    Except CompileFailure Unit :=
  match blocks[index]? with
  | none => .ok ()
  | some registered =>
    match registered.block.shape.refresh (registered.update .dryRun parameters) with
    | none => .error .overrun
    | some refreshed =>
      match refreshed.error with
      | none => .ok ()
      | some error => .error (.graph (.updateContract registered.block.name error))

/-- What a step makes of the progress so far, or why it fails. -/
def CompileStep.perform (m : Model) (input : CompileInput) (p : Progress) :
    CompileStep → Except CompileFailure Progress
  | checkStages stage =>
    match (m.graph stage).checkStages with
    | .ok () => .ok (p.enter stage)
    | .error error => .error (.graph error)
  | schedule stage =>
    match (m.graph stage).schedule with
    | .ok _ => .ok p
    | .error failure => .error (.ofNode failure)
  | link =>
    match verifyLink p.vertex.registry p.fragment.registry with
    | .ok () => .ok p
    | .error error => .error (.graph error)
  | call (.setup stage index) =>
    match (m.graph stage).setupOutcome (p.registry stage) index with
    | .ok registry => .ok (p.withRegistry registry stage)
    | .error failure => .error failure
  | call (.update stage index) =>
    match updateOutcome input.parameters (p.registry stage).blocks index with
    | .ok () => .ok p
    | .error failure => .error failure
  | call (.emit stage index) =>
    match (m.graph stage).emitOutcome (p.emitState input.target stage) index with
    | .ok (code, declared) => .ok (p.withCode code declared stage)
    | .error failure => .error failure

/-- The handles that are declared after a step has been tried, also if it fails. -/
def CompileStep.declaredAfter (m : Model) (input : CompileInput) (p : Progress) :
    CompileStep → List Handle
  | call (.emit stage index) => (m.graph stage).declaredAfter (p.emitState input.target stage) index
  | _ => p.declared

/-! ## The Agenda of a Model -/

/-- Calls at the given positions, as steps. -/
def callSteps (make : Nat → PassCall) (positions : List Nat) : List CompileStep :=
  positions.map fun index => .call (make index)

/-- Steps are performed in order, none of which fails. -/
def Performed (m : Model) (input : CompileInput) (p : Progress) (steps : List CompileStep)
    (finish : Progress) : Prop :=
  steps.foldlM (CompileStep.perform m input) p = .ok finish

namespace Model

/-- The generation order of a stage; empty if it has none. -/
def order (m : Model) (stage : Stage) : List Nat :=
  match (m.graph stage).schedule with
  | .ok order => order
  | .error _ => []

/-- The steps that set a stage up. -/
def setupSteps (m : Model) (stage : Stage) : List CompileStep :=
  .checkStages stage :: .schedule stage :: callSteps (.setup stage) (m.order stage)

/-- Number of blocks that a stage has registered once both stages are set up; zero if that fails. -/
def blockCount (m : Model) (input : CompileInput) (stage : Stage) : Nat :=
  match (m.setupSteps .vertex ++ m.setupSteps .fragment).foldlM
      (CompileStep.perform m input) (.start input) with
  | .ok p => (p.registry stage).blocks.length
  | .error _ => 0

/-- The steps that try the update routines of a stage. -/
def updateSteps (m : Model) (input : CompileInput) (stage : Stage) : List CompileStep :=
  callSteps (.update stage) (List.range (m.blockCount input stage))

/-- The steps that emit a stage. -/
def emitSteps (m : Model) (stage : Stage) : List CompileStep :=
  callSteps (.emit stage) (m.order stage)

/-- The steps before any code is written. -/
def declareSteps (m : Model) (input : CompileInput) : List CompileStep :=
  (m.setupSteps .vertex ++ m.setupSteps .fragment) ++ .link
    :: (m.updateSteps input .vertex ++ m.updateSteps input .fragment)

/-- The steps before a stage is emitted. -/
def stepsBeforeEmissions (m : Model) (input : CompileInput) : Stage → List CompileStep
  | .vertex => m.declareSteps input
  | .fragment => m.declareSteps input ++ m.emitSteps .vertex

/-- All steps of the compilation of a model. -/
def agenda (m : Model) (input : CompileInput) : List CompileStep :=
  m.declareSteps input ++ (m.emitSteps .vertex ++ m.emitSteps .fragment)

/-- All calls of the compilation of a model: the setups of both stages, one trial of each registered
block, and the emissions of both stages. -/
def callPlan (m : Model) (input : CompileInput) : List PassCall :=
  (m.order .vertex).map (.setup .vertex) ++ (m.order .fragment).map (.setup .fragment)
    ++ (List.range (m.blockCount input .vertex)).map (.update .vertex)
    ++ (List.range (m.blockCount input .fragment)).map (.update .fragment)
    ++ (m.order .vertex).map (.emit .vertex) ++ (m.order .fragment).map (.emit .fragment)

end Model

@[simp]
theorem filterMap_callSteps (make : Nat → PassCall) (positions : List Nat) :
    (callSteps make positions).filterMap CompileStep.call? = positions.map make := by
  induction positions with
  | nil => rfl
  | cons index rest ih => simpa [callSteps, CompileStep.call?] using ih

@[simp]
theorem filterMap_setupSteps (m : Model) (stage : Stage) :
    (m.setupSteps stage).filterMap CompileStep.call? = (m.order stage).map (.setup stage) := by
  rw [Model.setupSteps, List.filterMap_cons_none rfl, List.filterMap_cons_none rfl,
    filterMap_callSteps]

/-- The calls of the agenda are the plan of calls. -/
theorem filterMap_agenda (m : Model) (input : CompileInput) :
    (m.agenda input).filterMap CompileStep.call? = m.callPlan input := by
  have hlink (steps : List CompileStep) : (.link :: steps).filterMap CompileStep.call? =
      steps.filterMap CompileStep.call? := List.filterMap_cons_none rfl
  simp [Model.agenda, Model.declareSteps, Model.updateSteps, Model.emitSteps, Model.callPlan, hlink]

/-! ## Following Steps -/

/-- A computation follows steps from a progress on. In every state with the given registry in which the
same handles are declared, it performs all steps and returns a value that, with the registry then, `shows`
the progress; or it performs some and ends with the failure of the next. The handles are declared that the
steps declare, and the calls of the steps are logged, including the one that fails. -/
def Follows {α : Type} (m : Model) (input : CompileInput) (x : Compiling α) (registry : Registry)
    (p : Progress) (steps : List CompileStep) (shows : Progress → α → Registry → Prop) : Prop :=
  ∀ state : CompileState, state.registry = registry → state.declared = p.declared →
    (∃ finish value after, Performed m input p steps finish ∧ x state = .ok value after ∧
      shows finish value after.registry ∧ after.declared = finish.declared ∧
      after.log.calls = state.log.calls ++ steps.filterMap CompileStep.call?) ∨
    ∃ done step rest reached failure after, steps = done ++ step :: rest ∧
      Performed m input p done reached ∧ step.perform m input reached = .error failure ∧
      x state = .error failure after ∧ after.declared = step.declaredAfter m input reached ∧
      after.log.calls = state.log.calls ++ (done ++ [step]).filterMap CompileStep.call?

section Follows

variable {α β : Type} {m : Model} {input : CompileInput} {p finish reached : Progress}
  {registry : Registry} {steps more : List CompileStep}

theorem Performed.append (hfirst : Performed m input p steps reached)
    (hrest : Performed m input reached more finish) :
    Performed m input p (steps ++ more) finish := by
  unfold Performed at *
  rw [List.foldlM_append, hfirst]
  exact hrest

/-- Of steps that are performed, the first ones are performed and the others after them. -/
theorem performed_append_iff :
    Performed m input p (steps ++ more) finish ↔
      ∃ reached, Performed m input p steps reached ∧ Performed m input reached more finish := by
  refine ⟨fun h => ?_, fun ⟨reached, hfirst, hrest⟩ => hfirst.append hrest⟩
  unfold Performed at h
  rw [List.foldlM_append] at h
  exact bind_eq_ok h

theorem performed_cons_iff {step : CompileStep} :
    Performed m input p (step :: steps) finish ↔
      ∃ reached, step.perform m input p = .ok reached ∧ Performed m input reached steps finish := by
  refine ⟨fun h => ?_, fun ⟨reached, hfirst, hrest⟩ => ?_⟩
  · unfold Performed at h
    rw [List.foldlM_cons] at h
    exact bind_eq_ok h
  · unfold Performed
    rw [List.foldlM_cons, hfirst]
    exact hrest

/-- A value is returned without any step. -/
theorem follows_pure {shows : Progress → α → Registry → Prop} {value : α}
    (hshows : shows p value registry) : Follows m input (pure value) registry p [] shows := by
  rintro state rfl hdeclared
  exact .inl ⟨p, value, state, rfl, rfl, hshows, hdeclared, by simp⟩

/-- What is registered is looked up without any step. -/
theorem follows_registered : Follows m input Compiling.registered registry p [] fun finish value after =>
    finish = p ∧ value = registry ∧ after = registry := by
  rintro state rfl hdeclared
  exact .inl ⟨p, state.registry, state, rfl, rfl, ⟨rfl, rfl, rfl⟩, hdeclared, by simp⟩

/-- A stage is begun without any step. -/
theorem follows_enter (stage : Stage) :
    Follows m input (Compiling.enter stage) registry p [] fun finish _ after =>
      finish = p ∧ after = registry.enter stage := by
  rintro state rfl hdeclared
  exact .inl ⟨p, (), { state with registry := state.registry.enter stage }, rfl, rfl, ⟨rfl, rfl⟩,
    hdeclared, by simp⟩

/-- One computation after another follows the steps of both. -/
theorem Follows.bind {x : Compiling α} {next : α → Compiling β}
    {shows : Progress → α → Registry → Prop} {showsNext : Progress → β → Registry → Prop}
    (hx : Follows m input x registry p steps shows)
    (hnext : ∀ reached value middle, Performed m input p steps reached → shows reached value middle →
      Follows m input (next value) middle reached more showsNext) :
    Follows m input (x >>= next) registry p (steps ++ more) showsNext := by
  intro state hregistry hdeclared
  have hbind : (x >>= next) state = EStateM.bind x next state := rfl
  rw [hbind, EStateM.bind]
  -- The first computation ends well and the second goes on from its state, or the first one's failure
  -- is that of both.
  rcases hx state hregistry hdeclared with
    ⟨reached, value, middle, hperformed, hrun, hshows, hmiddle, hcalls⟩ |
    ⟨done, step, rest, reached, failure, middle, rfl, hdone, hstep, hrun, hmiddle, hcalls⟩
  · rw [hrun]
    rcases hnext reached value middle.registry hperformed hshows middle rfl hmiddle with
      ⟨finish, result, last, hmore, hlast, hresult, hfinish, hlog⟩ |
      ⟨done, step, rest, stopped, failure, last, rfl, hdone, hstep, hlast, hstopped, hlog⟩
    · exact .inl ⟨finish, result, last, hperformed.append hmore, hlast, hresult, hfinish, by
        rw [hlog, hcalls, List.filterMap_append, List.append_assoc]⟩
    · refine .inr ⟨steps ++ done, step, rest, stopped, failure, last, by rw [List.append_assoc],
        hperformed.append hdone, hstep, hlast, hstopped, ?_⟩
      rw [hlog, hcalls, List.append_assoc, List.append_assoc, ← List.filterMap_append]
  · rw [hrun]
    exact .inr ⟨done, step, rest ++ more, reached, failure, middle, by simp, hdone, hstep, rfl, hmiddle,
      hcalls⟩

/-- `Follows.bind` for a computation that follows one step. -/
theorem Follows.bind_step {x : Compiling α} {next : α → Compiling β} {step : CompileStep}
    {shows : Progress → α → Registry → Prop} {showsNext : Progress → β → Registry → Prop}
    (hx : Follows m input x registry p [step] shows)
    (hnext : ∀ reached value middle, Performed m input p [step] reached → shows reached value middle →
      Follows m input (next value) middle reached more showsNext) :
    Follows m input (x >>= next) registry p (step :: more) showsNext :=
  hx.bind hnext

/-- `Follows.bind` for a computation that takes no step. -/
theorem Follows.bind_nil {x : Compiling α} {next : α → Compiling β}
    {shows : Progress → α → Registry → Prop} {showsNext : Progress → β → Registry → Prop}
    (hx : Follows m input x registry p [] shows)
    (hnext : ∀ reached value middle, shows reached value middle →
      Follows m input (next value) middle reached more showsNext) :
    Follows m input (x >>= next) registry p more showsNext :=
  hx.bind fun reached value middle _ hshows => hnext reached value middle hshows

/-- Returning something else afterwards takes no further step. -/
theorem Follows.bind_pure {x : Compiling α} {f : α → β} {shows : Progress → α → Registry → Prop}
    {showsNext : Progress → β → Registry → Prop} (hx : Follows m input x registry p steps shows)
    (hf : ∀ reached value middle, Performed m input p steps reached → shows reached value middle →
      showsNext reached (f value) middle) :
    Follows m input (x >>= fun value => pure (f value)) registry p steps showsNext := by
  rw [← List.append_nil steps]
  exact hx.bind fun reached value middle hperformed hshows =>
    follows_pure (hf reached value middle hperformed hshows)

/-- A computation that does what one step does follows that step. -/
theorem follows_step {x : Compiling α} {step : CompileStep} {shows : Progress → α → Registry → Prop}
    (hx : ∀ state : CompileState, state.registry = registry → state.declared = p.declared →
      ∃ after : CompileState, after.log.calls = state.log.calls ++ step.call?.toList ∧
        match step.perform m input p with
        | .ok finish => ∃ value, x state = .ok value after ∧ shows finish value after.registry ∧
          after.declared = finish.declared
        | .error failure => x state = .error failure after ∧
          after.declared = step.declaredAfter m input p) :
    Follows m input x registry p [step] shows := by
  intro state hregistry hdeclared
  obtain ⟨after, hcalls, hrun⟩ := hx state hregistry hdeclared
  have hsingle : [step].filterMap CompileStep.call? = step.call?.toList := by
    cases hcall : step.call? <;> simp [hcall]
  cases hstep : step.perform m input p with
  | ok finish =>
    rw [hstep] at hrun
    obtain ⟨value, hrun, hshows, hfinish⟩ := hrun
    exact .inl ⟨finish, value, after, performed_cons_iff.2 ⟨finish, hstep, rfl⟩, hrun, hshows, hfinish, by
      rw [hcalls, hsingle]⟩
  | error failure =>
    rw [hstep] at hrun
    refine .inr ⟨[], step, [], p, failure, after, rfl, rfl, hstep, hrun.1, hrun.2, ?_⟩
    rw [hcalls, List.nil_append, hsingle]

/-- A check follows the step that makes it. -/
theorem follows_check {x : Compiling α} {step : CompileStep} {shows : Progress → α → Registry → Prop}
    (hcall : step.call? = none) (hkeep : step.declaredAfter m input p = p.declared)
    (hx : ∀ state, match step.perform m input p with
      | .ok finish => ∃ value, x state = .ok value state ∧ shows finish value registry ∧
        finish.declared = p.declared
      | .error failure => x state = .error failure state) :
    Follows m input x registry p [step] shows := by
  refine follows_step ?_
  rintro state rfl hdeclared
  refine ⟨state, by simp [hcall], ?_⟩
  have hrun := hx state
  cases hstep : step.perform m input p with
  | ok finish =>
    rw [hstep] at hrun
    obtain ⟨value, hrun, hshows, hfinish⟩ := hrun
    exact ⟨value, hrun, hshows, hdeclared.trans hfinish.symm⟩
  | error failure =>
    rw [hstep] at hrun
    exact ⟨hrun, hdeclared.trans hkeep.symm⟩

end Follows

/-! ## Each Part of a Compilation Follows Its Steps -/

section Parts

variable {m : Model} {input : CompileInput} {p : Progress} {stage : Stage} {registry : Registry}

/-- The setup of a node follows its step. -/
theorem follows_setupNode {index : Nat} (hindex : index < (m.graph stage).nodes.length) :
    Follows m input ((m.graph stage).setupNode index) (p.registry stage) p
      [.call (.setup stage index)] fun finish _ after => after = finish.registry stage := by
  obtain ⟨node, hnode⟩ : ∃ node, (m.graph stage).nodes[index]? = some node :=
    ⟨_, List.getElem?_eq_getElem hindex⟩
  refine follows_step fun state hregistry hdeclared => ?_
  unfold CompileStep.perform StageGraph.setupOutcome StageGraph.setupNode
  simp only [hnode, Model.graph_stage, hregistry]
  cases hrun : node.setup.run.run { registry := p.registry stage, notes := [] } with
  | ok value after =>
    refine ⟨state.afterSetup (.setup stage index) after, rfl, (), rfl, ?_, ?_⟩
    · rw [Progress.registry_withRegistry]
      rfl
    · cases stage <;> exact hdeclared
  | error failure after =>
    refine ⟨state.afterSetup (.setup stage index) after, rfl, ?_⟩
    cases failure <;> exact ⟨rfl, hdeclared⟩

/-- The emission of a node follows its step. -/
theorem follows_emitNode {index : Nat} (hindex : index < (m.graph stage).nodes.length) :
    Follows m input ((m.graph stage).emitNode input.target (p.program stage).code index) registry
      p [.call (.emit stage index)] fun finish code _ => code = (finish.program stage).code := by
  obtain ⟨node, hnode⟩ : ∃ node, (m.graph stage).nodes[index]? = some node :=
    ⟨_, List.getElem?_eq_getElem hindex⟩
  refine follows_step fun state _ hdeclared => ?_
  have hstart : (⟨⟨input.target, stage.mask⟩, (p.program stage).code, state.declared, []⟩ : EmitState) =
      p.emitState input.target stage := by
    rw [hdeclared]
    rfl
  unfold CompileStep.perform CompileStep.declaredAfter StageGraph.emitOutcome StageGraph.declaredAfter
    StageGraph.emitNode
  simp only [hnode, Model.graph_stage, hstart]
  cases hrun : node.emit.run.run (p.emitState input.target stage) with
  | ok value after =>
    refine ⟨state.afterEmit (.emit stage index) after, rfl, after.code, rfl, ?_⟩
    cases stage <;> exact ⟨rfl, rfl⟩
  | error failure after =>
    exact ⟨state.afterEmit (.emit stage index) after, rfl, rfl, rfl⟩

/-- The trial of an update routine follows its step. -/
theorem follows_tryUpdate {index : Nat} {registered : RegisteredBlock}
    (hregistered : (p.registry stage).blocks[index]? = some registered) :
    Follows m input (tryUpdate input.parameters stage registered index) registry p
      [.call (.update stage index)] fun finish _ _ => finish = p := by
  refine follows_step fun state _ hdeclared => ?_
  unfold CompileStep.perform updateOutcome tryUpdate
  simp only [hregistered]
  cases hrefresh : registered.block.shape.refresh (registered.update .dryRun input.parameters) with
  | none => exact ⟨state.afterTrial (.update stage index) [], rfl, rfl, hdeclared⟩
  | some refreshed =>
    refine ⟨state.afterTrial (.update stage index) refreshed.records, rfl, ?_⟩
    cases herror : refreshed.error with
    | none =>
      simp only [herror]
      exact ⟨(), trivial, trivial, hdeclared⟩
    | some error =>
      simp only [herror]
      exact ⟨trivial, hdeclared⟩

/-- The setups at the given positions follow their steps. -/
theorem follows_setupNodes {positions : List Nat}
    (hpositions : ∀ index ∈ positions, index < (m.graph stage).nodes.length) :
    Follows m input ((m.graph stage).setupNodes positions) (p.registry stage) p
      (callSteps (.setup stage) positions) fun finish _ after => after = finish.registry stage := by
  induction positions generalizing p with
  | nil => exact follows_pure rfl
  | cons index rest ih =>
    refine (follows_setupNode (hpositions index (by simp))).bind_step ?_
    rintro reached _ _ - rfl
    exact ih fun i hi => hpositions i (by simp [hi])

/-- The emissions at the given positions follow their steps. -/
theorem follows_emitNodes {positions : List Nat}
    (hpositions : ∀ index ∈ positions, index < (m.graph stage).nodes.length) :
    Follows m input ((m.graph stage).emitNodes input.target (p.program stage).code positions) registry
      p (callSteps (.emit stage) positions) fun finish code _ =>
        code = (finish.program stage).code := by
  induction positions generalizing p registry with
  | nil => exact follows_pure rfl
  | cons index rest ih =>
    refine (follows_emitNode (hpositions index (by simp))).bind_step ?_
    rintro reached _ _ - rfl
    exact ih fun i hi => hpositions i (by simp [hi])

/-- The trials of the blocks from a position on follow their steps. -/
theorem follows_tryUpdates {blocks : List RegisteredBlock} {start : Nat}
    (hblocks : (p.registry stage).blocks.drop start = blocks) :
    Follows m input (tryUpdates input.parameters stage blocks start) registry p
      (callSteps (.update stage) (List.range' start blocks.length)) fun finish _ _ => finish = p := by
  induction blocks generalizing start registry with
  | nil => exact follows_pure rfl
  | cons registered rest ih =>
    have hregistered : (p.registry stage).blocks[start]? = some registered := by
      have hhead := congrArg List.head? hblocks
      rwa [List.head?_drop, List.head?_cons] at hhead
    have hrest : (p.registry stage).blocks.drop (start + 1) = rest := by
      rw [← List.tail_drop, hblocks, List.tail_cons]
    refine (follows_tryUpdate hregistered).bind_step ?_
    rintro reached ⟨⟩ _ - rfl
    exact ih hrest

/-- Setups change only the registry of their stage. -/
theorem performed_setups {positions : List Nat} {finish : Progress}
    (h : Performed m input p (callSteps (.setup stage) positions) finish) :
    ∃ registry, finish = p.withRegistry registry stage := by
  induction positions generalizing p with
  | nil =>
    cases h
    exact ⟨finish.registry stage, by cases stage <;> rfl⟩
  | cons index rest ih =>
    obtain ⟨reached, hfirst, hrest⟩ := performed_cons_iff.1 h
    obtain ⟨registry, rfl⟩ := ih hrest
    simp only [CompileStep.perform] at hfirst
    split at hfirst
    · cases hfirst
      exact ⟨registry, by cases stage <;> rfl⟩
    · cases hfirst

/-- Emissions change only the code of their stage and the declared handles. -/
theorem performed_emits {positions : List Nat} {finish : Progress}
    (h : Performed m input p (callSteps (.emit stage) positions) finish) :
    ∃ code declared, finish = p.withCode code declared stage := by
  induction positions generalizing p with
  | nil =>
    cases h
    exact ⟨(finish.program stage).code, finish.declared, by cases stage <;> rfl⟩
  | cons index rest ih =>
    obtain ⟨reached, hfirst, hrest⟩ := performed_cons_iff.1 h
    obtain ⟨code, declared, rfl⟩ := ih hrest
    simp only [CompileStep.perform] at hfirst
    split at hfirst
    · cases hfirst
      exact ⟨code, declared, by cases stage <;> rfl⟩
    · cases hfirst

/-- Setting a stage up changes only the registry of the stage. -/
theorem performed_setupSteps {finish : Progress}
    (h : Performed m input p (m.setupSteps stage) finish) :
    ∃ registry, finish = p.withRegistry registry stage := by
  obtain ⟨entered, hcheck, h⟩ := performed_cons_iff.1 h
  obtain ⟨ordered, hschedule, h⟩ := performed_cons_iff.1 h
  obtain ⟨registry, rfl⟩ := performed_setups h
  simp only [CompileStep.perform] at hcheck hschedule
  split at hcheck <;> cases hcheck
  split at hschedule <;> cases hschedule
  exact ⟨registry, by cases stage <;> rfl⟩

/-- Setting a stage up follows the steps for it. -/
theorem follows_runSetup (stage : Stage) :
    Follows m input (m.graph stage).runSetup ((p.enter stage).registry stage) p (m.setupSteps stage)
      fun finish order after => order = m.order stage ∧ after = finish.registry stage := by
  have hcheck : Follows m input (Compiling.check (m.graph stage).checkStages)
      ((p.enter stage).registry stage) p [.checkStages stage] fun finish _ after =>
        finish = p.enter stage ∧ after = (p.enter stage).registry stage := by
    refine follows_check rfl rfl fun state => ?_
    simp only [CompileStep.perform]
    cases (m.graph stage).checkStages with
    | ok value => exact ⟨(), rfl, ⟨rfl, trivial⟩, by cases stage <;> rfl⟩
    | error error => rfl
  have hschedule : Follows m input (Compiling.checkNode (m.graph stage).schedule)
      ((p.enter stage).registry stage) (p.enter stage) [.schedule stage] fun finish order after =>
        finish = p.enter stage ∧ (m.graph stage).schedule = .ok order ∧
          after = (p.enter stage).registry stage := by
    refine follows_check rfl rfl fun state => ?_
    simp only [CompileStep.perform]
    cases (m.graph stage).schedule with
    | ok order => exact ⟨order, rfl, ⟨rfl, rfl, trivial⟩, rfl⟩
    | error failure => rfl
  refine hcheck.bind_step ?_
  rintro _ _ _ - ⟨rfl, rfl⟩
  refine hschedule.bind_step ?_
  rintro _ order _ - ⟨rfl, horder, rfl⟩
  -- The steps are those of `m.order`, which is the order that has just been found.
  have heq : m.order stage = order := by rw [Model.order, horder]
  rw [heq]
  refine (follows_setupNodes fun i hi =>
    StageGraph.lt_length_of_mem_schedule horder hi).bind_pure ?_
  rintro finish _ _ - rfl
  exact ⟨rfl, rfl⟩

/-- Emitting a stage that has no code yet follows the steps for it. -/
theorem follows_runEmit {order : List Nat} (horder : (m.graph stage).schedule = .ok order)
    (hcode : (p.program stage).code = {}) :
    Follows m input ((m.graph stage).runEmit input.target order) registry p (m.emitSteps stage)
      fun finish code _ => code = (finish.program stage).code := by
  have heq : m.order stage = order := by rw [Model.order, horder]
  rw [Model.emitSteps, heq, StageGraph.runEmit, ← hcode]
  exact follows_emitNodes fun i hi => StageGraph.lt_length_of_mem_schedule horder hi

/-- A stage that is set up has a schedule. -/
theorem schedule_of_performed {finish : Progress}
    (h : Performed m input p (m.setupSteps stage) finish) :
    (m.graph stage).schedule = .ok (m.order stage) := by
  obtain ⟨entered, -, h⟩ := performed_cons_iff.1 h
  obtain ⟨ordered, hschedule, -⟩ := performed_cons_iff.1 h
  simp only [CompileStep.perform] at hschedule
  split at hschedule
  · rename_i order horder
    rw [Model.order, horder]
  · cases hschedule

end Parts

/-- The blocks of a stage are counted once both stages are set up. -/
theorem blockCount_of_performed {m : Model} {input : CompileInput} {p : Progress}
    (h : Performed m input (.start input) (m.setupSteps .vertex ++ m.setupSteps .fragment) p)
    (stage : Stage) : m.blockCount input stage = (p.registry stage).blocks.length := by
  unfold Performed at h
  rw [Model.blockCount, h]

/-- The trials of a stage that is set up follow the steps for it. -/
theorem follows_updateSteps {m : Model} {input : CompileInput} {p : Progress} {registry : Registry}
    (h : Performed m input (.start input) (m.setupSteps .vertex ++ m.setupSteps .fragment) p)
    (stage : Stage) :
    Follows m input (tryUpdates input.parameters stage (p.registry stage).blocks 0) registry p
      (m.updateSteps input stage) fun finish _ _ => finish = p := by
  rw [Model.updateSteps, blockCount_of_performed h, List.range_eq_range']
  exact follows_tryUpdates List.drop_zero

/-- The check of the interface follows its step. -/
theorem follows_link {m : Model} {input : CompileInput} {p : Progress} {registry : Registry} :
    Follows m input
      (Compiling.check (verifyLink (p.registry .vertex) (p.registry .fragment))) registry p [.link]
      fun finish _ _ => finish = p := by
  refine follows_check rfl rfl fun state => ?_
  have hperform : CompileStep.link.perform m input p =
      match verifyLink (p.registry .vertex) (p.registry .fragment) with
      | .ok () => .ok p
      | .error error => .error (.graph error) := rfl
  rw [hperform]
  cases verifyLink (p.registry .vertex) (p.registry .fragment) with
  | ok value => exact ⟨(), rfl, rfl, rfl⟩
  | error error => rfl

/-- Compiling a model follows its agenda, and returns the shader that comes about. -/
theorem follows_compileSteps (m : Model) (input : CompileInput) :
    Follows m input (m.compileSteps input) { stage := .vertex } (.start input) (m.agenda input)
      fun finish shader _ => shader = finish.shader m.name input.target := by
  unfold Model.compileSteps Model.agenda Model.declareSteps
  simp only [List.append_assoc, List.cons_append]
  refine (follows_runSetup (m := m) (p := .start input) .vertex).bind ?_
  rintro p₁ _ _ hvertex ⟨rfl, rfl⟩
  refine follows_registered.bind_nil ?_
  rintro p₁ _ _ ⟨rfl, rfl, rfl⟩
  refine (follows_enter .fragment).bind_nil ?_
  rintro p₁ _ _ ⟨rfl, rfl⟩
  refine (follows_runSetup (m := m) (p := p₁) .fragment).bind ?_
  rintro p₂ _ _ hfragment ⟨rfl, rfl⟩
  refine follows_registered.bind_nil ?_
  rintro _ _ _ ⟨rfl, rfl, rfl⟩
  have hsetup := hvertex.append hfragment
  have hvertexOrder := schedule_of_performed hvertex
  have hfragmentOrder := schedule_of_performed hfragment
  -- Nothing is emitted yet, and the fragment stage leaves the vertex stage alone.
  obtain ⟨vertexRegistry, rfl⟩ := performed_setupSteps hvertex
  obtain ⟨fragmentRegistry, rfl⟩ := performed_setupSteps hfragment
  refine follows_link.bind_step ?_
  rintro _ _ _ - rfl
  refine (follows_updateSteps hsetup .vertex).bind ?_
  rintro _ _ _ - rfl
  refine (follows_updateSteps hsetup .fragment).bind ?_
  rintro _ _ _ - rfl
  refine (follows_runEmit hvertexOrder rfl).bind ?_
  rintro p₃ _ _ hemitVertex rfl
  obtain ⟨vertexCode, declared, rfl⟩ := performed_emits hemitVertex
  refine (follows_runEmit hfragmentOrder rfl).bind_pure ?_
  rintro finish _ _ hemitFragment rfl
  obtain ⟨fragmentCode, declared, rfl⟩ := performed_emits hemitFragment
  rfl

/-! ## The Calls of a Compilation -/

theorem mem_callSteps {make : Nat → PassCall} {positions : List Nat} {step : CompileStep} :
    step ∈ callSteps make positions ↔ ∃ index ∈ positions, .call (make index) = step := by
  simp [callSteps]

/-- Each node is set up, and emitted, as often as the order of its stage names it. -/
theorem count_callPlan (m : Model) (input : CompileInput) (stage : Stage) (index : Nat) :
    (m.callPlan input).count (.setup stage index) = (m.order stage).count index ∧
      (m.callPlan input).count (.emit stage index) = (m.order stage).count index := by
  have hother {make : Nat → PassCall} {call : PassCall} (positions : List Nat)
      (hmake : ∀ i, make i ≠ call) : (positions.map make).count call = 0 := by
    simp [List.count_eq_zero, hmake]
  have hsetup (positions : List Nat) :
      (positions.map (PassCall.setup stage)).count (.setup stage index) = positions.count index :=
    List.count_map_of_injective positions _ (fun i j h => by simpa using h) index
  have hemit (positions : List Nat) :
      (positions.map (PassCall.emit stage)).count (.emit stage index) = positions.count index :=
    List.count_map_of_injective positions _ (fun i j h => by simpa using h) index
  cases stage <;> simp [Model.callPlan, hother, hsetup, hemit]

/-- An order names each node of its stage once and nothing else. -/
theorem count_order {m : Model} {stage : Stage}
    (h : (m.graph stage).schedule = .ok (m.order stage)) (index : Nat) :
    (m.order stage).count index = if index < (m.graph stage).nodes.length then 1 else 0 := by
  rw [(StageGraph.schedule_perm h).count_eq, List.count_range]

/-- The steps before any code is written make no emission. -/
theorem emit_notMem_declareSteps (m : Model) (input : CompileInput) (stage : Stage)
    (index : Nat) : .call (.emit stage index) ∉ m.declareSteps input := by
  simp [Model.declareSteps, Model.setupSteps, Model.updateSteps, mem_callSteps]

/-- An element that is not in the second of two lists stands in the first. -/
theorem append_eq_of_notMem_right {α : Type} {first second before after : List α} {x : α}
    (h : first ++ second = before ++ x :: after) (hx : x ∉ second) :
    ∃ more, first = before ++ x :: more ∧ after = more ++ second := by
  rcases List.append_eq_append_iff.1 h with ⟨k, hbefore, hsecond⟩ | ⟨k, hfirst, hafter⟩
  · exact absurd (by rw [hsecond]; simp) hx
  · -- If nothing of the first list is left, the element is the head of the second.
    cases k with
    | nil => exact absurd (by rw [← List.nil_append second, ← hafter]; simp) hx
    | cons y k =>
      simp only [List.cons_append, List.cons.injEq] at hafter
      obtain ⟨rfl, hafter⟩ := hafter
      exact ⟨k, hfirst, hafter⟩

/-- An element that is not in the first of two lists stands in the second. -/
theorem append_eq_of_notMem_left {α : Type} {first second before after : List α} {x : α}
    (h : first ++ second = before ++ x :: after) (hx : x ∉ first) :
    ∃ more, before = first ++ more ∧ second = more ++ x :: after := by
  rcases List.append_eq_append_iff.1 h with ⟨k, hbefore, hsecond⟩ | ⟨k, hfirst, hafter⟩
  · exact ⟨k, hbefore, hsecond⟩
  · cases k with
    | nil => exact ⟨[], by simpa using hfirst.symm, by simpa using hafter.symm⟩
    | cons y k =>
      simp only [List.cons_append, List.cons.injEq] at hafter
      obtain ⟨rfl, -⟩ := hafter
      exact absurd (by rw [hfirst]; simp) hx

/-- Before an emission come all steps before its stage is emitted, and then the nodes that stand earlier
in the order of the stage. -/
theorem agenda_eq_emit {m : Model} {input : CompileInput} {done rest : List CompileStep}
    {stage : Stage} {index : Nat}
    (hagenda : m.agenda input = done ++ .call (.emit stage index) :: rest) :
    ∃ before after,
      done = m.stepsBeforeEmissions input stage ++ callSteps (.emit stage) before ∧
      m.order stage = before ++ index :: after := by
  obtain ⟨emitted, rfl, hemits⟩ :=
    append_eq_of_notMem_left hagenda (emit_notMem_declareSteps m input stage index)
  -- Within the emissions of the stage itself, steps correspond to positions of the order.
  have hsplit {more later : List CompileStep}
      (h : m.emitSteps stage = more ++ .call (.emit stage index) :: later) :
      ∃ before after, more = callSteps (.emit stage) before ∧
        m.order stage = before ++ index :: after := by
    obtain ⟨before, others, horder, rfl, hothers⟩ := List.map_eq_append_iff.1 h
    obtain ⟨first, after, rfl, hfirst, -⟩ := List.map_eq_cons_iff.1 hothers
    cases hfirst
    exact ⟨before, after, rfl, horder⟩
  cases stage with
  | vertex =>
    obtain ⟨later, hvertex, -⟩ := append_eq_of_notMem_right hemits (by
      simp [Model.emitSteps, mem_callSteps])
    obtain ⟨before, after, rfl, horder⟩ := hsplit hvertex
    exact ⟨before, after, rfl, horder⟩
  | fragment =>
    obtain ⟨more, rfl, hfragment⟩ := append_eq_of_notMem_left hemits (by
      simp [Model.emitSteps, mem_callSteps])
    obtain ⟨before, after, rfl, horder⟩ := hsplit hfragment
    exact ⟨before, after, by simp [Model.stepsBeforeEmissions], horder⟩

/-- A step that is no emission comes before all emissions. -/
theorem exists_declareSteps_eq {m : Model} {input : CompileInput} {done rest : List CompileStep}
    {step : CompileStep} (hagenda : m.agenda input = done ++ step :: rest)
    (hstep : ∀ stage index, step ≠ .call (.emit stage index)) :
    ∃ more, m.declareSteps input = done ++ step :: more := by
  have hemits : step ∉ m.emitSteps .vertex ++ m.emitSteps .fragment := by
    intro hmem
    rcases List.mem_append.1 hmem with hmem | hmem <;> obtain ⟨i, -, rfl⟩ := mem_callSteps.1 hmem
    · exact hstep .vertex i rfl
    · exact hstep .fragment i rfl
  obtain ⟨more, hdeclare, -⟩ := append_eq_of_notMem_right hagenda hemits
  exact ⟨more, hdeclare⟩

/-- There is no emission among the calls up to a step that is none. -/
theorem emit_notMem_calls {m : Model} {input : CompileInput} {done rest : List CompileStep}
    {step : CompileStep} (hagenda : m.agenda input = done ++ step :: rest)
    (hstep : ∀ stage index, step ≠ .call (.emit stage index)) (stage : Stage) (index : Nat) :
    .emit stage index ∉ (done ++ [step]).filterMap CompileStep.call? := by
  have hdeclaring : done ++ [step] <+: m.declareSteps input := by
    obtain ⟨more, hdeclare⟩ := exists_declareSteps_eq hagenda hstep
    exact ⟨more, by rw [hdeclare]; simp⟩
  intro hmem
  obtain ⟨s, hs, hcall⟩ := List.mem_filterMap.1 hmem
  cases s with
  | call made =>
    cases hcall
    exact emit_notMem_declareSteps m input stage index (hdeclaring.subset hs)
  | checkStages _ => cases hcall
  | schedule _ => cases hcall
  | link => cases hcall

/-- The steps that set up the stages before a stage. -/
def Model.stepsBefore (m : Model) : Stage → List CompileStep
  | .vertex => []
  | .fragment => m.setupSteps .vertex

/-- A stage is checked and ordered once, right after the stages before it are set up. -/
theorem agenda_eq_check (m : Model) (input : CompileInput) (stage : Stage) :
    ∃ after, m.agenda input =
        m.stepsBefore stage ++ .checkStages stage :: .schedule stage :: after ∧
      ∀ step, step = .checkStages stage ∨ step = .schedule stage →
        step ∉ m.stepsBefore stage ∧ step ∉ after := by
  have hcalls (make : Nat → PassCall) (positions : List Nat) (s : Stage) :
      .checkStages s ∉ callSteps make positions ∧ .schedule s ∉ callSteps make positions := by
    simp [mem_callSteps]
  cases stage with
  | vertex =>
    refine ⟨callSteps (.setup .vertex) (m.order .vertex) ++ m.setupSteps .fragment ++ .link
      :: (m.updateSteps input .vertex ++ m.updateSteps input .fragment)
      ++ (m.emitSteps .vertex ++ m.emitSteps .fragment), by
        simp [Model.agenda, Model.declareSteps, Model.setupSteps, Model.stepsBefore], ?_⟩
    rintro step (rfl | rfl) <;>
      simp [Model.stepsBefore, Model.setupSteps, Model.updateSteps, Model.emitSteps, hcalls]
  | fragment =>
    refine ⟨callSteps (.setup .fragment) (m.order .fragment) ++ .link
      :: (m.updateSteps input .vertex ++ m.updateSteps input .fragment)
      ++ (m.emitSteps .vertex ++ m.emitSteps .fragment), by
        simp [Model.agenda, Model.declareSteps, Model.setupSteps, Model.stepsBefore], ?_⟩
    rintro step (rfl | rfl) <;>
      simp [Model.stepsBefore, Model.setupSteps, Model.updateSteps, Model.emitSteps, hcalls]

/-- The calls before a stage is checked and ordered are the setups of the stages before it. -/
theorem calls_of_check {m : Model} {input : CompileInput} {done rest : List CompileStep}
    {step : CompileStep} {stage : Stage} (hagenda : m.agenda input = done ++ step :: rest)
    (hstep : step = .checkStages stage ∨ step = .schedule stage) :
    (done ++ [step]).filterMap CompileStep.call? =
      (m.stepsBefore stage).filterMap CompileStep.call? := by
  obtain ⟨after, hsplit, hfresh⟩ := agenda_eq_check m input stage
  obtain ⟨hbefore, hafter⟩ := hfresh step hstep
  rw [hsplit] at hagenda
  rcases hstep with rfl | rfl
  · rw [List.append_cons_inj_of_notMem hbefore (by simp [hafter])] at hagenda
    obtain ⟨rfl, -, -⟩ := hagenda
    rw [List.filterMap_append, List.filterMap_cons_none rfl, List.filterMap_nil, List.append_nil]
  · rw [List.append_cons, List.append_cons_inj_of_notMem (by simp [hbefore]) hafter] at hagenda
    obtain ⟨rfl, -, -⟩ := hagenda
    rw [List.append_assoc, List.filterMap_append, List.singleton_append,
      List.filterMap_cons_none rfl, List.filterMap_cons_none rfl, List.filterMap_nil,
      List.append_nil]

/-- Compiling a model either performs its whole agenda and gives the shader that comes about, or ends
with the failure of the first step that fails. The calls are those of the steps that were tried, and the
handles are declared that these steps declare. -/
theorem compile_cases (m : Model) (input : CompileInput) :
    (∃ finish, Performed m input (.start input) (m.agenda input) finish ∧
      (m.compile input).outcome = .ok (finish.shader m.name input.target) ∧
      (m.compile input).log.calls = m.callPlan input ∧
      (m.compile input).declared = finish.declared) ∨
    ∃ done step rest reached failure, m.agenda input = done ++ step :: rest ∧
      Performed m input (.start input) done reached ∧ step.perform m input reached = .error failure ∧
      (m.compile input).outcome = .error failure ∧
      (m.compile input).log.calls = (done ++ [step]).filterMap CompileStep.call? ∧
      (m.compile input).declared = step.declaredAfter m input reached := by
  have hrun : (m.compileSteps input).run { declared := input.declared } =
    m.compileSteps input { declared := input.declared } := rfl
  rcases follows_compileSteps m input { declared := input.declared } rfl rfl with
    ⟨finish, shader, after, hperformed, hok, rfl, hdeclared, hcalls⟩ |
    ⟨done, step, rest, reached, failure, after, hagenda, hdone, hstep, herror, hdeclared, hcalls⟩
  · have hcompile : m.compile input =
        { outcome := .ok (finish.shader m.name input.target), log := after.log,
          declared := after.declared } := by
      rw [Model.compile, hrun, hok]
    rw [hcompile]
    exact .inl ⟨finish, hperformed, rfl, by simpa [filterMap_agenda] using hcalls, hdeclared⟩
  · have hcompile : m.compile input =
        { outcome := .error failure, log := after.log, declared := after.declared } := by
      rw [Model.compile, hrun, herror]
    rw [hcompile]
    exact .inr ⟨done, step, rest, reached, failure, hagenda, hdone, hstep, rfl, by simpa using hcalls,
      hdeclared⟩

/-- A shader is what comes about when the whole agenda is performed. -/
theorem performed_of_compile {m : Model} {input : CompileInput} {shader : Shader}
    (h : (m.compile input).outcome = .ok shader) :
    ∃ finish, Performed m input (.start input) (m.agenda input) finish ∧
      shader = finish.shader m.name input.target := by
  rcases compile_cases m input with ⟨finish, hperformed, hok, -⟩ |
    ⟨-, -, -, -, failure, -, -, -, herror, -⟩
  · rw [hok] at h
    cases h
    exact ⟨finish, hperformed, rfl⟩
  · rw [herror] at h
    cases h

/-- A shader is compiled for the target of the input. -/
theorem target_of_compile {m : Model} {input : CompileInput} {shader : Shader}
    (h : (m.compile input).outcome = .ok shader) : shader.target = input.target := by
  obtain ⟨finish, -, rfl⟩ := performed_of_compile h
  rfl

/-- Steps cannot be performed past one that fails. -/
theorem not_performed_of_error {m : Model} {input : CompileInput}
    {done rest : List CompileStep} {step : CompileStep} {p reached finish : Progress}
    {failure : CompileFailure} (hdone : Performed m input p done reached)
    (hstep : step.perform m input reached = .error failure) :
    ¬ Performed m input p (done ++ step :: rest) finish := by
  intro h
  obtain ⟨reached', hdone', hrest⟩ := performed_append_iff.1 h
  unfold Performed at hdone hdone'
  rw [hdone] at hdone'
  cases hdone'
  obtain ⟨next, hnext, -⟩ := performed_cons_iff.1 hrest
  rw [hstep] at hnext
  cases hnext

/-- If the whole agenda is performed, each stage has a schedule. -/
theorem schedule_of_agenda {m : Model} {input : CompileInput} {finish : Progress}
    (h : Performed m input (.start input) (m.agenda input) finish) (stage : Stage) :
    (m.graph stage).schedule = .ok (m.order stage) := by
  obtain ⟨declared, hdeclare, -⟩ := performed_append_iff.1 h
  obtain ⟨setUp, hsetup, -⟩ := performed_append_iff.1 hdeclare
  obtain ⟨vertexSetUp, hvertex, hfragment⟩ := performed_append_iff.1 hsetup
  cases stage
  · exact schedule_of_performed hvertex
  · exact schedule_of_performed hfragment

/-- Two-pass discipline. Compiling a model makes the calls of the plan in order, up to the first step
that fails: the setups of both stages, the trials of the registered update routines and the emissions
of both stages, each in its generation order.

* It succeeds exactly if all calls of the plan are made and no step fails, and then each node is set up
  once and emitted once.
* Otherwise the failure is that of the first step that fails. Where a stage cannot be checked or
  ordered, the calls are the setups of the stages before it, and unless the step that fails is an
  emission, nothing is emitted. -/
theorem compile_two_pass (m : Model) (input : CompileInput) :
    let calls := (m.compile input).log.calls
    let outcome := (m.compile input).outcome
    calls <+: m.callPlan input ∧
    ((∃ shader, outcome = .ok shader) ↔ calls = m.callPlan input ∧
      ∃ finish, Performed m input (.start input) (m.agenda input) finish) ∧
    (∀ shader, outcome = .ok shader → ∀ stage index,
      calls.count (.setup stage index) = (if index < (m.graph stage).nodes.length then 1 else 0) ∧
      calls.count (.emit stage index) = if index < (m.graph stage).nodes.length then 1 else 0) ∧
    ∀ failure, outcome = .error failure →
      ∃ done step rest reached, m.agenda input = done ++ step :: rest ∧
        Performed m input (.start input) done reached ∧
        step.perform m input reached = .error failure ∧
        calls = (done ++ [step]).filterMap CompileStep.call? ∧
        (∀ stage, step = .checkStages stage ∨ step = .schedule stage →
          calls = match stage with
            | .vertex => []
            | .fragment => (m.order .vertex).map (.setup .vertex)) ∧
        ((∀ stage index, step ≠ .call (.emit stage index)) →
          ∀ stage index, .emit stage index ∉ calls) := by
  intro calls outcome
  rcases compile_cases m input with ⟨finish, hperformed, hok, hcalls, -⟩ |
    ⟨done, step, rest, reached, failure, hagenda, hdone, hstep, herror, hcalls, -⟩
  · have hplan : calls = m.callPlan input := hcalls
    have houtcome : outcome = .ok (finish.shader m.name input.target) := hok
    refine ⟨hplan ▸ List.prefix_rfl,
      ⟨fun _ => ⟨hplan, finish, hperformed⟩, fun _ => ⟨_, houtcome⟩⟩, ?_, ?_⟩
    · intro shader _ stage index
      obtain ⟨hsetups, hemits⟩ := count_callPlan m input stage index
      rw [hplan, hsetups, hemits, count_order (schedule_of_agenda hperformed stage)]
      exact ⟨rfl, rfl⟩
    · intro failure herror
      rw [houtcome] at herror
      cases herror
  · have hmade : calls = (done ++ [step]).filterMap CompileStep.call? := hcalls
    have houtcome : outcome = .error failure := herror
    refine ⟨?_, ⟨?_, ?_⟩, ?_, ?_⟩
    · rw [hmade, ← filterMap_agenda, hagenda]
      exact List.IsPrefix.filterMap _ ⟨rest, by simp⟩
    · rintro ⟨shader, hok⟩
      rw [houtcome] at hok
      cases hok
    · rintro ⟨-, finish, hperformed⟩
      rw [hagenda] at hperformed
      exact absurd hperformed (not_performed_of_error hdone hstep)
    · intro shader hok
      rw [houtcome] at hok
      cases hok
    · intro failure' hfailure
      rw [houtcome] at hfailure
      cases hfailure
      refine ⟨done, step, rest, reached, hagenda, hdone, hstep, hmade, ?_, ?_⟩
      · intro stage hcheck
        rw [hmade, calls_of_check hagenda hcheck]
        cases stage
        · rfl
        · exact filterMap_setupSteps m .vertex
      · intro hnoEmit stage index
        rw [hmade]
        exact emit_notMem_calls hagenda hnoEmit stage index

end ShaderWeave
