import ShaderWeave.Proofs.ChannelSlots
import ShaderWeave.Proofs.DrawData

/-!
# When a Model of Library Nodes Compiles

Of the steps of a compilation, the trials of update routines are the only ones that look at the
parameters, and in a model of library nodes none of them fails. So such a model compiles exactly if its
stages can be set up, their interfaces match and its nodes can be emitted, and what it compiles to does
not depend on the parameters. Where the inputs of nodes are wired to outputs, a node can be emitted as
soon as its own emission ends well.

## Main definitions

* `EmitsWell`: the emissions of the nodes of a stage end well.
* `emittedFrom`: what nodes write, one after another.

## Main results

* `compile_eq_ok_iff`: what compiles, without trials.
* `compile_of_parameters`: a model compiles to the same shader for all parameters.
* `exists_compile_of_emissions`: a model whose emissions end well compiles if its stages can be set up.
* `main_eq_emittedFrom`: what its main routines are.
-/

namespace ShaderWeave

section Library

variable {name : String} {graph : Stage → Nat} {nodes : Stage → List LibraryNode}
  {input : CompileInput} {p finish : Progress} {steps : List CompileStep}

/-! ## Trials and Parameters -/

/-- The trial of a block fails for no parameters. -/
theorem perform_update_eq_ok (h : Performed (libraryModel name graph nodes) input (.start input) steps p)
    (other : CompileInput) (stage : Stage) (index : Nat) :
    CompileStep.perform (libraryModel name graph nodes) other p (.call (.update stage index)) =
      .ok p := by
  have hblocks : ∀ registered ∈ (p.registry stage).blocks,
      ∃ (block : DrawBlock) (stage : Stage), registered.IsFor block.request stage := by
    intro registered hmem
    obtain ⟨_, ⟨_, -, block, -, rfl⟩, hfor⟩ :=
      (blocksAsked_of_performed h stage).exists_request registered hmem
    exact ⟨block, stage, hfor⟩
  simp only [CompileStep.perform, updateOutcome_eq_ok hblocks index]

/-- Trials can be made at any time. -/
theorem performed_trials (h : Performed (libraryModel name graph nodes) input (.start input) steps p)
    (stage : Stage) (positions : List Nat) :
    Performed (libraryModel name graph nodes) input p (callSteps (.update stage) positions)
      p := by
  induction positions with
  | nil => rfl
  | cons index rest ih =>
    exact performed_cons_iff.2 ⟨p, perform_update_eq_ok h input stage index, ih⟩

/-- Steps that are performed are so for all parameters, with the same progress. -/
theorem Performed.withParameters
    (h : Performed (libraryModel name graph nodes) input (.start input) steps p)
    (parameters : ParameterStore) :
    Performed (libraryModel name graph nodes) { input with parameters } (.start input) steps p := by
  induction steps using List.reverseRecOn generalizing p with
  | nil => exact h
  | append_singleton before step ih =>
    obtain ⟨reached, hbefore, hlast⟩ := performed_append_iff.1 h
    obtain ⟨finish, hstep, hdone⟩ := performed_cons_iff.1 hlast
    cases hdone
    refine (ih hbefore).append (performed_cons_iff.2 ⟨p, ?_, rfl⟩)
    -- Only a trial looks at the parameters.
    cases step with
    | checkStages stage => exact hstep
    | schedule stage => exact hstep
    | link => exact hstep
    | call made =>
      cases made with
      | setup stage index => exact hstep
      | emit stage index => exact hstep
      | update stage index =>
        rw [perform_update_eq_ok hbefore input] at hstep
        rw [perform_update_eq_ok hbefore _, hstep]

/-- A model compiles exactly if its stages can be set up, their interfaces match, and its nodes can be
emitted. -/
theorem compile_eq_ok_iff {shader : Shader} :
    let m := libraryModel name graph nodes
    (m.compile input).outcome = .ok shader ↔
      ∃ p finish, Performed m input (.start input) (m.setupSteps .vertex ++ m.setupSteps .fragment) p ∧
        verifyLink p.vertex.registry p.fragment.registry = .ok () ∧
        Performed m input p (m.emitSteps .vertex ++ m.emitSteps .fragment) finish ∧
        shader = finish.shader m.name input.target := by
  intro m
  constructor
  · intro h
    obtain ⟨finish, hperformed, rfl⟩ := performed_of_compile h
    obtain ⟨declared, hdeclare, hemit⟩ := performed_append_iff.1 hperformed
    obtain ⟨p, hsetup, hrest⟩ := performed_append_iff.1 hdeclare
    obtain ⟨hlink, hupdate⟩ := performed_link hrest
    obtain ⟨updated, hupdateVertex, hupdateFragment⟩ := performed_append_iff.1 hupdate
    obtain rfl := performed_updates hupdateVertex
    obtain rfl := performed_updates hupdateFragment
    exact ⟨_, finish, hsetup, hlink, hemit, rfl⟩
  · rintro ⟨p, finish, hsetup, hlink, hemit, rfl⟩
    have htrials : Performed m input p
        (m.updateSteps input .vertex ++ m.updateSteps input .fragment) p :=
      (performed_trials hsetup .vertex _).append (performed_trials hsetup .fragment _)
    have hdeclare : Performed m input (.start input) (m.declareSteps input) p :=
      hsetup.append (performed_cons_iff.2 ⟨p, perform_link_of_ok hlink, htrials⟩)
    have hagenda : (m.agenda input).foldlM (CompileStep.perform m input) (.start input) = .ok finish :=
      hdeclare.append hemit
    rw [compile_outcome_eq, hagenda]
    rfl

/-- A model that compiles does so for all parameters, to the same shader. -/
theorem compile_of_parameters {shader : Shader}
    (h : ((libraryModel name graph nodes).compile input).outcome = .ok shader)
    (parameters : ParameterStore) :
    ((libraryModel name graph nodes).compile { input with parameters }).outcome = .ok shader := by
  obtain ⟨p, finish, hsetup, hlink, hemit, hshader⟩ := compile_eq_ok_iff.1 h
  obtain ⟨reached, hsetup', hemit'⟩ :=
    performed_append_iff.1 ((hsetup.append hemit).withParameters parameters)
  -- The progress between the two passes is the same as well.
  have hreached := hsetup.withParameters parameters
  rw [Performed] at hreached hsetup'
  cases hreached.symm.trans hsetup'
  exact compile_eq_ok_iff.2 ⟨p, finish, hsetup', hlink, hemit', hshader⟩

/-! ## Emissions that End Well -/

variable {stage : Stage}

/-- When its turn comes, a node whose emission ends well is emitted. -/
theorem exists_emitOutcome {before after : List Nat} {index : Nat} {node : LibraryNode}
    (state : EmitState) (hwired : WiredToOutputs graph nodes)
    (horder : ((libraryModel name graph nodes).graph stage).schedule = .ok (before ++ index :: after))
    (hdeclared : ∀ earlier ∈ before, ∀ handle, computedAt graph nodes stage earlier = some handle →
      handle ∈ state.declared)
    (hnode : (nodes stage)[index]? = some node)
    (hok : ((node.emit { stage, graph := graph stage, index }).emission state.place).result = .ok ()) :
    ∃ outcome, ((libraryModel name graph nodes).graph stage).emitOutcome state index =
      .ok outcome := by
  have hreadable : ∀ h ∈ node.inputs, state.readable h = true :=
    readable_inputs hwired horder hdeclared hnode
  obtain ⟨after, -, hrun⟩ :=
    run_eq_emission (node.emit_writes { stage, graph := graph stage, index }).1 hreadable rfl
  rw [hok] at hrun
  refine ⟨(after.code, after.declared), ?_⟩
  rw [StageGraph.emitOutcome, getElem?_libraryModel_of_eq_some name graph hnode]
  simp only [LibraryNode.toNode, EStateM.run, hrun]

/-- The emissions of the nodes of a stage end well for a target. -/
def EmitsWell (target : Target) (graph : Stage → Nat) (nodes : Stage → List LibraryNode)
    (stage : Stage) : Prop :=
  ∀ (index : Nat) (node : LibraryNode), (nodes stage)[index]? = some node →
    ((node.emit { stage, graph := graph stage, index }).emission
      { target, stage := stage.mask }).result = .ok ()

/-- Nodes whose emissions end well are emitted, from any progress on. -/
theorem exists_performed_emits {before after : List Nat} (hwired : WiredToOutputs graph nodes)
    (horder : ((libraryModel name graph nodes).graph stage).schedule = .ok (before ++ after))
    (hok : EmitsWell input.target graph nodes stage) (p : Progress) :
    ∃ finish, Performed (libraryModel name graph nodes) input p
      (callSteps (.emit stage) before) finish := by
  induction before using List.reverseRecOn generalizing after with
  | nil => exact ⟨p, rfl⟩
  | append_singleton before index ih =>
    rw [List.append_assoc, List.singleton_append] at horder
    obtain ⟨reached, hreached⟩ := ih horder
    -- The nodes before have declared what they compute.
    obtain ⟨-, hnodes⟩ := emits_library hwired horder hreached
    obtain ⟨node, hnode⟩ := exists_node_of_mem_schedule horder
      (List.mem_append_right before List.mem_cons_self)
    obtain ⟨outcome, houtcome⟩ := exists_emitOutcome
      (reached.emitState input.target stage) hwired horder
      (fun earlier hearlier => (hnodes earlier hearlier).2) hnode (hok index node hnode)
    refine ⟨reached.withCode outcome.1 outcome.2 stage, ?_⟩
    rw [callSteps, List.map_append]
    refine hreached.append (performed_cons_iff.2 ⟨_, ?_, rfl⟩)
    simp only [CompileStep.perform, houtcome]

/-- A model of wired nodes compiles if its stages can be set up, their interfaces match, and the
emissions of its nodes end well. The shader has registered what the setups have. -/
theorem exists_compile_of_emissions (hwired : WiredToOutputs graph nodes)
    (hsetup : Performed (libraryModel name graph nodes) input (.start input)
      ((libraryModel name graph nodes).setupSteps .vertex
        ++ (libraryModel name graph nodes).setupSteps .fragment) p)
    (hlink : verifyLink p.vertex.registry p.fragment.registry = .ok ())
    (hok : ∀ stage, EmitsWell input.target graph nodes stage) :
    ∃ shader, ((libraryModel name graph nodes).compile input).outcome = .ok shader ∧
      ∀ stage, (shader.program stage).registry = p.registry stage := by
  have horder (stage : Stage) : ((libraryModel name graph nodes).graph stage).schedule =
      .ok ((libraryModel name graph nodes).order stage ++ []) := by
    rw [List.append_nil]
    obtain ⟨middle, hvertex, hfragment⟩ := performed_append_iff.1 hsetup
    cases stage with
    | vertex => exact schedule_of_performed hvertex
    | fragment => exact schedule_of_performed hfragment
  obtain ⟨middle, hvertex⟩ := exists_performed_emits hwired (horder .vertex) (hok .vertex) p
  obtain ⟨finish, hfragment⟩ :=
    exists_performed_emits hwired (horder .fragment) (hok .fragment) middle
  refine ⟨finish.shader _ _,
    compile_eq_ok_iff.2 ⟨p, finish, hsetup, hlink, hvertex.append hfragment, rfl⟩, fun stage => ?_⟩
  obtain ⟨vertexCode, vertexDeclared, rfl⟩ := performed_emits hvertex
  obtain ⟨fragmentCode, fragmentDeclared, rfl⟩ := performed_emits hfragment
  cases stage <;> rfl

/-- What nodes write for a target, one after another from a position on. -/
def emittedFrom (target : Target) (graph : Stage → Nat) (stage : Stage) (first : Nat)
    (nodes : List LibraryNode) : List Code :=
  (nodes.zipIdx first).flatMap fun (node, index) =>
    ((node.emit { stage, graph := graph stage, index }).emission
      { target, stage := stage.mask }).statements

theorem emittedFrom_append {target : Target} (first : Nat) (front back : List LibraryNode) :
    emittedFrom target graph stage first (front ++ back) =
      emittedFrom target graph stage first front
        ++ emittedFrom target graph stage (first + front.length) back := by
  rw [emittedFrom, List.zipIdx_append, List.flatMap_append, emittedFrom, emittedFrom]

/-- If nodes are emitted in order of registration and their emissions end well, the main routine is what
they write. -/
theorem main_eq_emittedFrom {shader : Shader} (hwired : WiredToOutputs graph nodes)
    (h : ((libraryModel name graph nodes).compile input).outcome = .ok shader)
    (horder : (libraryModel name graph nodes).order stage = List.range (nodes stage).length)
    (hok : EmitsWell input.target graph nodes stage) :
    (shader.program stage).code.main = emittedFrom input.target graph stage 0 (nodes stage) := by
  obtain ⟨-, hmain, -⟩ := main_eq_of_compile hwired h stage
  rw [hmain, horder, emittedFrom, List.range_eq_range', ← List.zipIdx_map_snd 0 (nodes stage),
    List.flatMap_map]
  refine List.flatMap_congr fun placed hplaced => ?_
  have hnode : (nodes stage)[placed.2]? = some placed.1 := List.mem_zipIdx_iff_getElem?.1 hplaced
  rw [statementsAt, hnode, Option.map_some, Option.getD_some,
    LibraryNode.statements_eq (hok _ _ hnode)]

end Library

end ShaderWeave
