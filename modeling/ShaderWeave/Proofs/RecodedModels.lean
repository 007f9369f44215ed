import ShaderWeave.Studio
import ShaderWeave.Model.Manifest
import ShaderWeave.Proofs.ChannelSlots
import ShaderWeave.Proofs.Recoding

/-!
# Compiling Models under a Recoding

A model whose graphs get other numbers, and that is compiled for another target, compiles to the same.
The order of its nodes is the same, because a dependency is a node of its graph under all numbers or
none. Each step of the compilation makes the same of the progress, recoded, and therefore all steps do.
What is left of the numbers in a shader are the owners of handles in its code, which no text shows, and
what is left of the target are the textures that are sampled, and the syntax of declarations.

## Main definitions

* `StageGraph.Recodes`, `Model.Recodes`: a graph, or a model, is another one, recoded.
* `Progress.recode`, `Shader.recode`: what has come about, recoded.
* `Shader.SameData`: two shaders have the same interface, layouts and updates.
* `Shader.LooksLike`: an application cannot tell two shaders apart.
* `SameOutcome`: the same failure, or shaders that look alike.

## Main results

* `StageGraph.Recodes.schedule_eq`: nodes are ordered alike.
* `perform_recodes`, `compile_recodes`: a step, and a compilation, recoded.
* `Design.sameOutcome_renumber`: a design under new numbers compiles to the same.
* `Design.compile_retarget`: compiling for another target gives the same shader, recoded.
-/

namespace ShaderWeave

/-! ## Recoded Graphs -/

/-- The second graph is the first one, recoded. -/
structure StageGraph.Recodes (r : Recoding) (first second : StageGraph) : Prop where
  /-- It is a graph of the same stage. -/
  stage : second.stage = first.stage
  /-- It has the new number. -/
  number : second.id = r.numbering first.stage first.id
  /-- It has the same nodes, recoded. -/
  nodes : List.Forall₂ (Node.Recodes r) first.nodes second.nodes

namespace StageGraph.Recodes

variable {r : Recoding} {first second : StageGraph}

/-- At each position stands the same node, recoded, or none. -/
theorem getElem?_nodes (h : Recodes r first second) (index : Nat) :
    first.nodes[index]? = none ∧ second.nodes[index]? = none ∨
      ∃ node node', first.nodes[index]? = some node ∧ second.nodes[index]? = some node' ∧
        Node.Recodes r node node' := by
  have hnodes := h.nodes
  generalize first.nodes = nodes, second.nodes = nodes' at hnodes
  induction hnodes generalizing index with
  | nil => exact .inl ⟨rfl, rfl⟩
  | cons hnode _ ih =>
    cases index with
    | zero => exact .inr ⟨_, _, rfl, rfl, hnode⟩
    | succ index => exact ih index

theorem nodeName_eq (h : Recodes r first second) (index : Nat) :
    second.nodeName index = first.nodeName index := by
  unfold nodeName
  obtain ⟨hnone, hnone'⟩ | ⟨node, node', hsome, hsome', hnode⟩ := h.getElem?_nodes index
  · rw [hnone, hnone']
  · rw [hsome, hsome', Option.map_some, Option.map_some, hnode.name]

theorem checkStages_eq (h : Recodes r first second) :
    second.checkStages = first.checkStages := by
  have hnodes := h.nodes
  unfold checkStages
  rw [h.stage]
  generalize first.nodes = nodes, second.nodes = nodes' at hnodes
  induction hnodes with
  | nil => rfl
  | cons hnode _ ih =>
    simp only [List.forM_eq_forM, List.forM_cons] at ih ⊢
    rw [ih, hnode.name, hnode.allowed]

/-- A dependency is a node of its graph under all numbers or none, since graphs that differ get
different numbers. -/
theorem checkDependency_eq (hfaithful : r.numbering.Faithful) (h : Recodes r first second)
    {node node' : Node} (hnode : Node.Recodes r node node') (index : Nat)
    (dependency : NodeId) :
    second.checkDependency node' index (dependency.renumber r.numbering) =
      first.checkDependency node index dependency := by
  obtain ⟨stage, graph, position⟩ := dependency
  have hlength : second.nodes.length = first.nodes.length := h.nodes.length_eq.symm
  simp only [checkDependency, NodeId.renumber, h.stage, h.number, hlength, hnode.name]
  -- Numbers are compared only within the stage, where graphs that differ get different ones.
  by_cases hstage : stage = first.stage
  · rw [hstage]
    simp only [(hfaithful first.stage).ne_iff]
  · simp only [hstage, ne_eq, not_false_eq_true, if_true]

theorem dependenciesAt_eq (hfaithful : r.numbering.Faithful) (h : Recodes r first second)
    {node node' : Node} (hnode : Node.Recodes r node node') (index : Nat) :
    second.dependenciesAt node' index = first.dependenciesAt node index := by
  rw [dependenciesAt, dependenciesAt, hnode.dependencies]
  cases node.dependencies with
  | none => rfl
  | some dependencies =>
    simp only [Option.map_some, List.mapM_map, Function.comp_def,
      checkDependency_eq hfaithful h hnode]

theorem dependencyTable_eq (hfaithful : r.numbering.Faithful)
    (h : Recodes r first second) : second.dependencyTable = first.dependencyTable := by
  have hstep {node node' : Node} (hnode : Node.Recodes r node node') (index : Nat) :=
    dependenciesAt_eq hfaithful h hnode index
  have hnodes := h.nodes
  unfold dependencyTable
  generalize first.nodes = nodes, second.nodes = nodes' at hnodes
  -- The positions of the rest do not start at zero.
  generalize 0 = start
  induction hnodes generalizing start with
  | nil => rfl
  | cons hnode _ ih => simp only [List.zipIdx_cons, List.mapM_cons, hstep hnode, ih]

/-- Nodes are generated in the same order under all numbers, or cannot be ordered for the same
reason. -/
theorem schedule_eq (hfaithful : r.numbering.Faithful) (h : Recodes r first second) :
    second.schedule = first.schedule := by
  simp only [schedule, dependencyTable_eq hfaithful h, h.nodeName_eq, h.stage]

theorem setupOutcome_eq (h : Recodes r first second) (registry : Registry) (index : Nat) :
    second.setupOutcome registry index = first.setupOutcome registry index := by
  unfold setupOutcome
  obtain ⟨hnone, hnone'⟩ | ⟨node, node', hsome, hsome', hnode⟩ := h.getElem?_nodes index
  · rw [hnone, hnone']
  · simp only [hsome, hsome', hnode.setup, hnode.name, h.stage]

/-- A node writes the same code, recoded. -/
theorem emitOutcome_eq (h : Recodes r first second) (state : EmitState) (index : Nat) :
    second.emitOutcome (state.recode r) index =
      (first.emitOutcome state index).map fun result =>
        (result.1.recode r, result.2.map (Handle.renumber r.numbering)) := by
  unfold emitOutcome
  obtain ⟨hnone, hnone'⟩ | ⟨node, node', hsome, hsome', hnode⟩ := h.getElem?_nodes index
  · rw [hnone, hnone']
    rfl
  · have hrun : node'.emit.run.run (state.recode r) =
        recodeResult r (fun value => value) (node.emit.run.run state) := hnode.emit state
    -- Both runs end alike, and a failure names the node and its stage.
    simp only [hsome, hsome', hrun, hnode.name, h.stage]
    cases node.emit.run.run state <;> rfl

end StageGraph.Recodes

/-! ## Steps of a Compilation -/

/-- The input, recoded. -/
def CompileInput.recode (r : Recoding) (input : CompileInput) : CompileInput :=
  { input.renumber r.numbering with target := r.target input.target }

/-- The progress, recoded. -/
def Progress.recode (r : Recoding) (p : Progress) : Progress where
  vertex := { p.vertex with code := p.vertex.code.recode r }
  fragment := { p.fragment with code := p.fragment.code.recode r }
  declared := p.declared.map (Handle.renumber r.numbering)

/-- The second model is the first one, recoded. -/
structure Model.Recodes (r : Recoding) (first second : Model) : Prop where
  /-- It has the same name. -/
  name : second.name = first.name
  /-- It has the same graphs, recoded. -/
  graph : ∀ stage, (first.graph stage).Recodes r (second.graph stage)

section Compilation

variable {r : Recoding} {first second : Model}

theorem registry_recode (p : Progress) (stage : Stage) :
    (p.recode r).registry stage = p.registry stage := by
  cases stage <;> rfl

theorem emitState_recode (p : Progress) (target : Target) (stage : Stage) :
    (p.recode r).emitState (r.target target) stage = (p.emitState target stage).recode r := by
  cases stage <;> rfl

/-- A step makes the same of the progress, recoded. -/
theorem perform_recodes (hfaithful : r.numbering.Faithful) (h : Model.Recodes r first second)
    (input : CompileInput) (p : Progress) (step : CompileStep) :
    step.perform second (input.recode r) (p.recode r) =
      (step.perform first input p).map (·.recode r) := by
  cases step with
  | checkStages stage =>
    simp only [CompileStep.perform, (h.graph stage).checkStages_eq]
    cases (first.graph stage).checkStages <;> cases stage <;> rfl
  | schedule stage =>
    simp only [CompileStep.perform, (h.graph stage).schedule_eq hfaithful]
    cases (first.graph stage).schedule <;> rfl
  | link =>
    have hvertex : (p.recode r).vertex.registry = p.vertex.registry := rfl
    have hfragment : (p.recode r).fragment.registry = p.fragment.registry := rfl
    simp only [CompileStep.perform, hvertex, hfragment]
    cases verifyLink p.vertex.registry p.fragment.registry <;> rfl
  | call made =>
    cases made with
    | setup stage index =>
      simp only [CompileStep.perform, registry_recode, (h.graph stage).setupOutcome_eq]
      cases (first.graph stage).setupOutcome (p.registry stage) index <;> cases stage <;> rfl
    | update stage index =>
      have hparameters : (input.recode r).parameters = input.parameters := rfl
      simp only [CompileStep.perform, registry_recode, hparameters]
      cases updateOutcome input.parameters (p.registry stage).blocks index <;> rfl
    | emit stage index =>
      have htarget : (input.recode r).target = r.target input.target := rfl
      simp only [CompileStep.perform, htarget, emitState_recode, (h.graph stage).emitOutcome_eq]
      cases (first.graph stage).emitOutcome (p.emitState input.target stage) index <;>
        cases stage <;> rfl

/-- A map that commutes with single steps commutes with many. -/
theorem foldlM_map_comm {m : Type → Type} [Monad m] [LawfulMonad m] {σ α : Type} {image : σ → σ}
    {step step' : σ → α → m σ} (h : ∀ state x, step' (image state) x = image <$> step state x)
    (state : σ) (xs : List α) : xs.foldlM step' (image state) = image <$> xs.foldlM step state := by
  induction xs generalizing state with
  | nil => simp
  | cons x xs ih => simp [h, ih]

/-- The steps of a stage's setup are the same under all numbers. -/
theorem setupSteps_eq (hfaithful : r.numbering.Faithful) (h : Model.Recodes r first second)
    (stage : Stage) : second.setupSteps stage = first.setupSteps stage := by
  simp only [Model.setupSteps, Model.order, (h.graph stage).schedule_eq hfaithful]

theorem foldlM_perform_eq (hfaithful : r.numbering.Faithful) (h : Model.Recodes r first second)
    (input : CompileInput) (steps : List CompileStep) :
    steps.foldlM (CompileStep.perform second (input.recode r)) (.start (input.recode r)) =
      (steps.foldlM (CompileStep.perform first input) (.start input)).map (·.recode r) :=
  foldlM_map_comm (perform_recodes hfaithful h input) (.start input) steps

theorem agenda_eq (hfaithful : r.numbering.Faithful) (h : Model.Recodes r first second)
    (input : CompileInput) : second.agenda (input.recode r) = first.agenda input := by
  -- One trial is made for each block, and registries know neither numbers of graphs nor targets.
  have hblocks (stage : Stage) :
      second.blockCount (input.recode r) stage = first.blockCount input stage := by
    unfold Model.blockCount
    rw [setupSteps_eq hfaithful h, setupSteps_eq hfaithful h, foldlM_perform_eq hfaithful h input]
    cases (first.setupSteps .vertex ++ first.setupSteps .fragment).foldlM
      (CompileStep.perform first input) (.start input) with
    | error failure => rfl
    | ok p => cases stage <;> rfl
  simp only [Model.agenda, Model.declareSteps, Model.updateSteps, Model.emitSteps, Model.order,
    hblocks, setupSteps_eq hfaithful h, (h.graph _).schedule_eq hfaithful]

end Compilation

/-! ## Recoded Shaders -/

/-- The stage, recoded. -/
def StageProgram.recode (r : Recoding) (program : StageProgram) : StageProgram :=
  { program with code := program.code.recode r }

/-- The shader, recoded. -/
def Shader.recode (r : Recoding) (shader : Shader) : Shader where
  name := shader.name
  target := r.target shader.target
  vertex := shader.vertex.recode r
  fragment := shader.fragment.recode r

/-- A recoded model fails for the same reason, or gives the same shader, recoded. -/
theorem compile_recodes {r : Recoding} (hfaithful : r.numbering.Faithful) {first second : Model}
    (h : Model.Recodes r first second) (input : CompileInput) :
    (second.compile (input.recode r)).outcome =
      (first.compile input).outcome.map (·.recode r) := by
  rw [compile_outcome_eq, compile_outcome_eq, agenda_eq hfaithful h,
    foldlM_perform_eq hfaithful h, h.name]
  cases (first.agenda input).foldlM (CompileStep.perform first input) (.start input) <;> rfl

/-- Two shaders have the same interface, layouts and updates. -/
structure Shader.SameData (first second : Shader) : Prop where
  /-- They have the same name. -/
  name : first.name = second.name
  /-- They read the same attributes at the same locations. -/
  attributes : first.attributes = second.attributes
  /-- They have the same interface between the stages. -/
  interface : first.interface = second.interface
  /-- Their interfaces take the same number of locations. -/
  interfaceSlotCount : first.interfaceSlotCount = second.interfaceSlotCount
  /-- They bind the same blocks, push constants and samplers, with the same layouts. -/
  bindings : first.bindings = second.bindings
  /-- They begin with the same staging buffers. -/
  stagingBuffers : first.stagingBuffers = second.stagingBuffers
  /-- A draw refreshes each block alike. -/
  updateBlock : ∀ parameters draw index staging,
    first.updateBlockIn parameters draw index staging =
      second.updateBlockIn parameters draw index staging
  /-- A draw refreshes the staging buffers alike. -/
  updateUniforms : ∀ parameters draw staging,
    first.updateUniforms parameters draw staging = second.updateUniforms parameters draw staging
  /-- They write the same push constants. -/
  writePushConstants : ∀ parameters out,
    first.writePushConstants parameters out = second.writePushConstants parameters out

theorem Shader.sameData_recode (r : Recoding) (shader : Shader) :
    shader.SameData (shader.recode r) where
  name := rfl
  attributes := rfl
  interface := rfl
  interfaceSlotCount := rfl
  bindings := rfl
  stagingBuffers := rfl
  updateBlock _ _ _ _ := rfl
  updateUniforms _ _ _ := by
    rw [updateUniforms_eq, updateUniforms_eq]
    rfl
  writePushConstants _ _ := rfl

/-- An application cannot tell two shaders apart. -/
structure Shader.LooksLike (first second : Shader) : Prop extends first.SameData second where
  /-- They are compiled for the same target. -/
  target : first.target = second.target
  /-- They have the same sources. -/
  source : ∀ mask, first.source mask = second.source mask

/-- Code does not show the numbers. -/
@[simp]
theorem Code.render_renumber (numbering : Numbering) (code : Code) :
    (code.recode numbering.recoding).render = code.render := by
  have hpiece (piece : Piece) : (piece.recode numbering.recoding).render = piece.render := by
    cases piece <;> rfl
  simp [Code.render, Code.recode, Function.comp_def, hpiece]

theorem StageProgram.source_renumber (numbering : Numbering) (target : Target)
    (program : StageProgram) :
    (program.recode numbering.recoding).source target = program.source target := by
  -- Only the main routine has code with handles in it; all else comes from the registry.
  have hlines : (program.recode numbering.recoding).mainLines = program.mainLines := by
    show (program.code.fragments.map (Code.recode numbering.recoding)).reverse.flatMap _ =
      program.code.fragments.reverse.flatMap _
    rw [← List.map_reverse, List.flatMap_map]
    exact List.flatMap_congr fun fragment _ => by rw [Code.lines, Code.render_renumber, Code.lines]
  have hmain : (program.recode numbering.recoding).mainRoutine = program.mainRoutine := by
    rw [mainRoutine, mainRoutine, hlines]
  have hsections : (program.recode numbering.recoding).sections target = program.sections target := by
    rw [sections, sections, hmain]
    rfl
  rw [source, source, hsections]

/-- New numbers alone do not show. -/
theorem Shader.looksLike_renumber (numbering : Numbering) (shader : Shader) :
    shader.LooksLike (shader.recode numbering.recoding) where
  toSameData := shader.sameData_recode numbering.recoding
  target := rfl
  source mask := by
    have hsource (program : StageProgram) := program.source_renumber numbering shader.target
    simp only [Shader.source, Shader.recode, Numbering.recoding] at hsource ⊢
    simp only [id_eq, hsource]

/-- Two compilations fail for the same reason, or give shaders that an application cannot tell
apart. -/
inductive SameOutcome : Except CompileFailure Shader → Except CompileFailure Shader → Prop where
  /-- Both fail for the same reason. -/
  | failed (failure : CompileFailure) : SameOutcome (.error failure) (.error failure)
  /-- Both succeed. -/
  | compiled {first second : Shader} (h : first.LooksLike second) :
    SameOutcome (.ok first) (.ok second)

/-! ## Designs under Other Numbers -/

section Designs

variable (numbering : Numbering)

theorem Design.nodes_renumber (d : Design) (stage : Stage) :
    (d.renumber numbering).nodes stage = (d.nodes stage).map (·.renumber numbering) := by
  cases stage <;> rfl

theorem Design.graphOf_renumber (d : Design) (stage : Stage) :
    (d.renumber numbering).graphOf stage = numbering stage (d.graphOf stage) := by
  cases stage <;> rfl

theorem Design.withNodes_renumber (d : Design) (stage : Stage) (nodes : List DesignNode) :
    (d.renumber numbering).withNodes stage (nodes.map (·.renumber numbering)) =
      (d.withNodes stage nodes).renumber numbering := by
  cases stage <;> rfl

theorem Design.add_renumber (d : Design) (stage : Stage) (node : DesignNode) :
    (d.renumber numbering).add stage (node.renumber numbering) =
      (d.add stage node).renumber numbering := by
  rw [add, add, ← withNodes_renumber, nodes_renumber, List.map_append, List.map_singleton]

theorem Design.nextId_renumber (d : Design) (stage : Stage) :
    (d.renumber numbering).nextId stage = (d.nextId stage).renumber numbering := by
  rw [nextId, nodes_renumber, graphOf_renumber, List.length_map]
  rfl

theorem Design.wire?_renumber (d : Design) (stage : Stage) (index : Nat) (socket : Socket)
    (h : Handle) :
    (d.renumber numbering).wire? stage index socket (h.renumber numbering) =
      (d.wire? stage index socket h).map (·.renumber numbering) := by
  rw [wire?, wire?, nodes_renumber, List.getElem?_map]
  cases (d.nodes stage)[index]? with
  | none => rfl
  | some node =>
    show ((node.renumber numbering).wire socket (h.renumber numbering)).bind _ =
      Option.map _ ((node.wire socket h).bind _)
    rw [DesignNode.wire_renumber]
    cases node.wire socket h with
    | none => rfl
    | some wired =>
      show some _ = some ((d.withNodes stage ((d.nodes stage).set index wired)).renumber numbering)
      rw [← withNodes_renumber, List.map_set]

/-- The model of a design under new numbers is that of the design, recoded. -/
theorem Design.model_recodes {r : Recoding} (hfaithful : r.numbering.Faithful) (d : Design) :
    Model.Recodes r d.model (d.renumber r.numbering).model where
  name := rfl
  graph stage := by
    have hgraph : StageGraph.Recodes r (d.stageGraph stage)
        ((d.renumber r.numbering).stageGraph stage) := by
      refine ⟨rfl, d.graphOf_renumber r.numbering stage, ?_⟩
      -- Each node is made from the same entry, with the identity that it has under the new numbers.
      simp only [stageGraph]
      rw [nodes_renumber, graphOf_renumber, List.zipIdx_map, List.map_map,
        List.forall₂_map_left_iff, List.forall₂_map_right_iff, List.forall₂_same]
      intro entry _
      exact entry.1.toNode_recodes hfaithful { stage, graph := d.graphOf stage, index := entry.2 }
    cases stage <;> exact hgraph

/-- A design under new numbers fails for the same reason, or gives a shader that looks alike. -/
theorem Design.sameOutcome_renumber {numbering : Numbering} (hfaithful : numbering.Faithful)
    (d : Design) (input : CompileInput) :
    SameOutcome (d.model.compile input).outcome
      ((d.renumber numbering).model.compile (input.renumber numbering)).outcome := by
  have hrecodes : ((d.renumber numbering).model.compile (input.renumber numbering)).outcome =
      (d.model.compile input).outcome.map (·.recode numbering.recoding) :=
    compile_recodes hfaithful (d.model_recodes (r := numbering.recoding) hfaithful) input
  rw [hrecodes]
  cases (d.model.compile input).outcome with
  | error failure => exact .failed failure
  | ok shader => exact .compiled (shader.looksLike_renumber numbering)

end Designs

/-! ## Designs for Another Target -/

theorem CompileInput.recode_target (target : Target) (input : CompileInput) :
    input.recode target.recoding = { input with target } := by
  simp [CompileInput.recode, CompileInput.renumber, Target.recoding]

/-- Compiling for another target fails for the same reason, or gives the same shader, recoded for the
target. -/
theorem Design.compile_retarget (d : Design) (input : CompileInput) (target : Target) :
    (d.model.compile { input with target }).outcome =
      (d.model.compile input).outcome.map (·.recode target.recoding) := by
  have hfaithful : target.recoding.numbering.Faithful := Numbering.faithful_unchanged
  have hrecodes := compile_recodes hfaithful (d.model_recodes hfaithful) input
  have hdesign : d.renumber target.recoding.numbering = d := d.renumber_unchanged
  rwa [hdesign, CompileInput.recode_target] at hrecodes

/-- A shader is recoded for the target that it is compiled for. -/
theorem Design.recode_of_compile {d : Design} {input : CompileInput} {shader : Shader}
    (h : (d.model.compile input).outcome = .ok shader) :
    shader.recode input.target.recoding = shader := by
  have hsame := d.compile_retarget input input.target
  rw [h] at hsame
  exact (Except.ok.inj hsame).symm

end ShaderWeave
