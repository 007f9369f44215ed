import ShaderWeave.Proofs.RecodedModels

/-!
# The Counter of Graphs

The counter that numbers graphs can start anywhere, and what comes of compiling does not depend on where.
With another start a script builds the same designs under new numbers, each step of it and so the whole
script, and a design under new numbers compiles to the same.

The numbers do matter where nodes of one model are wired to another one. Graphs of different models have
different numbers, so such a node is no dependency, whatever its stage and position.

## Main definitions

* `Designing.Renumbers`: one way of designing does under new numbers what another does.
* `Studio.restart`: a studio with the counter started at another number.
* `Studio.Numbered`: every model has the numbers that the counter gave.
* `Design.Refuses`: a dependency is an error wherever it is reported.

## Main results

* `Studio.step?_restart`, `Studio.build?_eq_map_restart`: a step, and a script, with another counter.
* `Studio.Numbered.step`, `Studio.Numbered.run`: what a step, and a script, keeps of the numbers.
* `Studio.outcome_independent_of_counter`: compiling does not depend on the counter, and refuses nodes of
  other models.
-/

namespace ShaderWeave

/-! ## Studios with Other Counters -/

/-- The workspace under new numbers. -/
def Workspace.renumber (numbering : Numbering) (ws : Workspace) : Workspace :=
  { ws with design := ws.design.renumber numbering }

namespace Designing

/-- The second way of designing does under new numbers what the first one does under the old ones, and
returns `image` of what it returns. -/
def Renumbers {α β : Type} (numbering : Numbering) (image : α → β) (first : Designing α)
    (second : Designing β) : Prop :=
  ∀ ws : Workspace, second.run (ws.renumber numbering) =
    (first.run ws).map image (Workspace.renumber numbering)

/-- Lights with shadows under new numbers. -/
def ShadowedLights.renumber (numbering : Numbering) (lights : ShadowedLights) : ShadowedLights where
  vertex := lights.vertex.renumber numbering
  fragment := lights.fragment.renumber numbering
  channel := lights.channel
  depthTextures := lights.depthTextures.renumber numbering

namespace Renumbers

variable {α β γ δ : Type} {numbering : Numbering}

theorem done (image : α → β) (value : α) :
    Renumbers numbering image (pure value) (pure (image value)) := fun _ => rfl

theorem bind {image : α → β} {image' : γ → δ} {first : Designing α} {second : Designing β}
    {next : α → Designing γ} {next' : β → Designing δ} (hfirst : Renumbers numbering image first second)
    (hnext : ∀ value, Renumbers numbering image' (next value) (next' (image value))) :
    Renumbers numbering image' (first >>= next) (second >>= next') := by
  intro ws
  rw [StateT.run_bind, StateT.run_bind, hfirst ws]
  exact hnext (first.run ws).1 (first.run ws).2

theorem add (stage : Stage) (node : DesignNode) :
    Renumbers numbering (NodeId.renumber numbering) (Designing.add stage node)
      (Designing.add stage (node.renumber numbering)) := by
  intro ws
  have hadd := congrArg (fun design => { ws with design })
    (ws.design.add_renumber numbering stage node)
  exact Prod.ext (ws.design.nextId_renumber numbering stage) hadd

theorem addForOutput (stage : Stage) (node : LibraryNode) :
    Renumbers numbering (Handle.renumber numbering) (Designing.addForOutput stage node)
      (Designing.addForOutput stage (node.renumber numbering)) := by
  refine (add stage (.library node)).bind fun id => ?_
  have hfirst (outputs : List (String × Handle)) :
      ((outputs.map fun output => (output.1, output.2.renumber numbering)).head?.map
        fun output : String × Handle => output.2).getD default =
      Handle.renumber numbering ((outputs.head?.map (·.2)).getD default) := by
    cases outputs <;> rfl
  rw [LibraryNode.outputs_renumber, hfirst]
  exact done _ _

theorem newChannel (var : Variable) :
    Renumbers numbering id (Designing.newChannel var) (Designing.newChannel var) := fun _ => rfl

theorem wire (stage : Stage) (index : Nat) (socket : Socket) (h : Handle) :
    Renumbers numbering id (Designing.wire stage index socket h)
      (Designing.wire stage index socket (h.renumber numbering)) := by
  intro ws
  simp only [Designing.wire, StateT.run, Workspace.renumber, Design.wire?_renumber]
  cases ws.design.wire? stage index socket h <;> rfl

theorem stageInterface (var : Variable) (input : Handle) :
    Renumbers numbering (Handle.renumber numbering) (Designing.stageInterface var input)
      (Designing.stageInterface var (input.renumber numbering)) :=
  (newChannel var).bind fun channel =>
    (add .vertex (.library (.endpoint (.producer channel input)))).bind fun _ =>
      addForOutput .fragment (.endpoint (.consumer channel var))

theorem addShadowedLights (max : UInt32) :
    Renumbers numbering (ShadowedLights.renumber numbering) (Designing.addShadowedLights max)
      (Designing.addShadowedLights max) :=
  (newChannel (Shadow.interfaceVar max)).bind fun channel =>
    (add .vertex (.library (.light (.newShadowVertex max channel)))).bind fun _ =>
      (addForOutput .fragment (.texture (.binding "depthTextures" (some max)))).bind fun textures =>
        (add .fragment (.library (.light (.shadowFragment max channel textures)))).bind fun _ =>
          done _ _

end Renumbers

end Designing

/-- An action comes to the same under new numbers. -/
theorem DesignAction.perform_renumbers (second first : Numbering) (action : DesignAction) :
    Designing.Renumbers second id (action.perform first) (action.perform (second.comp first)) := by
  cases action with
  | add stage node =>
    rw [perform, perform, ← DesignNode.renumber_renumber]
    exact (Designing.Renumbers.add stage _).bind fun _ => .done id true
  | wire stage index socket handle =>
    rw [perform, perform, ← Handle.renumber_renumber]
    exact .wire _ _ _ _
  | newChannel var => exact fun _ => rfl
  | newPushConstant var cell => exact fun _ => rfl
  | newSettings settings => exact fun _ => rfl
  | stageInterface var input =>
    rw [perform, perform, ← Handle.renumber_renumber]
    exact (Designing.Renumbers.stageInterface var _).bind fun _ => .done id true
  | addShadowedLights max =>
    exact (Designing.Renumbers.addShadowedLights max).bind fun _ => .done id true

namespace Studio

/-- The numbers that graphs get when the counter starts at another number. Numbers that no counter
gives stay. -/
def shift (first first' : UInt32) : Numbering := fun _ number =>
  if number < 2 ^ 32 then (number.toUInt32 - first + first').toNat else number

theorem faithful_shift (first first' : UInt32) : (shift first first').Faithful := by
  intro stage number number' h
  simp only [shift] at h
  -- The numbers of a counter go around in a circle, and never meet those that stay.
  have hlt (n : Nat) : (n.toUInt32 - first + first').toNat < 2 ^ 32 := UInt32.toNat_lt _
  by_cases hnumber : number < 2 ^ 32 <;> by_cases hnumber' : number' < 2 ^ 32
  · rw [if_pos hnumber, if_pos hnumber', UInt32.toNat_inj] at h
    have heq : number.toUInt32 = number'.toUInt32 := by grind
    have hvalue := congrArg UInt32.toNat heq
    rwa [Nat.toUInt32_eq, Nat.toUInt32_eq, UInt32.toNat_ofNat_of_lt' hnumber,
      UInt32.toNat_ofNat_of_lt' hnumber'] at hvalue
  · rw [if_pos hnumber, if_neg hnumber'] at h
    have := hlt number
    omega
  · rw [if_neg hnumber, if_pos hnumber'] at h
    have := hlt number'
    omega
  · rwa [if_neg hnumber, if_neg hnumber'] at h

/-- The studio with the counter started at another number. -/
def restart (first : UInt32) (studio : Studio) : Studio :=
  { studio with first, designs := studio.designs.map (·.renumber (shift studio.first first)) }

variable (first : UInt32) (studio : Studio)

theorem shift_number (stage : Stage) (order : Nat) :
    shift studio.first first stage (studio.number order) = (studio.restart first).number order := by
  have hlt : studio.number order < 2 ^ 32 := UInt32.toNat_lt _
  have hword : (studio.number order).toUInt32 = studio.first + .ofNat order := UInt32.ofNat_toNat
  have hsum : studio.first + .ofNat order - studio.first + first = first + .ofNat order := by grind
  rw [shift, if_pos hlt, hword, hsum]
  rfl

theorem numbering_restart :
    (studio.restart first).numbering = (shift studio.first first).comp studio.numbering := by
  funext stage order
  exact (shift_number first studio stage order).symm

/-- The next model gets the numbers that follow. -/
theorem nextDesign_restart (name : String) :
    (studio.restart first).nextDesign name =
      (studio.nextDesign name).renumber (shift studio.first first) := by
  have hlength : (studio.restart first).designs.length = studio.designs.length := List.length_map _
  rw [nextDesign, hlength, ← shift_number first studio .vertex,
    ← shift_number first studio .fragment]
  rfl

/-- A step comes to the same, wherever the counter starts. -/
theorem step?_restart (step : BuildStep) :
    (studio.restart first).step? step = (studio.step? step).map (restart first) := by
  cases step with
  | newModel name =>
    show some { studio.restart first with
      designs := (studio.restart first).designs ++ [(studio.restart first).nextDesign name] } =
        some (restart first { studio with designs := studio.designs ++ [studio.nextDesign name] })
    rw [nextDesign_restart]
    simp [restart]
  | act model action =>
    -- The numbers that the action takes for its handles are shifted with the workspace.
    have hws : (studio.restart first).workspace? model =
        (studio.workspace? model).map (Workspace.renumber (shift studio.first first)) := by
      simp only [workspace?, restart, List.getElem?_map, Option.map_map]
      rfl
    simp only [step?, hws, numbering_restart]
    cases studio.workspace? model with
    | none => rfl
    | some ws =>
      have hperform := action.perform_renumbers (shift studio.first first) studio.numbering ws
      simp only [Option.map_some, Option.bind_eq_bind, Option.bind_some, hperform]
      obtain ⟨performed, ws'⟩ := (action.perform studio.numbering).run ws
      cases performed with
      | false => rfl
      | true =>
        show some _ = some ((studio.withWorkspace model ws').restart first)
        simp [withWorkspace, restart, Workspace.renumber, List.map_set]

/-- A script comes to the same, wherever the counter starts. -/
theorem build?_eq_map_restart (first first' : UInt32) (script : List BuildStep) :
    build? first' script = (build? first script).map (restart first') :=
  foldlM_map_comm (step?_restart first') { first } script

/-! ## Models Keep Their Numbers -/

/-- Every model has the numbers that the counter gave when it was made. -/
def Numbered (studio : Studio) : Prop :=
  ∀ model design, studio.designs[model]? = some design →
    design.graphOf .vertex = studio.number (2 * model) ∧
      design.graphOf .fragment = studio.number (2 * model + 1)

end Studio

theorem Design.graphOf_add (d : Design) (stage : Stage) (node : DesignNode) :
    (d.add stage node).graphOf = d.graphOf := by
  cases stage <;> rfl

/-- No action on a model changes the numbers of its graphs. -/
theorem DesignAction.graphOf_perform (numbering : Numbering) (action : DesignAction)
    (ws : Workspace) :
    ((action.perform numbering).run ws).2.design.graphOf = ws.design.graphOf := by
  cases action with
  | add stage node => exact Design.graphOf_add ..
  | wire stage index socket handle =>
    have hwire {design : Design} (h : ws.design.wire? stage index socket
        (handle.renumber numbering) = some design) : design.graphOf = ws.design.graphOf := by
      obtain ⟨node, -, h⟩ := Option.bind_eq_some_iff.1 h
      obtain ⟨wired, -, h⟩ := Option.bind_eq_some_iff.1 h
      cases h
      cases stage <;> rfl
    simp only [DesignAction.perform, Designing.wire, StateT.run]
    split
    · exact hwire ‹_›
    · rfl
  | newChannel var => rfl
  | newPushConstant var cell => rfl
  | newSettings settings => rfl
  | stageInterface var input => rfl
  | addShadowedLights max => rfl

namespace Studio

variable {studio : Studio}

/-- An action changes the workspace of its model, and nothing else. -/
theorem step?_act_eq_some {studio' : Studio} {model : Nat} {action : DesignAction}
    (h : studio.step? (.act model action) = some studio') :
    ∃ ws after, studio.workspace? model = some ws ∧
      (action.perform studio.numbering).run ws = (true, after) ∧
      studio' = studio.withWorkspace model after := by
  obtain ⟨ws, hws, h⟩ := Option.bind_eq_some_iff.1 h
  cases hrun : (action.perform studio.numbering).run ws with
  | mk performed after =>
    rw [hrun] at h
    cases performed with
    | true => exact ⟨ws, after, hws, hrun, (Option.some.inj h).symm⟩
    | false => cases h

/-- A step keeps the numbers of the models, and counts on. -/
theorem Numbered.step {studio' : Studio} (h : studio.Numbered) {step : BuildStep}
    (hstep : studio.step? step = some studio') : studio'.Numbered := by
  intro model design hdesign
  cases step with
  | newModel name =>
    cases hstep
    by_cases hmodel : model < studio.designs.length
    · rw [List.getElem?_append_left hmodel] at hdesign
      exact h model design hdesign
    · -- Behind the models so far stands only the new one.
      rw [List.getElem?_append_right (Nat.le_of_not_lt hmodel),
        List.getElem?_singleton] at hdesign
      split at hdesign
      · have hlast : model = studio.designs.length := by omega
        cases hdesign
        subst hlast
        exact ⟨rfl, rfl⟩
      · cases hdesign
  | act changed action =>
    obtain ⟨ws, after, hws, hperform, rfl⟩ := step?_act_eq_some hstep
    obtain ⟨old, hold, rfl⟩ := Option.map_eq_some_iff.1 hws
    have hgraphs : after.design.graphOf = old.graphOf := by
      have hkept := action.graphOf_perform studio.numbering
        { design := old, channels := studio.channels, parameters := studio.parameters }
      rwa [hperform] at hkept
    by_cases hmodel : changed = model
    · subst hmodel
      have hlt : changed < studio.designs.length := (List.getElem?_eq_some_iff.1 hold).1
      rw [withWorkspace, List.getElem?_set_self hlt, Option.some.injEq] at hdesign
      subst hdesign
      rw [hgraphs]
      exact h changed old hold
    · rw [withWorkspace, List.getElem?_set_ne hmodel] at hdesign
      exact h model design hdesign

theorem Numbered.run {start : Studio} (hstart : start.Numbered) {script : List BuildStep}
    (h : script.foldlM step? start = some studio) : studio.Numbered := by
  induction script generalizing start with
  | nil =>
    cases h
    exact hstart
  | cons step rest ih =>
    rw [List.foldlM_cons] at h
    obtain ⟨next, hnext, hrest⟩ := Option.bind_eq_some_iff.1 h
    exact ih (hstart.step hnext) hrest

/-- Whatever a script builds, the models have the numbers that the counter gave. -/
theorem numbered_of_build {first : UInt32} {script : List BuildStep}
    (h : build? first script = some studio) : studio.Numbered := by
  have hempty : Numbered { first } := by simp [Numbered]
  exact hempty.run h

/-- Fewer than all numbers are given only once. -/
theorem number_injOn {order order' : Nat} (horder : order < 2 ^ 32) (horder' : order' < 2 ^ 32)
    (h : studio.number order = studio.number order') : order = order' := by
  simp only [number, UInt32.toNat_add, UInt32.toNat_ofNat_of_lt' horder,
    UInt32.toNat_ofNat_of_lt' horder'] at h
  have := studio.first.toNat_lt
  omega

/-- Graphs of different models have different numbers, as long as there are enough numbers. -/
theorem Numbered.graphOf_ne (h : studio.Numbered) (hcount : 2 * studio.designs.length ≤ 2 ^ 32)
    {model other : Nat} (hother : model ≠ other) {design foreign : Design}
    (hdesign : studio.designs[model]? = some design)
    (hforeign : studio.designs[other]? = some foreign) (stage stage' : Stage) :
    design.graphOf stage ≠ foreign.graphOf stage' := by
  obtain ⟨hmodel, -⟩ := List.getElem?_eq_some_iff.1 hdesign
  obtain ⟨hmodel', -⟩ := List.getElem?_eq_some_iff.1 hforeign
  obtain ⟨hvertex, hfragment⟩ := h model design hdesign
  obtain ⟨hvertex', hfragment'⟩ := h other foreign hforeign
  intro heq
  -- Two models are made of four graphs, whose places in the order are all different.
  cases stage <;> cases stage' <;>
    simp only [hvertex, hfragment, hvertex', hfragment'] at heq <;>
    have := number_injOn (by omega) (by omega) heq <;> omega

end Studio

/-- The node belongs to a graph of the design, at whatever position. -/
def Design.Owns (d : Design) (id : NodeId) : Prop :=
  id.graph = d.graphOf id.stage

/-- Nodes of other graphs are no nodes of a graph, even at a position that it has. -/
theorem StageGraph.checkDependency_of_graph_ne {g : StageGraph} {dependency : NodeId}
    (h : dependency.graph ≠ g.id) (node : Node) (index : Nat) :
    g.checkDependency node index dependency =
      .error (if dependency.stage = g.stage
        then .missingDependency node.name g.stage dependency.index
        else .crossStageDependency node.name g.stage dependency.stage) := by
  rw [checkDependency]
  by_cases hstage : dependency.stage = g.stage
  · rw [if_neg (not_not_intro hstage), if_pos (.inl h), if_pos hstage]
  · rw [if_pos hstage, if_neg hstage]

theorem Design.graph_model (d : Design) (stage : Stage) :
    d.model.graph stage = d.stageGraph stage := by
  cases stage <;> rfl

/-- A graph with a node that depends on a node of another graph has no order. -/
theorem StageGraph.schedule_ne_ok {g : StageGraph} {node : Node} (hnode : node ∈ g.nodes)
    {dependencies : List NodeId} (hdependencies : node.dependencies = some dependencies)
    {id : NodeId} (hid : id ∈ dependencies) (hgraph : id.graph ≠ g.id) (order : List Nat) :
    g.schedule ≠ .ok order := by
  intro h
  obtain ⟨index, hindex⟩ := List.mem_iff_getElem?.1 hnode
  have hmem : index ∈ order :=
    (schedule_perm h).mem_iff.2 (List.mem_range.2 (List.getElem?_eq_some_iff.1 hindex).1)
  obtain ⟨before, after, rfl⟩ := List.append_of_mem hmem
  obtain ⟨reported, hreported, htargets⟩ := schedule_before h hindex
  rw [hdependencies, Option.some.injEq] at hreported
  subst hreported
  obtain ⟨target, -, rfl⟩ := htargets id hid
  exact hgraph rfl

/-- The design refuses a dependency in a stage. It is an error wherever it is reported, and with a node
that reports it, the stage has no order and the model does not compile. -/
structure Design.Refuses (d : Design) (stage : Stage) (dependency : NodeId) : Prop where
  /-- In its own stage the dependency is missing, and otherwise it crosses stages. -/
  checkDependency : ∀ node index,
    (d.stageGraph stage).checkDependency node index dependency =
      .error (if dependency.stage = stage then .missingDependency node.name stage dependency.index
        else .crossStageDependency node.name stage dependency.stage)
  /-- There is no generation order. -/
  schedule : ∀ node ∈ (d.stageGraph stage).nodes, dependency ∈ node.dependencies.getD [] →
    ∀ order, (d.stageGraph stage).schedule ≠ .ok order
  /-- There is no shader. -/
  compile : ∀ node ∈ (d.stageGraph stage).nodes, dependency ∈ node.dependencies.getD [] →
    ∀ input shader, (d.model.compile input).outcome ≠ .ok shader

theorem Design.refuses_of_graph_ne {d : Design} {stage : Stage} {dependency : NodeId}
    (h : dependency.graph ≠ d.graphOf stage) : d.Refuses stage dependency := by
  have hschedule : ∀ node ∈ (d.stageGraph stage).nodes, dependency ∈ node.dependencies.getD [] →
      ∀ order, (d.stageGraph stage).schedule ≠ .ok order := by
    intro node hnode hdependency
    cases hreported : node.dependencies with
    | none => simp [hreported] at hdependency
    | some dependencies =>
      rw [hreported, Option.getD_some] at hdependency
      exact StageGraph.schedule_ne_ok hnode hreported hdependency h
  refine ⟨StageGraph.checkDependency_of_graph_ne h, hschedule, ?_⟩
  -- A shader would have come from an order of each stage.
  intro node hnode hdependency input shader hok
  obtain ⟨finish, hperformed, -⟩ := performed_of_compile hok
  have horder := schedule_of_agenda hperformed stage
  rw [d.graph_model] at horder
  exact hschedule node hnode hdependency _ horder

namespace Studio

theorem sameOutcome_restart (first : UInt32) (studio : Studio) (input : CompileInput)
    (model : Nat) :
    Option.Rel SameOutcome (studio.outcome? input model)
      ((studio.restart first).outcome? input model) := by
  -- The handles of the input are shifted with the designs.
  have hinput : input.renumber (studio.restart first).numbering =
      (input.renumber studio.numbering).renumber (shift studio.first first) := by
    rw [numbering_restart]
    simp [CompileInput.renumber, Function.comp_def]
  simp only [outcome?, hinput]
  simp only [restart, List.getElem?_map, Option.map_map]
  cases studio.designs[model]? with
  | none => exact .none
  | some design =>
    exact .some (design.sameOutcome_renumber (faithful_shift studio.first first) _)

/-- What compiling gives does not depend on where the counter of graphs starts: after every script and for
every input, every model fails for the same reason or gives a shader that an application cannot tell
apart. A node of another model is refused as a dependency, also at a stage and position that the model
has itself, as long as there are no more graphs than numbers. -/
theorem outcome_independent_of_counter (first first' : UInt32) (script : List BuildStep)
    (input : CompileInput) (model : Nat) :
    Option.Rel SameOutcome
        ((build? first script).bind (·.outcome? input model))
        ((build? first' script).bind (·.outcome? input model)) ∧
      ∀ studio design other foreign, build? first script = some studio →
        2 * studio.designs.length ≤ 2 ^ 32 → studio.designs[model]? = some design →
        studio.designs[other]? = some foreign → model ≠ other →
        ∀ stage dependency, foreign.Owns dependency → design.Refuses stage dependency := by
  constructor
  · rw [build?_eq_map_restart first first']
    cases build? first script with
    | none => exact .none
    | some studio => exact sameOutcome_restart first' studio input model
  · intro studio design other foreign hbuild hcount hdesign hforeign hother stage dependency howns
    apply Design.refuses_of_graph_ne
    rw [howns]
    exact ((numbered_of_build hbuild).graphOf_ne hcount hother hdesign hforeign _ _).symm

/-- Two models that begin alike, with a node of the second wired to a node of the first. -/
def crossWiring : List BuildStep :=
  let up : DesignNode := .library (.arithmetic (.normalize { value := .ofVec3 .zero .one .zero }))
  [.newModel "host", .newModel "guest", .act 0 (.add .fragment up), .act 1 (.add .fragment up),
    .act 1 (.add .fragment (.library (.endpoint (.newColorOutput "color")))),
    .act 1 (.wire .fragment 1 .input
      (.computed { stage := .fragment, graph := 1, index := 0 } "normalize" "out" .vec3))]

/-- The counter comes around between the two graphs of the first model. The second model has a node at
the same stage and position, but does not take it for the one that it is wired to. -/
theorem crossWiring_refused :
    Option.Rel SameOutcome
        ((build? 4294967295 crossWiring).bind (·.outcome? { target := .vulkan } 1))
        ((build? 7 crossWiring).bind (·.outcome? { target := .vulkan } 1)) ∧
      ∃ studio host guest, build? 4294967295 crossWiring = some studio ∧
        2 * studio.designs.length ≤ 2 ^ 32 ∧ studio.designs = [host, guest] ∧
        host.Owns { stage := .fragment, graph := 0, index := 0 } ∧
        guest.Refuses .fragment { stage := .fragment, graph := 0, index := 0 } ∧
        ∀ shader, (guest.model.compile { target := .vulkan }).outcome ≠ .ok shader := by
  obtain ⟨hsame, hforeign⟩ :=
    outcome_independent_of_counter 4294967295 7 crossWiring { target := .vulkan } 1
  have hrefuses := hforeign _ _ 0 _ rfl (by decide) rfl rfl (by decide) .fragment
    { stage := .fragment, graph := 0, index := 0 } rfl
  refine ⟨hsame, _, _, _, rfl, by decide, rfl, rfl, hrefuses, ?_⟩
  exact hrefuses.compile _ (List.mem_of_getElem? (i := 1) rfl) (by decide) { target := .vulkan }

end Studio

end ShaderWeave
