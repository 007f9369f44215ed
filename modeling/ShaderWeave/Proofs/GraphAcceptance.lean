import ShaderWeave.Proofs.EarlyRead
import ShaderWeave.Proofs.LeastOrder

/-!
# Which Graphs Are Accepted

A stage graph has a schedule exactly if every dependency that its nodes report is another node of the
graph and the dependencies have no cycle. The reports are looked at one after another, node by node in
order of registration, and the first dependency that is not another node of the graph decides the error.
Only where there is none can the graph fail for a cycle. A stage that is refused, for its masks or for
its dependencies, is left as it was.

## Main definitions

* `StageGraph.IsOther`, `StageGraph.SoundAt`: what a node may report.
* `StageGraph.Edge`: one position depends on another.

## Main results

* `dependenciesAt_eq_ok_iff`, `dependenciesAt_of_first`: what comes of the report of one node.
* `dependencyTable_eq_ok`, `dependencyTable_of_first`: what comes of all reports.
* `runSetup_of_checkStages`, `runSetup_of_schedule`: a stage that is refused is left as it was.
* `schedule_accepts_exactly`: which graphs are accepted, why others are not, and what that leaves.
-/

namespace ShaderWeave

/-! ## The First Failure Decides -/

/-- The first element that does not pass decides how a list fails, whatever comes after it. -/
theorem mapM_eq_error_of_first {ε α β : Type} {f : α → Except ε β} {before after : List α} {x : α}
    {e : ε} (hbefore : ∀ y ∈ before, ∃ z, f y = .ok z) (hx : f x = .error e) :
    (before ++ x :: after).mapM f = .error e := by
  induction before with
  | nil =>
    rw [List.nil_append, List.mapM_cons, hx]
    rfl
  | cons y before ih =>
    obtain ⟨⟨z, hy⟩, hbefore⟩ := List.forall_mem_cons.1 hbefore
    rw [List.cons_append, List.mapM_cons, hy, ih hbefore]
    rfl

/-- The first element that fails a check decides how the check of a list fails. -/
theorem forM_eq_error_of_first {ε α : Type} {f : α → Except ε Unit} {before after : List α} {x : α}
    {e : ε} (hbefore : ∀ y ∈ before, f y = .ok ()) (hx : f x = .error e) :
    (before ++ x :: after).forM f = .error e := by
  induction before with
  | nil =>
    rw [List.nil_append, List.forM_eq_forM, List.forM_cons, hx]
    rfl
  | cons y before ih =>
    obtain ⟨hy, hbefore⟩ := List.forall_mem_cons.1 hbefore
    rw [List.cons_append, List.forM_eq_forM, List.forM_cons, hy]
    exact ih hbefore

namespace StageGraph

/-! ## What Nodes May Report -/

/-- The dependency is a node of the graph, and not the one at position `index`. -/
def IsOther (g : StageGraph) (index : Nat) (dependency : NodeId) : Prop :=
  ∃ target, target < g.nodes.length ∧ target ≠ index ∧ dependency = g.nodeId target

/-- There is a node at the position, it reports only inputs that it has, and every dependency that it
reports is another node of the graph. -/
def SoundAt (g : StageGraph) (index : Nat) : Prop :=
  ∃ node dependencies, g.nodes[index]? = some node ∧ node.dependencies = some dependencies ∧
    ∀ dependency ∈ dependencies, g.IsOther index dependency

/-- The node at the first position reports the one at the second. -/
def Edge (g : StageGraph) (index target : Nat) : Prop :=
  ∃ node dependencies, g.nodes[index]? = some node ∧ node.dependencies = some dependencies ∧
    g.nodeId target ∈ dependencies

variable {g : StageGraph} {node : Node} {index : Nat}

theorem nodeId_injective (g : StageGraph) : Function.Injective g.nodeId :=
  fun _ _ h => congrArg NodeId.index h

theorem checkDependency_nodeId {target : Nat} (hlt : target < g.nodes.length) (hne : target ≠ index) :
    g.checkDependency node index (g.nodeId target) = .ok target := by
  have hstage : ¬ (g.nodeId target).stage ≠ g.stage := not_not_intro rfl
  unfold checkDependency
  rw [if_neg hstage, if_neg]
  · rfl
  · rintro (hgraph | hlength | hself)
    · exact hgraph rfl
    · exact Nat.not_le.2 hlt hlength
    · exact hne hself

theorem checkDependency_of_stage_ne {dependency : NodeId} (hstage : dependency.stage ≠ g.stage) :
    g.checkDependency node index dependency =
      .error (.crossStageDependency node.name g.stage dependency.stage) :=
  if_pos hstage

theorem checkDependency_of_not_isOther {dependency : NodeId} (hstage : dependency.stage = g.stage)
    (hother : ¬ g.IsOther index dependency) :
    g.checkDependency node index dependency =
      .error (.missingDependency node.name g.stage dependency.index) := by
  unfold checkDependency
  rw [if_neg (not_not_intro hstage), if_pos]
  -- If none of the three held, the dependency would be the node of its own number.
  by_contra hnone
  rw [not_or, not_or, Decidable.not_not, Nat.not_le] at hnone
  obtain ⟨hgraph, hlength, hself⟩ := hnone
  refine hother ⟨dependency.index, hlength, hself, ?_⟩
  rw [nodeId, ← hstage, ← hgraph]

/-- A list of dependencies passes the check exactly if it lists other nodes of the graph. -/
theorem mapM_checkDependency_eq_ok_iff {dependencies : List NodeId} {targets : List Nat} :
    dependencies.mapM (g.checkDependency node index) = .ok targets ↔
      dependencies = targets.map g.nodeId ∧
        ∀ target ∈ targets, target < g.nodes.length ∧ target ≠ index := by
  constructor
  · intro h
    -- The check goes along the list and keeps the position of each dependency.
    have hforall := mapM_eq_ok h
    clear h
    induction hforall with
    | nil => exact ⟨rfl, fun target hmem => absurd hmem List.not_mem_nil⟩
    | cons hhead _ ih =>
      obtain ⟨rfl, hplace⟩ := checkDependency_eq_ok hhead
      obtain ⟨rfl, hrest⟩ := ih
      exact ⟨rfl, List.forall_mem_cons.2 ⟨hplace, hrest⟩⟩
  · rintro ⟨rfl, hplaces⟩
    induction targets with
    | nil => rfl
    | cons target targets ih =>
      obtain ⟨⟨hlt, hne⟩, hrest⟩ := List.forall_mem_cons.1 hplaces
      rw [List.map_cons, List.mapM_cons, checkDependency_nodeId hlt hne, ih hrest]
      rfl

/-- The report of a node is accepted exactly if it lists other nodes of the graph. -/
theorem dependenciesAt_eq_ok_iff {targets : List Nat} :
    g.dependenciesAt node index = .ok targets ↔
      node.dependencies = some (targets.map g.nodeId) ∧
        ∀ target ∈ targets, target < g.nodes.length ∧ target ≠ index := by
  unfold dependenciesAt
  cases node.dependencies with
  | none => simp
  | some dependencies =>
    rw [Option.some.injEq, ← @mapM_checkDependency_eq_ok_iff g node]
    simp only [Except.mapError]
    cases dependencies.mapM (g.checkDependency node index) <;> simp

/-- The report of a node that lists other nodes of the graph is accepted. -/
theorem SoundAt.exists_dependenciesAt (h : g.SoundAt index) :
    ∃ node targets, g.nodes[index]? = some node ∧ g.dependenciesAt node index = .ok targets := by
  obtain ⟨node, dependencies, hnode, hdependencies, hother⟩ := h
  choose! position hlt hne heq using hother
  refine ⟨node, dependencies.map position, hnode, dependenciesAt_eq_ok_iff.2 ⟨?_, ?_⟩⟩
  · have hmap : (dependencies.map position).map g.nodeId = dependencies := by
      rw [List.map_map]
      exact (List.map_congr_left fun d hd => (heq d hd).symm).trans (List.map_id' dependencies)
    rw [hdependencies, hmap]
  · intro target hmem
    obtain ⟨d, hd, rfl⟩ := List.mem_map.1 hmem
    exact ⟨hlt d hd, hne d hd⟩

/-- Of a report, the first dependency that fails the check decides. -/
theorem dependenciesAt_of_first {earlier later : List NodeId} {dependency : NodeId}
    {error : GraphError} (hreport : node.dependencies = some (earlier ++ dependency :: later))
    (hearlier : ∀ d ∈ earlier, g.IsOther index d)
    (hcheck : g.checkDependency node index dependency = .error error) :
    g.dependenciesAt node index = .error (.refused error) := by
  have hfirst : (earlier ++ dependency :: later).mapM (g.checkDependency node index) =
      .error error := by
    refine mapM_eq_error_of_first (fun d hd => ?_) hcheck
    obtain ⟨target, hlt, hne, rfl⟩ := hearlier d hd
    exact ⟨target, checkDependency_nodeId hlt hne⟩
  rw [dependenciesAt, hreport]
  simp only [hfirst]
  rfl

/-! ## The Table of Dependencies -/

/-- If all reports are accepted, the table has one line for each node, made of its report. -/
theorem dependencyTable_lines {table : List (List Nat)} (h : g.dependencyTable = .ok table) :
    table.length = g.nodes.length ∧
      ∀ index node, g.nodes[index]? = some node →
        ∃ targets, table[index]? = some targets ∧ g.dependenciesAt node index = .ok targets := by
  obtain ⟨hlength, hlines⟩ := List.forall₂_iff_get.1 (dependencyTable_forall₂ h)
  rw [List.length_zipIdx] at hlength
  refine ⟨hlength.symm, fun index node hnode => ?_⟩
  obtain ⟨hindex, rfl⟩ := List.getElem?_eq_some_iff.1 hnode
  refine ⟨table[index], List.getElem?_eq_getElem (hlength ▸ hindex), ?_⟩
  simpa using hlines index (by simpa using hindex) (hlength ▸ hindex)

/-- If all reports are accepted, every node reports other nodes of the graph, and the table has the
edges that the nodes report. -/
theorem dependencyTable_eq_ok {table : List (List Nat)} (h : g.dependencyTable = .ok table) :
    (∀ index < g.nodes.length, g.SoundAt index) ∧ KnownDependencies table ∧
      DependsOn table = g.Edge := by
  obtain ⟨hlength, hlines⟩ := dependencyTable_lines h
  refine ⟨fun index hindex => ?_, fun targets hmem d hd => ?_, ?_⟩
  · obtain ⟨targets, -, hline⟩ := hlines index _ (List.getElem?_eq_getElem hindex)
    obtain ⟨hreport, hplaces⟩ := dependenciesAt_eq_ok_iff.1 hline
    refine ⟨_, _, List.getElem?_eq_getElem hindex, hreport, fun dependency hmem => ?_⟩
    obtain ⟨target, htarget, rfl⟩ := List.mem_map.1 hmem
    exact ⟨target, (hplaces target htarget).1, (hplaces target htarget).2, rfl⟩
  · obtain ⟨index, hindex, rfl⟩ := List.getElem_of_mem hmem
    obtain ⟨targets, htargets, hline⟩ :=
      hlines index _ (List.getElem?_eq_getElem (hlength ▸ hindex))
    rw [List.getElem?_eq_getElem hindex, Option.some.injEq] at htargets
    rw [htargets] at hd
    rw [hlength]
    exact ((dependenciesAt_eq_ok_iff.1 hline).2 d hd).1
  · funext index target
    refine propext ⟨?_, ?_⟩
    · rintro ⟨targets, htargets, hmem⟩
      have hindex : index < g.nodes.length := hlength ▸ (List.getElem?_eq_some_iff.1 htargets).1
      obtain ⟨line, hline, hchecked⟩ := hlines index _ (List.getElem?_eq_getElem hindex)
      rw [htargets, Option.some.injEq] at hline
      subst hline
      exact ⟨_, _, List.getElem?_eq_getElem hindex, (dependenciesAt_eq_ok_iff.1 hchecked).1,
        List.mem_map_of_mem hmem⟩
    · rintro ⟨node, dependencies, hnode, hreport, hmem⟩
      obtain ⟨line, hline, hchecked⟩ := hlines index node hnode
      rw [(dependenciesAt_eq_ok_iff.1 hchecked).1, Option.some.injEq] at hreport
      subst hreport
      exact ⟨line, hline, (List.mem_map_of_injective g.nodeId_injective).1 hmem⟩

/-- If every node reports other nodes of the graph, all reports are accepted. -/
theorem exists_dependencyTable (h : ∀ index < g.nodes.length, g.SoundAt index) :
    ∃ table, g.dependencyTable = .ok table := by
  cases htable : g.dependencyTable with
  | ok table => exact ⟨table, rfl⟩
  | error failure =>
    obtain ⟨⟨node, index⟩, hmem, herror⟩ := exists_mem_of_mapM_eq_error htable
    have hnode := List.mem_zipIdx_iff_getElem?.1 hmem
    obtain ⟨other, targets, hother, hok⟩ :=
      (h index (List.getElem?_eq_some_iff.1 hnode).1).exists_dependenciesAt
    obtain rfl := Option.some.inj (hnode.symm.trans hother)
    cases hok.symm.trans herror

/-- The first node whose report is not accepted decides how the table fails. -/
theorem dependencyTable_of_first {failure : NodeFailure} (hnode : g.nodes[index]? = some node)
    (hbefore : ∀ i < index, g.SoundAt i)
    (hreport : g.dependenciesAt node index = .error failure) :
    g.dependencyTable = .error failure := by
  obtain ⟨hindex, rfl⟩ := List.getElem?_eq_some_iff.1 hnode
  have hzip : index < g.nodes.zipIdx.length := by rwa [List.length_zipIdx]
  have hsplit : g.nodes.zipIdx = g.nodes.zipIdx.take index ++ (g.nodes[index], index)
      :: g.nodes.zipIdx.drop (index + 1) := by
    have hentry : g.nodes.zipIdx[index] = (g.nodes[index], index) := by simp
    rw [← hentry, ← List.drop_eq_getElem_cons hzip, List.take_append_drop]
  rw [dependencyTable, hsplit]
  refine mapM_eq_error_of_first ?_ hreport
  rintro ⟨earlier, position⟩ hmem
  obtain ⟨place, hplace, hentry⟩ := List.mem_take_iff_getElem.1 hmem
  simp only [List.getElem_zipIdx, Nat.zero_add, Prod.mk.injEq] at hentry
  obtain ⟨rfl, rfl⟩ := hentry
  obtain ⟨other, targets, hother, hok⟩ := (hbefore place (by omega)).exists_dependenciesAt
  rw [List.getElem?_eq_getElem (by omega), Option.some.injEq] at hother
  exact ⟨targets, hother ▸ hok⟩

/-! ## Schedules -/

theorem schedule_of_table_error {failure : NodeFailure} (h : g.dependencyTable = .error failure) :
    g.schedule = .error failure := by
  rw [schedule, h]
  rfl

theorem schedule_of_table {table : List (List Nat)} (h : g.dependencyTable = .ok table) :
    g.schedule = (leastOrder table).mapError
      fun node => .refused (.dependencyCycle (g.nodeName node) g.stage) := by
  rw [schedule, h]
  simp only [generationOrder_eq_leastOrder, bind, Except.bind]
  cases leastOrder table <;> rfl

/-- A graph is accepted exactly if all its nodes report other nodes of the graph, without a cycle. -/
theorem exists_schedule_iff :
    (∃ order, g.schedule = .ok order) ↔
      (∀ index < g.nodes.length, g.SoundAt index) ∧
        ∀ index, ¬ Relation.TransGen g.Edge index index := by
  constructor
  · rintro ⟨order, h⟩
    obtain ⟨table, htable, horder⟩ := schedule_eq_ok h
    obtain ⟨hsound, hknown, hedges⟩ := dependencyTable_eq_ok htable
    refine ⟨hsound, ?_⟩
    rw [← hedges]
    exact (exists_leastOrder_iff_acyclic hknown).1 ⟨order, horder⟩
  · rintro ⟨hsound, hacyclic⟩
    obtain ⟨table, htable⟩ := exists_dependencyTable hsound
    obtain ⟨-, hknown, hedges⟩ := dependencyTable_eq_ok htable
    rw [← hedges] at hacyclic
    obtain ⟨order, horder⟩ := (exists_leastOrder_iff_acyclic hknown).2 hacyclic
    exact ⟨order, by rw [schedule_of_table htable, horder]; rfl⟩

/-- Going from report to report, one can come from the node to a cycle. -/
def LeadsToCycle (g : StageGraph) (index : Nat) : Prop :=
  ∃ onCycle, Relation.ReflTransGen g.Edge index onCycle ∧ Relation.TransGen g.Edge onCycle onCycle

/-- A graph is refused for a cycle exactly if all its nodes report other nodes of the graph and there is
one; the error names the first node that leads to one. -/
theorem schedule_eq_cycle_iff {name : String} {stage : Stage} :
    g.schedule = .error (.refused (.dependencyCycle name stage)) ↔
      (∀ index < g.nodes.length, g.SoundAt index) ∧
        ∃ index, IsLeast {index | g.LeadsToCycle index} index ∧
          name = g.nodeName index ∧ stage = g.stage := by
  have hcycle {table : List (List Nat)} (hedges : DependsOn table = g.Edge) (index : Nat) :
      ReachesCycle table index ↔ g.LeadsToCycle index := by
    rw [ReachesCycle, LeadsToCycle, hedges]
  constructor
  · intro h
    cases htable : g.dependencyTable with
    | error failure =>
      -- Looking at the reports never fails for a cycle.
      rw [schedule_of_table_error htable] at h
      cases h
      obtain ⟨⟨node, index⟩, -, herror⟩ := exists_mem_of_mapM_eq_error htable
      rcases dependenciesAt_error herror with h | ⟨_, _, _, h⟩ | ⟨_, _, _, h⟩ <;> cases h
    | ok table =>
      obtain ⟨hsound, hknown, hedges⟩ := dependencyTable_eq_ok htable
      rw [schedule_of_table htable] at h
      cases horder : leastOrder table with
      | ok order =>
        rw [horder] at h
        cases h
      | error node =>
        rw [horder] at h
        cases h
        have hleast := leastOrder_error_isLeast hknown horder
        simp only [hcycle hedges] at hleast
        exact ⟨hsound, node, hleast, rfl, rfl⟩
  · rintro ⟨hsound, index, hleast, rfl, rfl⟩
    obtain ⟨table, htable⟩ := exists_dependencyTable hsound
    obtain ⟨-, hknown, hedges⟩ := dependencyTable_eq_ok htable
    simp only [← hcycle hedges] at hleast
    rw [schedule_of_table htable, (leastOrder_eq_error_iff_isLeast hknown).2 hleast]
    rfl

/-! ## Refused Stages -/

variable {g : StageGraph}

/-- The first node that may not stand in the stage decides how the check of the stages fails. -/
theorem checkStages_of_first {before after : List Node} {node : Node}
    (hnodes : g.nodes = before ++ node :: after)
    (hbefore : ∀ earlier ∈ before, earlier.allowed.intersects g.stage.mask = true)
    (hnode : node.allowed.intersects g.stage.mask = false) :
    g.checkStages = .error (.stageNotAllowed node.name g.stage.mask) := by
  unfold checkStages
  rw [hnodes]
  refine forM_eq_error_of_first (fun earlier hmem => if_pos (hbefore earlier hmem)) (if_neg ?_)
  rw [hnode]
  exact Bool.false_ne_true

theorem runSetup_of_checkStages {error : GraphError} (h : g.checkStages = .error error)
    (state : CompileState) : g.runSetup state = .error (.graph error) state := by
  rw [runSetup, h]
  rfl

theorem runSetup_of_schedule {failure : NodeFailure}
    (hallowed : ∀ node ∈ g.nodes, node.allowed.intersects g.stage.mask = true)
    (h : g.schedule = .error failure) (state : CompileState) :
    g.runSetup state = .error (.ofNode failure) state := by
  have hcheck : g.checkStages = .ok () :=
    forM_eq_ok_of_forall fun node hmem => if_pos (hallowed node hmem)
  rw [runSetup, hcheck, h]
  rfl

/-- The first dependency that is not another node of the graph decides how the graph is refused. -/
theorem schedule_of_first {index : Nat} {node : Node} {earlier later : List NodeId}
    {dependency : NodeId} (hnode : g.nodes[index]? = some node)
    (hreport : node.dependencies = some (earlier ++ dependency :: later))
    (hbefore : ∀ i < index, g.SoundAt i) (hearlier : ∀ d ∈ earlier, g.IsOther index d)
    (hother : ¬ g.IsOther index dependency) :
    g.schedule = .error (.refused
      (if dependency.stage = g.stage then .missingDependency node.name g.stage dependency.index
        else .crossStageDependency node.name g.stage dependency.stage)) := by
  refine schedule_of_table_error (dependencyTable_of_first hnode hbefore
    (dependenciesAt_of_first hreport hearlier ?_))
  split
  · rename_i hstage
    exact checkDependency_of_not_isOther hstage hother
  · rename_i hstage
    exact checkDependency_of_stage_ne hstage

/-- Which graphs are accepted, whatever their nodes report: other nodes of the graph, themselves, nodes of
the other stage or of another graph, at any positions.

* A graph has a schedule exactly if every dependency that is reported is another node of the graph and
  the dependencies have no cycle.
* Otherwise, if there is a dependency that is not another node of the graph, the first one decides, in
  order of registration of the nodes and then of their reports. It is refused for its stage if that is
  the other one, and else as missing. A node that reports an input which it does not have ends the
  search at its turn.
* The graph is refused for a cycle exactly if there is one and no such dependency. The error names the
  first node that leads to a cycle.
* Setting up a stage in which a node may not stand names the first such node. Neither this error nor one
  of the above changes the state of the compilation: what is registered, the counters of the model, the
  handles that are declared and the log. -/
theorem schedule_accepts_exactly (g : StageGraph) :
    ((∃ order, g.schedule = .ok order) ↔
      (∀ index < g.nodes.length, g.SoundAt index) ∧
        ∀ index, ¬ Relation.TransGen g.Edge index index) ∧
    (∀ index node earlier dependency later, g.nodes[index]? = some node →
      node.dependencies = some (earlier ++ dependency :: later) →
      (∀ i < index, g.SoundAt i) → (∀ d ∈ earlier, g.IsOther index d) →
      ¬ g.IsOther index dependency →
        g.schedule = .error (.refused
          (if dependency.stage = g.stage then .missingDependency node.name g.stage dependency.index
            else .crossStageDependency node.name g.stage dependency.stage))) ∧
    (∀ index node, g.nodes[index]? = some node → node.dependencies = none →
      (∀ i < index, g.SoundAt i) → g.schedule = .error .unknownInput) ∧
    (∀ name stage, g.schedule = .error (.refused (.dependencyCycle name stage)) ↔
      (∀ index < g.nodes.length, g.SoundAt index) ∧
        ∃ index, IsLeast {index | g.LeadsToCycle index} index ∧
          name = g.nodeName index ∧ stage = g.stage) ∧
    ∀ state : CompileState,
      (∀ before node after, g.nodes = before ++ node :: after →
        (∀ earlier ∈ before, earlier.allowed.intersects g.stage.mask = true) →
        node.allowed.intersects g.stage.mask = false →
          g.runSetup state = .error (.graph (.stageNotAllowed node.name g.stage.mask)) state) ∧
      ((∀ node ∈ g.nodes, node.allowed.intersects g.stage.mask = true) →
        ∀ failure, g.schedule = .error failure →
          g.runSetup state = .error (.ofNode failure) state) := by
  refine ⟨exists_schedule_iff, ?_, ?_, fun name stage => schedule_eq_cycle_iff, fun state => ?_⟩
  · intro index node earlier dependency later hnode hreport hbefore hearlier hother
    exact schedule_of_first hnode hreport hbefore hearlier hother
  · intro index node hnode hreport hbefore
    refine schedule_of_table_error (dependencyTable_of_first hnode hbefore ?_)
    rw [dependenciesAt, hreport]
  · refine ⟨?_, ?_⟩
    · intro before node after hnodes hbefore hnode
      exact runSetup_of_checkStages (checkStages_of_first hnodes hbefore hnode) state
    · intro hallowed failure hschedule
      exact runSetup_of_schedule hallowed hschedule state

/-- Two nodes that depend on each other, of which the second also reports a node of another graph, one of
the other stage, and itself. -/
def mixedReports : StageGraph where
  stage := .fragment
  id := 3
  nodes := [
    { name := "first", dependencies := some [⟨.fragment, 3, 1⟩] },
    { name := "second",
      dependencies := some [⟨.fragment, 3, 0⟩, ⟨.fragment, 4, 0⟩, ⟨.vertex, 3, 0⟩, ⟨.fragment, 3, 1⟩] }]

/-- The node of the other graph comes first, so neither the cycle nor the other stage is reported, and the
state of a compilation is left as it was. -/
theorem mixedReports_refused :
    mixedReports.schedule = .error (.refused (.missingDependency "second" .fragment 0)) ∧
    ∀ state, mixedReports.runSetup state =
      .error (.graph (.missingDependency "second" .fragment 0)) state := by
  obtain ⟨-, hfirst, -, -, hsetup⟩ := schedule_accepts_exactly mixedReports
  have hother : ∀ {index target : Nat}, target < 2 → target ≠ index →
      mixedReports.IsOther index ⟨.fragment, 3, target⟩ :=
    fun hlt hne => ⟨_, hlt, hne, rfl⟩
  have hsound : ∀ i < 1, mixedReports.SoundAt i := by
    intro i hi
    obtain rfl : i = 0 := by omega
    exact ⟨_, _, rfl, rfl, List.forall_mem_singleton.2 (hother (by omega) (by omega))⟩
  have hforeign : ¬ mixedReports.IsOther 1 ⟨.fragment, 4, 0⟩ := by
    rintro ⟨target, -, -, heq⟩
    have hgraph : 4 = 3 := congrArg NodeId.graph heq
    omega
  have hschedule := hfirst 1 _ [⟨.fragment, 3, 0⟩] ⟨.fragment, 4, 0⟩ _ rfl rfl hsound
    (List.forall_mem_singleton.2 (hother (by omega) (by omega))) hforeign
  exact ⟨hschedule, fun state => (hsetup state).2 (by decide) _ hschedule⟩

end StageGraph

end ShaderWeave
