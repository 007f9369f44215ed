import Mathlib.Data.Fintype.Pigeonhole
import Mathlib.Data.List.Lex
import Mathlib.Logic.Relation
import Mathlib.Order.Bounds.Basic
import ShaderWeave.Proofs.GenerationOrder

/-!
# Generation Orders Are Least

A table of dependencies is a finite graph, and its generation orders are the permutations of the nodes in
which every dependency stands before what depends on it. Taking the first node that is ready, again and
again, finds the least of them in lexicographic order, and gets stuck exactly on the nodes from which a
cycle can be reached.

Both halves are proved for lists of waiting nodes, where a step is simple, and then read off for tables.

## Main definitions

* `KnownDependencies`, `DependsOn`, `Acyclic`, `ReachesCycle`: the graph of a table.
* `IsTopological`: a permutation of the nodes with dependencies first.
* `Waiting.IsOrder`: the same for nodes of which some dependencies are placed already.

## Main results

* `Waiting.place_succ_cases`: what one step does.
* `Waiting.place_le`: an order that is found is not above any other.
* `Waiting.exists_waiting_of_stuck`: a node that is left waits for dependencies that are not placed.
* `mem_stuck_iff`: the nodes that are left are those from which a cycle can be reached.
* `dependencyOrder_isLeast`: so the order of a table is the least one, and the node in its error too.
-/

namespace ShaderWeave

/-! ## The Graph of a Table -/

/-- The node lists the other one among its dependencies. -/
def DependsOn (deps : List (List Nat)) (node dependency : Nat) : Prop :=
  ∃ targets, deps[node]? = some targets ∧ dependency ∈ targets

/-- Every dependency is a node of the table. -/
def KnownDependencies (deps : List (List Nat)) : Prop :=
  ∀ targets ∈ deps, ∀ dependency ∈ targets, dependency < deps.length

instance (deps : List (List Nat)) : Decidable (KnownDependencies deps) :=
  inferInstanceAs (Decidable (∀ targets ∈ deps, ∀ dependency ∈ targets, dependency < deps.length))

/-- No node depends on itself, directly or through others. -/
def Acyclic (deps : List (List Nat)) : Prop :=
  ∀ node, ¬ Relation.TransGen (DependsOn deps) node node

/-- Going from dependency to dependency, one can come from the node to a cycle. -/
def ReachesCycle (deps : List (List Nat)) (node : Nat) : Prop :=
  ∃ onCycle, Relation.ReflTransGen (DependsOn deps) node onCycle ∧
    Relation.TransGen (DependsOn deps) onCycle onCycle

/-- Every dependency of a node in the list stands in it before the node. -/
def DependenciesFirst (deps : List (List Nat)) (order : List Nat) : Prop :=
  ∀ front node back, order = front ++ node :: back →
    ∀ dependency, DependsOn deps node dependency → dependency ∈ front

/-- A permutation of the nodes in which every dependency stands before what depends on it. -/
structure IsTopological (deps : List (List Nat)) (order : List Nat) : Prop where
  /-- Every node stands in it once. -/
  perm : order.Perm (List.range deps.length)
  /-- Dependencies come first. -/
  dependenciesFirst : DependenciesFirst deps order

theorem DependsOn.lt_length {deps : List (List Nat)} {node dependency : Nat}
    (h : DependsOn deps node dependency) : node < deps.length := by
  obtain ⟨targets, htargets, -⟩ := h
  exact (List.getElem?_eq_some_iff.1 htargets).1

theorem ReachesCycle.lt_length {deps : List (List Nat)} {node : Nat} (h : ReachesCycle deps node) :
    node < deps.length := by
  obtain ⟨onCycle, hreach, hcycle⟩ := h
  obtain ⟨next, hnext, -⟩ := Relation.TransGen.head'_iff.1 (hcycle.trans_right hreach)
  exact hnext.lt_length

/-- Where dependencies come first, a dependency has an earlier place. -/
theorem DependenciesFirst.idxOf_lt {deps : List (List Nat)} {order : List Nat}
    (hfirst : DependenciesFirst deps order) (hnodup : order.Nodup) {node dependency : Nat}
    (hnode : node ∈ order) (h : DependsOn deps node dependency) :
    dependency ∈ order ∧ order.idxOf dependency < order.idxOf node := by
  obtain ⟨front, back, rfl⟩ := List.append_of_mem hnode
  have hfront : dependency ∈ front := hfirst front node back rfl dependency h
  have hnotFront : node ∉ front := by
    intro hmem
    exact (List.nodup_append.1 hnodup).2.2 node hmem node List.mem_cons_self rfl
  refine ⟨List.mem_append_left _ hfront, ?_⟩
  rw [List.idxOf_append_of_mem hfront, List.idxOf_append_of_notMem hnotFront]
  exact Nat.lt_add_right _ (List.idxOf_lt_length_of_mem hfront)

/-- Where dependencies come first, no cycle can be reached, since places only get earlier. -/
theorem DependenciesFirst.not_reachesCycle {deps : List (List Nat)} {order : List Nat}
    (hfirst : DependenciesFirst deps order) (hnodup : order.Nodup) {node : Nat}
    (hnode : node ∈ order) : ¬ ReachesCycle deps node := by
  rintro ⟨onCycle, hreach, hcycle⟩
  have hmem : onCycle ∈ order := by
    clear hcycle
    induction hreach with
    | refl => exact hnode
    | tail _ hstep ih => exact (hfirst.idxOf_lt hnodup ih hstep).1
  have hlt : ∀ last, Relation.TransGen (DependsOn deps) onCycle last →
      last ∈ order ∧ order.idxOf last < order.idxOf onCycle := by
    intro last hpath
    induction hpath with
    | single hstep => exact hfirst.idxOf_lt hnodup hmem hstep
    | tail _ hstep ih =>
      obtain ⟨hlast, hplace⟩ := hfirst.idxOf_lt hnodup ih.1 hstep
      exact ⟨hlast, Nat.lt_trans hplace ih.2⟩
  exact Nat.lt_irrefl _ (hlt onCycle hcycle).2

/-- Among finitely many nodes each of which depends on another of them, every one leads to a cycle. -/
theorem reachesCycle_of_closed {deps : List (List Nat)} {nodes : List Nat}
    (hclosed : ∀ node ∈ nodes, ∃ next ∈ nodes, DependsOn deps node next) {node : Nat}
    (hnode : node ∈ nodes) : ReachesCycle deps node := by
  choose! next hmem hnext using hclosed
  -- Following `next` for ever stays in the list, so some node is met twice.
  have hvisit : ∀ steps, next^[steps] node ∈ nodes := by
    intro steps
    induction steps with
    | zero => exact hnode
    | succ steps ih =>
      rw [Function.iterate_succ_apply']
      exact hmem _ ih
  have hpath : ∀ first steps,
      Relation.ReflTransGen (DependsOn deps) (next^[first] node) (next^[first + steps] node) := by
    intro first steps
    induction steps with
    | zero => exact .refl
    | succ steps ih =>
      rw [← Nat.add_assoc, Function.iterate_succ_apply']
      exact ih.tail (hnext _ (hvisit _))
  obtain ⟨i, j, hne, heq⟩ := Finite.exists_ne_map_eq_of_infinite
    fun steps : Nat => (⟨next^[steps] node, hvisit steps⟩ : {x // x ∈ nodes})
  wlog hlt : i < j generalizing i j
  · exact this j i hne.symm heq.symm (by omega)
  have hagain : next^[j] node = next^[i] node := (congrArg Subtype.val heq).symm
  refine ⟨next^[i] node, ?_, ?_⟩
  · have hfrom := hpath 0 i
    rwa [Nat.zero_add] at hfrom
  · have hstep : DependsOn deps (next^[i] node) (next^[i + 1] node) := by
      rw [Function.iterate_succ_apply']
      exact hnext _ (hvisit i)
    have hrest := hpath (i + 1) (j - (i + 1))
    rw [Nat.add_sub_cancel' hlt, hagain] at hrest
    exact .head' hstep hrest

/-! ## Orders of Waiting Nodes -/

namespace Waiting

/-- A permutation of the waiting nodes in which each stands after all that it waits for. -/
structure IsOrder (waiting : List Waiting) (order : List Nat) : Prop where
  /-- Every waiting node stands in it once. -/
  perm : order.Perm (waiting.map (·.node))
  /-- What a node waits for comes first. -/
  before : ∀ w ∈ waiting, ∀ front back, order = front ++ w.node :: back →
    ∀ d ∈ w.waitsFor, d ∈ front

/-- The first node of an order waits for nothing. -/
theorem IsOrder.head_mem {waiting : List Waiting} {first : Nat} {rest : List Nat}
    (h : IsOrder waiting (first :: rest)) : ⟨first, []⟩ ∈ waiting := by
  obtain ⟨⟨node, waitsFor⟩, hmem, rfl⟩ := List.mem_map.1 (h.perm.mem_iff.1 List.mem_cons_self)
  have hnothing : waitsFor = [] := by
    refine List.eq_nil_iff_forall_not_mem.2 fun d hd => ?_
    exact absurd (h.before _ hmem [] rest rfl d hd) List.not_mem_nil
  rwa [hnothing] at hmem

/-- Without its first node, an order is one of the others after that node is placed. -/
theorem IsOrder.tail {before after : List Waiting} {node : Nat} {rest : List Nat}
    (h : IsOrder (before ++ ⟨node, []⟩ :: after) (node :: rest)) :
    IsOrder ((before ++ after).map (release node)) rest := by
  constructor
  · rw [map_node_release]
    have hperm := h.perm
    rw [List.map_append, List.map_cons] at hperm
    rw [List.map_append]
    exact (hperm.trans List.perm_middle).cons_inv
  · intro released hreleased front back hrest d hd
    obtain ⟨w, hw, rfl⟩ := List.mem_map.1 hreleased
    have hmem : w ∈ before ++ ⟨node, []⟩ :: after :=
      ((List.sublist_cons_self _ after).append_left before).mem hw
    obtain ⟨hd, hne⟩ := List.mem_filter.1 hd
    have hfront : d ∈ node :: front :=
      h.before w hmem (node :: front) back (by rw [hrest]; rfl) d hd
    exact (List.mem_cons.1 hfront).resolve_left (by simpa using hne)

/-- If all nodes are placed, no order of them is below the one that is found: where they part, it took
the first node that was ready. -/
theorem place_le {limit : Nat} {waiting : List Waiting}
    (hsorted : (waiting.map (·.node)).Pairwise (· < ·)) {order other : List Nat}
    (hplace : place limit waiting = (order, [])) (hother : IsOrder waiting other) :
    order ≤ other := by
  induction limit generalizing waiting order other with
  | zero =>
    obtain ⟨rfl, rfl⟩ := Prod.mk.inj hplace
    rw [hother.perm.eq_nil]
  | succ limit ih =>
    rcases place_succ_cases limit waiting with ⟨-, hstep⟩ | ⟨before, node, after, rfl, hbefore, hstep⟩
    · obtain ⟨rfl, rfl⟩ := Prod.mk.inj (hstep.symm.trans hplace)
      rw [hother.perm.eq_nil]
    obtain ⟨rfl, hstuck⟩ := Prod.mk.inj (hstep.symm.trans hplace)
    cases other with
    | nil =>
      have hlength := hother.perm.length_eq
      simp at hlength
    | cons first rest =>
      -- The other order begins with a node that is ready, so not with one before `node`.
      have hle : node ≤ first := by
        rw [List.map_append, List.map_cons, List.pairwise_append] at hsorted
        rcases List.mem_append.1 hother.head_mem with hmem | hmem
        · exact absurd rfl (hbefore _ hmem)
        · rcases List.mem_cons.1 hmem with heq | hmem
          · exact le_of_eq (congrArg Waiting.node heq).symm
          · exact le_of_lt ((List.pairwise_cons.1 hsorted.2.1).1 _ (List.mem_map_of_mem hmem))
      rcases hle.lt_or_eq with hlt | rfl
      · exact le_of_lt (List.Lex.rel hlt)
      · refine List.cons_le_cons node (ih ?_ (Prod.ext rfl hstuck) hother.tail)
        rw [map_node_release]
        exact hsorted.sublist (((List.sublist_cons_self _ after).append_left before).map _)

/-- A node that is left waits for those of its dependencies that are not placed. -/
theorem exists_waiting_of_stuck {limit : Nat} {waiting : List Waiting} {w : Waiting}
    (hw : w ∈ (place limit waiting).2) :
    ∃ original ∈ waiting, original.node = w.node ∧
      ∀ d ∈ w.waitsFor, d ∈ original.waitsFor ∧ d ∉ (place limit waiting).1 := by
  induction limit generalizing waiting with
  | zero => exact ⟨w, hw, rfl, fun d hd => ⟨hd, List.not_mem_nil⟩⟩
  | succ limit ih =>
    rcases place_succ_cases limit waiting with ⟨-, hplace⟩ | ⟨before, node, after, rfl, -, hplace⟩
    · rw [hplace] at hw ⊢
      exact ⟨w, hw, rfl, fun d hd => ⟨hd, List.not_mem_nil⟩⟩
    · rw [hplace] at hw ⊢
      obtain ⟨released, hreleased, hnode, hwaits⟩ := ih hw
      obtain ⟨original, horiginal, rfl⟩ := List.mem_map.1 hreleased
      refine ⟨original, ((List.sublist_cons_self _ after).append_left before).mem horiginal, hnode,
        fun d hd => ?_⟩
      obtain ⟨hd, hplaced⟩ := hwaits d hd
      obtain ⟨hd, hne⟩ := List.mem_filter.1 hd
      refine ⟨hd, fun hmem => ?_⟩
      rcases List.mem_cons.1 hmem with rfl | hmem
      · simp at hne
      · exact hplaced hmem

end Waiting

/-! ## Least Orders of Tables -/

section Table

open Waiting

variable {deps : List (List Nat)} {order : List Nat}

theorem IsTopological.isOrder (h : IsTopological deps order) : IsOrder (initial deps) order where
  perm := by
    rw [map_node_initial]
    exact h.perm
  before := by
    rintro ⟨node, targets⟩ hmem front back horder d hd
    exact h.dependenciesFirst front node back horder d ⟨targets, mem_initial_iff.1 hmem, hd⟩

/-- The nodes that are placed have their dependencies before them, also if not all can be placed. -/
theorem dependenciesFirst_place (deps : List (List Nat)) (limit : Nat) :
    DependenciesFirst deps (place limit (initial deps)).1 := by
  rintro front node back horder d ⟨targets, htargets, hd⟩
  exact place_before ((pairwise_node_initial deps).imp Nat.ne_of_lt) (mem_initial_iff.2 htargets)
    horder d hd

/-- Every node of the table is placed or left, and none is placed twice. -/
theorem place_initial_perm (deps : List (List Nat)) (limit : Nat) :
    ((place limit (initial deps)).1 ++ (place limit (initial deps)).2.map (·.node)).Perm
      (List.range deps.length) := by
  have hperm := place_perm limit (initial deps)
  rwa [map_node_initial] at hperm

/-- An order that is found is the least one. -/
theorem leastOrder_isLeast (h : leastOrder deps = .ok order) :
    IsLeast {order | IsTopological deps order} order := by
  have hplace := leastOrder_eq_ok_iff.1 h
  have hfirst := dependenciesFirst_place deps deps.length
  rw [hplace] at hfirst
  refine ⟨⟨leastOrder_perm h, hfirst⟩, fun other hother => ?_⟩
  exact place_le (pairwise_node_initial deps) hplace hother.isOrder

/-- The nodes that are left are those from which a cycle can be reached. -/
theorem mem_stuck_iff (hknown : KnownDependencies deps) {node : Nat} :
    node ∈ (place deps.length (initial deps)).2.map (·.node) ↔ ReachesCycle deps node := by
  have hperm := place_initial_perm deps deps.length
  constructor
  · refine reachesCycle_of_closed fun stuck hstuck => ?_
    obtain ⟨w, hw, rfl⟩ := List.mem_map.1 hstuck
    have hlimit : (initial deps).length ≤ deps.length := by simp [initial]
    obtain ⟨d, hd⟩ := List.exists_mem_of_ne_nil _ (waitsFor_ne_nil_of_stuck hlimit w hw)
    obtain ⟨⟨original, targets⟩, hmem, hnode, hwaits⟩ := exists_waiting_of_stuck hw
    obtain rfl : original = w.node := hnode
    obtain ⟨hdepends, hnotPlaced⟩ := hwaits d hd
    have htargets := mem_initial_iff.1 hmem
    -- What it waits for is a node of the table and not placed, so it is left too.
    have hrange := List.mem_range.2 (hknown targets (List.mem_of_getElem? htargets) d hdepends)
    have hleft := (List.mem_append.1 (hperm.mem_iff.2 hrange)).resolve_left hnotPlaced
    exact ⟨d, hleft, targets, htargets, hdepends⟩
  · intro hcycle
    have hrange := List.mem_range.2 hcycle.lt_length
    refine (List.mem_append.1 (hperm.mem_iff.2 hrange)).resolve_left fun hplaced => ?_
    have hnodup := (List.nodup_append.1 (hperm.nodup_iff.2 List.nodup_range)).1
    exact (dependenciesFirst_place deps deps.length).not_reachesCycle hnodup hplaced hcycle

/-- The node in an error is the least one from which a cycle can be reached. -/
theorem leastOrder_error_isLeast (hknown : KnownDependencies deps) {node : Nat}
    (h : leastOrder deps = .error node) : IsLeast {node | ReachesCycle deps node} node := by
  have hsorted := (pairwise_node_initial deps).sublist (sublist_stuck deps.length (initial deps))
  have hstuck := fun node => @mem_stuck_iff deps hknown node
  unfold leastOrder at h
  split at h
  · cases h
  · rename_i _ first rest hplace
    cases h
    rw [hplace, List.map_cons, List.pairwise_cons] at hsorted
    simp only [hplace, List.map_cons, List.mem_cons] at hstuck
    refine ⟨(hstuck first.node).1 (.inl rfl), fun other hother => ?_⟩
    rcases (hstuck other).2 hother with rfl | hmem
    · exact Nat.le_refl _
    · exact Nat.le_of_lt (hsorted.1 other hmem)

theorem IsTopological.not_reachesCycle (h : IsTopological deps order) (node : Nat) :
    ¬ ReachesCycle deps node := by
  intro hcycle
  have hmem : node ∈ order := h.perm.mem_iff.2 (List.mem_range.2 hcycle.lt_length)
  exact h.dependenciesFirst.not_reachesCycle (h.perm.nodup_iff.2 List.nodup_range) hmem hcycle

theorem leastOrder_eq_ok_iff_isLeast (hknown : KnownDependencies deps) :
    leastOrder deps = .ok order ↔ IsLeast {order | IsTopological deps order} order := by
  refine ⟨leastOrder_isLeast, fun hleast => ?_⟩
  cases h : leastOrder deps with
  | ok found => rw [(leastOrder_isLeast h).unique hleast]
  | error node =>
    exact absurd (leastOrder_error_isLeast hknown h).1 (hleast.1.not_reachesCycle node)

theorem leastOrder_eq_error_iff_isLeast (hknown : KnownDependencies deps) {node : Nat} :
    leastOrder deps = .error node ↔ IsLeast {node | ReachesCycle deps node} node := by
  refine ⟨leastOrder_error_isLeast hknown, fun hleast => ?_⟩
  cases h : leastOrder deps with
  | ok found => exact absurd hleast.1 ((leastOrder_isLeast h).1.not_reachesCycle node)
  | error found => rw [(leastOrder_error_isLeast hknown h).unique hleast]

/-- A table has an order exactly if it has no cycle. -/
theorem exists_leastOrder_iff_acyclic (hknown : KnownDependencies deps) :
    (∃ order, leastOrder deps = .ok order) ↔ Acyclic deps := by
  constructor
  · rintro ⟨order, h⟩ node hcycle
    exact (leastOrder_isLeast h).1.not_reachesCycle node ⟨node, .refl, hcycle⟩
  · intro hacyclic
    cases h : leastOrder deps with
    | ok order => exact ⟨order, rfl⟩
    | error node =>
      obtain ⟨onCycle, -, hcycle⟩ := (leastOrder_error_isLeast hknown h).1
      exact absurd hcycle (hacyclic onCycle)

theorem KnownDependencies.of_edges {other : List (List Nat)} (hknown : KnownDependencies deps)
    (hlength : other.length = deps.length)
    (hedges : ∀ node dependency, DependsOn other node dependency ↔ DependsOn deps node dependency) :
    KnownDependencies other := by
  intro targets hmem d hd
  obtain ⟨node, hnode⟩ := List.getElem?_of_mem hmem
  obtain ⟨line, hline, hd⟩ := (hedges node d).1 ⟨targets, hnode, hd⟩
  exact hlength ▸ hknown line (List.mem_of_getElem? hline) d hd

/-- Tables with the same edges have the same order or the same error. -/
theorem leastOrder_congr {other : List (List Nat)}
    (hknown : KnownDependencies deps) (hlength : other.length = deps.length)
    (hedges : ∀ node dependency, DependsOn other node dependency ↔ DependsOn deps node dependency) :
    leastOrder other = leastOrder deps := by
  have hother := hknown.of_edges hlength hedges
  have hsame : DependsOn other = DependsOn deps := by
    funext node dependency
    exact propext (hedges node dependency)
  -- Both outcomes are determined by the relation and the number of nodes.
  have htopological : ∀ order, IsTopological other order ↔ IsTopological deps order := by
    intro order
    constructor
    · rintro ⟨hperm, hfirst⟩
      exact ⟨hlength ▸ hperm, by rwa [DependenciesFirst, ← hsame]⟩
    · rintro ⟨hperm, hfirst⟩
      exact ⟨hlength ▸ hperm, by rwa [DependenciesFirst, hsame]⟩
  cases h : leastOrder deps with
  | ok order =>
    rw [leastOrder_eq_ok_iff_isLeast hother]
    simp only [htopological]
    exact leastOrder_isLeast h
  | error node =>
    rw [leastOrder_eq_error_iff_isLeast hother]
    simp only [ReachesCycle, hsame]
    exact leastOrder_error_isLeast hknown h

/-- A table that names only its own nodes has the order that is found, and can only have a cycle. -/
theorem dependencyOrder_eq (hknown : KnownDependencies deps) :
    dependencyOrder deps = (leastOrder deps).mapError .cycle := by
  unfold dependencyOrder
  rw [generationOrder_eq_leastOrder]
  refine if_neg fun hunknown => ?_
  obtain ⟨targets, hmem, htargets⟩ := List.any_eq_true.1 hunknown
  obtain ⟨d, hd, hle⟩ := List.any_eq_true.1 htargets
  exact absurd (hknown targets hmem d hd) (Nat.not_lt.2 (of_decide_eq_true hle))

end Table

/-- The generation order of a table that names only its own nodes, with repetitions, loops and edges to
later nodes. There is one exactly if the table has no cycle, and it is the least of the permutations in
which dependencies come first, in lexicographic order. Otherwise the error names the least node from which
a cycle can be reached. Both depend only on which edges there are. -/
theorem dependencyOrder_isLeast (deps : List (List Nat)) (hknown : KnownDependencies deps) :
    ((∃ order, dependencyOrder deps = .ok order) ↔ Acyclic deps) ∧
    (∀ order, dependencyOrder deps = .ok order ↔ IsLeast {order | IsTopological deps order} order) ∧
    (∀ error, dependencyOrder deps = .error error ↔
      ∃ node, error = .cycle node ∧ IsLeast {node | ReachesCycle deps node} node) ∧
    ∀ other : List (List Nat), other.length = deps.length →
      (∀ node dependency, DependsOn other node dependency ↔ DependsOn deps node dependency) →
        dependencyOrder other = dependencyOrder deps := by
  have hok : ∀ order, dependencyOrder deps = .ok order ↔ leastOrder deps = .ok order := by
    intro order
    rw [dependencyOrder_eq hknown]
    cases leastOrder deps <;> simp [Except.mapError]
  refine ⟨?_, ?_, ?_, ?_⟩
  · simp only [hok]
    exact exists_leastOrder_iff_acyclic hknown
  · intro order
    rw [hok, leastOrder_eq_ok_iff_isLeast hknown]
  · intro error
    simp only [← leastOrder_eq_error_iff_isLeast hknown, dependencyOrder_eq hknown]
    cases leastOrder deps <;> simp [Except.mapError, eq_comm]
  · intro other hlength hedges
    rw [dependencyOrder_eq hknown, dependencyOrder_eq (hknown.of_edges hlength hedges),
      leastOrder_congr hknown hlength hedges]

/-- A table with a repeated edge and edges to later nodes, and one with a loop that two nodes lead to. -/
theorem repeatedEdges_isLeast :
    KnownDependencies [[2, 2], [3], [], []] ∧ KnownDependencies [[], [2], [3, 0], [3]] ∧
    IsLeast {order | IsTopological [[2, 2], [3], [], []] order} [2, 0, 3, 1] ∧
    IsLeast {node | ReachesCycle [[], [2], [3, 0], [3]] node} 1 := by
  refine ⟨by decide, by decide, ?_, ?_⟩
  · exact ((dependencyOrder_isLeast [[2, 2], [3], [], []] (by decide)).2.1 _).1 (by decide)
  · obtain ⟨node, hnode, hleast⟩ :=
      ((dependencyOrder_isLeast [[], [2], [3, 0], [3]] (by decide)).2.2.1 (.cycle 1)).1 (by decide)
    cases hnode
    exact hleast

end ShaderWeave
