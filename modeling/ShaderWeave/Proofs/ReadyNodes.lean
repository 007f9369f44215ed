import Mathlib.Data.List.Nodup
import Mathlib.Data.List.Perm.Basic
import ShaderWeave.Schedule

/-!
# Placing Ready Nodes

The scheduler counts what each node still waits for and keeps the nodes that are ready in a heap. Here the
same order is given by what the nodes wait for: `leastOrder` keeps the nodes that are not placed in order
of registration, each with the dependencies that are not placed yet, and takes the first one that waits
for nothing. Both give the same, so that everything else about generation orders is shown of `leastOrder`.

## Main definitions

* `leastOrder`: the generation order, from what nodes wait for.
* `Scheduler.Tracks`: the counts and the heap of a scheduler are those of nodes that wait.

## Main results

* `Scheduler.counts_counted`, `Scheduler.tracks_initial`: what is counted at first, and what is ready.
* `Scheduler.Tracks.release`: placing a node and releasing its dependents leaves the others tracked.
* `Scheduler.Tracks.run`: so a run places the nodes in the same order.
* `generationOrder_eq_leastOrder`: the scheduler finds the order, or the node that is reported.
* `ready_run_initial`: it stops because no node is ready.
-/

namespace ShaderWeave

/-! ## Nodes That Wait -/

/-- A node that is not placed yet. -/
structure Waiting where
  /-- The node. -/
  node : Nat
  /-- Its dependencies that are not placed yet. -/
  waitsFor : List Nat
deriving DecidableEq

namespace Waiting

/-- The same node after `placed` has been placed. -/
def release (placed : Nat) (w : Waiting) : Waiting :=
  { w with waitsFor := w.waitsFor.filter (· != placed) }

/-- The first node that waits for nothing, and the others in their order. -/
def takeReady : List Waiting → Option (Nat × List Waiting)
  | [] => none
  | w :: rest =>
    if w.waitsFor.isEmpty then some (w.node, rest)
    else (takeReady rest).map fun (node, others) => (node, w :: others)

/-- Place at most `limit` nodes. Returns those placed, in order, and those that still wait. -/
def place : (limit : Nat) → List Waiting → List Nat × List Waiting
  | 0, waiting => ([], waiting)
  | limit + 1, waiting =>
    match takeReady waiting with
    | none => ([], waiting)
    | some (node, others) =>
      let (order, stuck) := place limit (others.map (release node))
      (node :: order, stuck)

/-- All nodes, waiting for all their dependencies. -/
def initial (deps : List (List Nat)) : List Waiting :=
  deps.zipIdx.map fun (waitsFor, node) => { node, waitsFor }

/-- The node that is taken is the first one that waits for nothing; the others stay as they are. -/
theorem takeReady_eq_some_iff {waiting others : List Waiting} {node : Nat} :
    takeReady waiting = some (node, others) ↔
      ∃ before after, waiting = before ++ ⟨node, []⟩ :: after ∧ others = before ++ after ∧
        ∀ w ∈ before, w.waitsFor ≠ [] := by
  induction waiting generalizing others with
  | nil => simp [takeReady]
  | cons w rest ih =>
    obtain ⟨first, waitsFor⟩ := w
    cases waitsFor with
    | nil =>
      simp only [takeReady, List.isEmpty_nil, if_true, Option.some.injEq, Prod.mk.injEq]
      constructor
      · rintro ⟨rfl, rfl⟩
        exact ⟨[], rest, rfl, rfl, by simp⟩
      · rintro ⟨before, after, hwaiting, hothers, hbefore⟩
        cases before with
        | nil =>
          simp only [List.nil_append, List.cons.injEq, Waiting.mk.injEq, and_true] at hwaiting
          exact ⟨hwaiting.1, by rw [hothers, hwaiting.2, List.nil_append]⟩
        | cons b before =>
          simp only [List.cons_append, List.cons.injEq] at hwaiting
          exact absurd (by rw [← hwaiting.1]) (hbefore b (by simp))
    | cons d ds =>
      simp only [takeReady, List.isEmpty_cons, Bool.false_eq_true, if_false, Option.map_eq_some_iff,
        Prod.exists, Prod.mk.injEq]
      constructor
      · rintro ⟨taken, kept, htaken, rfl, rfl⟩
        obtain ⟨before, after, rfl, rfl, hbefore⟩ := ih.1 htaken
        refine ⟨⟨first, d :: ds⟩ :: before, after, rfl, rfl, ?_⟩
        intro w hw
        rcases List.mem_cons.1 hw with rfl | hw
        · simp
        · exact hbefore w hw
      · rintro ⟨before, after, hwaiting, rfl, hbefore⟩
        cases before with
        | nil => simp at hwaiting
        | cons b before =>
          simp only [List.cons_append, List.cons.injEq] at hwaiting
          refine ⟨node, before ++ after, ?_, rfl, by rw [hwaiting.1, List.cons_append]⟩
          exact ih.2 ⟨before, after, hwaiting.2, rfl, fun w hw => hbefore w (by simp [hw])⟩

/-- Releasing a node leaves the other nodes and their order. -/
theorem map_node_release (placed : Nat) (waiting : List Waiting) :
    (waiting.map (release placed)).map (·.node) = waiting.map (·.node) := by
  simp [release]

/-- Every node is either placed or still waits. -/
theorem place_perm (limit : Nat) (waiting : List Waiting) :
    ((place limit waiting).1 ++ (place limit waiting).2.map (·.node)).Perm
      (waiting.map (·.node)) := by
  induction limit generalizing waiting with
  | zero => simp [place]
  | succ limit ih =>
    rw [place]
    cases htake : takeReady waiting with
    | none => simp
    | some taken =>
      obtain ⟨node, others⟩ := taken
      obtain ⟨before, after, rfl, rfl, -⟩ := takeReady_eq_some_iff.1 htake
      have hrest := ih ((before ++ after).map (release node))
      rw [map_node_release] at hrest
      refine (hrest.cons node).trans ?_
      rw [List.map_append, List.map_append, List.map_cons]
      exact List.perm_middle.symm

/-- No node is taken if all wait for something. -/
theorem takeReady_eq_none_iff {waiting : List Waiting} :
    takeReady waiting = none ↔ ∀ w ∈ waiting, w.waitsFor ≠ [] := by
  induction waiting with
  | nil => simp [takeReady]
  | cons w rest ih =>
    rw [takeReady, List.forall_mem_cons, ← ih, ← List.isEmpty_eq_false_iff]
    cases w.waitsFor.isEmpty with
    | true => simp
    | false => simp

/-- What one more step does: nothing if all nodes wait for something; otherwise the first one that does not
is placed, and the others go on without waiting for it. -/
theorem place_succ_cases (limit : Nat) (waiting : List Waiting) :
    ((∀ w ∈ waiting, w.waitsFor ≠ []) ∧ place (limit + 1) waiting = ([], waiting)) ∨
      ∃ before node after, waiting = before ++ ⟨node, []⟩ :: after ∧
        (∀ w ∈ before, w.waitsFor ≠ []) ∧
        place (limit + 1) waiting =
          (node :: (place limit ((before ++ after).map (release node))).1,
            (place limit ((before ++ after).map (release node))).2) := by
  cases htake : takeReady waiting with
  | none => exact .inl ⟨takeReady_eq_none_iff.1 htake, by rw [place, htake]⟩
  | some taken =>
    obtain ⟨node, others⟩ := taken
    obtain ⟨before, after, rfl, rfl, hbefore⟩ := takeReady_eq_some_iff.1 htake
    exact .inr ⟨before, node, after, rfl, hbefore, by rw [place, htake]⟩

/-- Placing nodes leaves the others in their order. -/
theorem sublist_stuck (limit : Nat) (waiting : List Waiting) :
    ((place limit waiting).2.map (·.node)).Sublist (waiting.map (·.node)) := by
  induction limit generalizing waiting with
  | zero => exact List.Sublist.refl _
  | succ limit ih =>
    rcases place_succ_cases limit waiting with ⟨-, hplace⟩ | ⟨before, node, after, rfl, -, hplace⟩
    · rw [hplace]
    · rw [hplace]
      have hrest := ih ((before ++ after).map (release node))
      rw [map_node_release] at hrest
      exact hrest.trans (((List.sublist_cons_self _ after).append_left before).map _)

/-- With enough steps, every node that is left waits for something. -/
theorem waitsFor_ne_nil_of_stuck {limit : Nat} {waiting : List Waiting}
    (hlimit : waiting.length ≤ limit) : ∀ w ∈ (place limit waiting).2, w.waitsFor ≠ [] := by
  induction limit generalizing waiting with
  | zero =>
    rw [List.eq_nil_of_length_eq_zero (Nat.le_zero.1 hlimit)]
    exact fun w hw => absurd hw List.not_mem_nil
  | succ limit ih =>
    rcases place_succ_cases limit waiting with
      ⟨hwaits, hplace⟩ | ⟨before, node, after, rfl, -, hplace⟩
    · rw [hplace]
      exact hwaits
    · rw [hplace]
      refine ih ?_
      simp only [List.length_append, List.length_cons, List.length_map] at hlimit ⊢
      omega

/-- The nodes that wait at first are numbered in order. -/
theorem map_node_initial (deps : List (List Nat)) :
    (initial deps).map (·.node) = List.range deps.length := by
  simp [initial, Function.comp_def, List.range_eq_range']

/-- The nodes that wait at first are those of the table, each with its dependencies. -/
theorem mem_initial_iff {deps : List (List Nat)} {node : Nat} {targets : List Nat} :
    ⟨node, targets⟩ ∈ initial deps ↔ deps[node]? = some targets := by
  simp only [initial, List.mem_map, Prod.exists, Waiting.mk.injEq]
  constructor
  · rintro ⟨_, _, hmem, rfl, rfl⟩
    exact List.mem_zipIdx_iff_getElem?.1 hmem
  · intro htargets
    exact ⟨targets, node, List.mem_zipIdx_iff_getElem?.2 htargets, rfl, rfl⟩

theorem pairwise_node_initial (deps : List (List Nat)) :
    ((initial deps).map (·.node)).Pairwise (· < ·) := by
  rw [map_node_initial]
  exact List.pairwise_lt_range

end Waiting


/-- The generation order of the nodes `0, …, deps.length - 1`, where `deps` lists the dependencies of
each. If there is none, the first node from which a cycle can be reached. -/
def leastOrder (deps : List (List Nat)) : Except Nat (List Nat) :=
  match Waiting.place deps.length (Waiting.initial deps) with
  | (order, []) => .ok order
  | (_, first :: _) => .error first.node


/-! ## Numbers in Ascending Order -/

theorem mem_insertOnce {n m : Nat} {ns : List Nat} : m ∈ insertOnce n ns ↔ m = n ∨ m ∈ ns := by
  fun_induction insertOnce n ns <;> grind

theorem pairwise_insertOnce (n : Nat) {ns : List Nat} (h : ns.Pairwise (· < ·)) :
    (insertOnce n ns).Pairwise (· < ·) := by
  fun_induction insertOnce n ns with
  | case1 => exact List.pairwise_singleton _ _
  | case2 m rest hlt =>
    refine List.pairwise_cons.2 ⟨fun k hk => ?_, h⟩
    rcases List.mem_cons.1 hk with rfl | hk
    · exact hlt
    · exact Nat.lt_trans hlt ((List.pairwise_cons.1 h).1 k hk)
  | case3 rest => exact h
  | case4 m rest hlt hne ih =>
    obtain ⟨hfirst, hrest⟩ := List.pairwise_cons.1 h
    refine List.pairwise_cons.2 ⟨fun k hk => ?_, ih hrest⟩
    rcases mem_insertOnce.1 hk with rfl | hk
    · omega
    · exact hfirst k hk

@[simp]
theorem mem_ascending {n : Nat} {ns : List Nat} : n ∈ ascending ns ↔ n ∈ ns := by
  induction ns with
  | nil => rfl
  | cons m ns ih =>
    rw [ascending, List.foldr_cons, mem_insertOnce, List.mem_cons]
    exact or_congr_right ih

theorem nodup_ascending (ns : List Nat) : (ascending ns).Nodup := by
  have hpairwise : (ascending ns).Pairwise (· < ·) := by
    induction ns with
    | nil => exact List.Pairwise.nil
    | cons m ns ih => exact pairwise_insertOnce m ih
  exact hpairwise.imp Nat.ne_of_lt

theorem length_ascending_eq_zero {ns : List Nat} : (ascending ns).length = 0 ↔ ns = [] := by
  simp only [List.length_eq_zero_iff, List.eq_nil_iff_forall_not_mem, mem_ascending]

/-- Without one of its numbers, a list has one number less. -/
theorem length_ascending_filter (n : Nat) (ns : List Nat) :
    (ascending (ns.filter (· != n))).length =
      (ascending ns).length - if n ∈ ns then 1 else 0 := by
  have hperm : (ascending (ns.filter (· != n))).Perm ((ascending ns).erase n) := by
    refine (List.perm_ext_iff_of_nodup (nodup_ascending _) ((nodup_ascending ns).erase n)).2 ?_
    intro m
    rw [(nodup_ascending ns).mem_erase_iff]
    simp [and_comm]
  rw [hperm.length_eq, List.length_erase]
  by_cases hmem : n ∈ ns <;> simp [hmem]

/-! ## Counting Dependencies -/

namespace Scheduler

variable {s : Scheduler} {node : Nat}

theorem pendingOf_addDependency (hnode : node < s.pending.length) (dependency i : Nat) :
    (addDependency node s dependency).pendingOf i = s.pendingOf i + if i = node then 1 else 0 := by
  simp only [pendingOf, addDependency, List.getD_eq_getElem?_getD, List.getElem?_modify]
  grind

theorem dependentsOf_addDependency {dependency i : Nat} (hi : i < s.dependents.length) :
    (addDependency node s dependency).dependentsOf i =
      s.dependentsOf i ++ if i = dependency then [node] else [] := by
  simp only [dependentsOf, addDependency, List.getD_eq_getElem?_getD, List.getElem?_modify]
  grind

/-- Counting the dependencies of a node adds their number to its count and the node to the dependents of
each. -/
theorem foldl_addDependency_spec {ds : List Nat} (hds : ds.Nodup) (hnode : node < s.pending.length) :
    let after := ds.foldl (addDependency node) s
    after.pending.length = s.pending.length ∧ after.dependents.length = s.dependents.length ∧
      (∀ i, after.pendingOf i = s.pendingOf i + if i = node then ds.length else 0) ∧
      ∀ i < s.dependents.length,
        after.dependentsOf i = s.dependentsOf i ++ if i ∈ ds then [node] else [] := by
  induction ds generalizing s with
  | nil => simp
  | cons d ds ih =>
    obtain ⟨hfresh, hds⟩ := List.nodup_cons.1 hds
    have hpending : (addDependency node s d).pending.length = s.pending.length := List.length_modify ..
    have hdependents : (addDependency node s d).dependents.length = s.dependents.length :=
      List.length_modify ..
    have hrest := ih (s := addDependency node s d) hds (by omega)
    obtain ⟨hlength, hlength', hcount, hlist⟩ := hrest
    refine ⟨hlength.trans hpending, hlength'.trans hdependents, fun i => ?_, fun i hi => ?_⟩
    · rw [List.foldl_cons, hcount, pendingOf_addDependency hnode, List.length_cons]
      split <;> omega
    · rw [List.foldl_cons, hlist i (by omega), dependentsOf_addDependency hi]
      by_cases hid : i = d
      · simp [hid, hfresh]
      · simp [hid]

/-- The dependencies of the nodes of a table are counted, out of `size` nodes. -/
structure Counts (size : Nat) (table : List (List Nat)) (s : Scheduler) : Prop where
  /-- There is a count for each node. -/
  length_pending : s.pending.length = size
  /-- There is a list of dependents for each node. -/
  length_dependents : s.dependents.length = size
  /-- A node waits for each of its dependencies. -/
  pending : ∀ node, s.pendingOf node = (ascending (table.getD node [])).length
  /-- The dependents of a node are those that list it. -/
  dependents : ∀ node < size,
    s.dependentsOf node = (List.range table.length).filter (node ∈ table.getD · [])

theorem getD_append_line (table : List (List Nat)) (line : List Nat) (i : Nat) :
    (table ++ [line]).getD i [] = if i = table.length then line else table.getD i [] := by
  rw [List.getD_eq_getElem?_getD, List.getD_eq_getElem?_getD, List.getElem?_append]
  grind

theorem Counts.add {size : Nat} {table : List (List Nat)} {line : List Nat}
    (h : Counts size table s) (hsize : table.length < size) :
    Counts size (table ++ [line]) (s.addDependencies (line, table.length)) := by
  obtain ⟨hlength, hlength', hpending, hdependents⟩ :=
    foldl_addDependency_spec (nodup_ascending line) (by rwa [h.length_pending] : table.length < _)
  refine ⟨hlength.trans h.length_pending, hlength'.trans h.length_dependents,
    fun node => ?_, fun node hnode => ?_⟩
  · rw [addDependencies, hpending, h.pending, getD_append_line]
    split
    · -- Nothing has been counted for the new node before.
      rename_i hnew
      rw [hnew, List.getD_eq_getElem?_getD, List.getElem?_eq_none (Nat.le_refl _)]
      exact Nat.zero_add _
    · rfl
  · have hbefore : (List.range table.length).filter (node ∈ (table ++ [line]).getD · []) =
        (List.range table.length).filter (node ∈ table.getD · []) := by
      refine List.filter_congr fun i hi => ?_
      rw [getD_append_line, if_neg (Nat.ne_of_lt (List.mem_range.1 hi))]
    rw [addDependencies, hdependents node (by rwa [h.length_dependents]), h.dependents node hnode,
      List.length_append, List.length_singleton, List.range_succ, List.filter_append, hbefore,
      List.filter_singleton, getD_append_line, if_pos rfl]
    simp

/-- Counting the dependencies of more nodes. -/
theorem Counts.foldl {size : Nat} {table more : List (List Nat)} (h : Counts size table s)
    (hsize : table.length + more.length ≤ size) :
    Counts size (table ++ more) ((more.zipIdx table.length).foldl addDependencies s) := by
  induction more generalizing table s with
  | nil => simpa using h
  | cons line more ih =>
    rw [List.length_cons] at hsize
    have hadd : Counts size (table ++ [line]) (s.addDependencies (line, table.length)) :=
      h.add (by omega)
    have hrest := ih hadd (by rw [List.length_append, List.length_singleton]; omega)
    rw [List.length_append, List.length_singleton] at hrest
    rwa [List.zipIdx_cons, List.foldl_cons, List.append_cons]

/-- The dependencies of all nodes are counted. -/
theorem counts_counted (deps : List (List Nat)) : Counts deps.length deps (counted deps) := by
  have hempty : Counts deps.length [] {
      pending := List.replicate deps.length 0
      dependents := List.replicate deps.length [] } := by
    refine ⟨List.length_replicate, List.length_replicate, fun node => ?_, fun node hnode => ?_⟩
    · simp [pendingOf, List.getD_eq_getElem?_getD, List.getElem?_replicate, ascending]
      grind
    · simp [dependentsOf, List.getD_eq_getElem?_getD, hnode]
  exact hempty.foldl (by simp)

/-! ## Releasing Dependents -/

theorem foldl_insert_perm (ns : List Nat) (heap : Heap) :
    (ns.foldl .insert heap).toList.Perm (ns ++ heap.toList) := by
  induction ns generalizing heap with
  | nil => exact .refl _
  | cons n ns ih =>
    exact (ih _).trans ((heap.toList_insert n).append_left ns |>.trans List.perm_middle)

theorem pendingOf_release (hnode : node < s.pending.length) (i : Nat) :
    (s.release node).pendingOf i = s.pendingOf i - if i = node then 1 else 0 := by
  simp only [pendingOf, release, List.getD_eq_getElem?_getD, List.getElem?_set]
  grind

/-- Releasing nodes takes one off the count of each. Those for which nothing is left are ready. -/
theorem foldl_release_spec {ns : List Nat} (hns : ns.Nodup) (hlt : ∀ n ∈ ns, n < s.pending.length) :
    let after := ns.foldl release s
    after.pending.length = s.pending.length ∧ after.dependents = s.dependents ∧
      (∀ i, after.pendingOf i = s.pendingOf i - if i ∈ ns then 1 else 0) ∧
      after.ready.toList.Perm (ns.filter (s.pendingOf · - 1 = 0) ++ s.ready.toList) := by
  induction ns generalizing s with
  | nil => simp
  | cons n ns ih =>
    obtain ⟨hfresh, hns⟩ := List.nodup_cons.1 hns
    obtain ⟨hn, hlt⟩ := List.forall_mem_cons.1 hlt
    have hlength : (s.release n).pending.length = s.pending.length := List.length_set
    obtain ⟨hlength', hdependents, hpending, hready⟩ :=
      ih (s := s.release n) hns fun m hm => by rw [hlength]; exact hlt m hm
    refine ⟨hlength'.trans hlength, hdependents, fun i => ?_, hready.trans ?_⟩
    · rw [List.foldl_cons, hpending, pendingOf_release hn]
      by_cases hi : i = n
      · simp [hi, hfresh]
      · simp [hi]
    · -- The counts of the later nodes are as they were.
      have hlater : ns.filter ((s.release n).pendingOf · - 1 = 0) =
          ns.filter (s.pendingOf · - 1 = 0) := by
        refine List.filter_congr fun m hm => ?_
        rw [pendingOf_release hn, if_neg (ne_of_mem_of_not_mem hm hfresh), Nat.sub_zero]
      rw [hlater, List.filter_cons]
      by_cases hleft : s.pendingOf n - 1 = 0
      · have hinsert : (s.release n).ready = s.ready.insert n := if_pos hleft
        rw [if_pos (decide_eq_true hleft), hinsert]
        exact ((s.ready.toList_insert n).append_left _).trans List.perm_middle
      · have hkeep : (s.release n).ready = s.ready := if_neg hleft
        rw [if_neg (by simpa using hleft), hkeep]

/-! ## Tracking Nodes That Wait -/

/-- A scheduler tracks the nodes of a table that wait. -/
structure Tracks (deps : List (List Nat)) (s : Scheduler) (waiting : List Waiting) : Prop where
  /-- There is a count for each node. -/
  length : s.pending.length = deps.length
  /-- The dependents of a node are those that list it. -/
  dependents : ∀ node < deps.length,
    s.dependentsOf node = (List.range deps.length).filter (node ∈ deps.getD · [])
  /-- The nodes stand in order of registration. -/
  sorted : (waiting.map (·.node)).Pairwise (· < ·)
  /-- They are nodes of the table. -/
  known : ∀ w ∈ waiting, w.node < deps.length
  /-- They wait for those of their dependencies that wait too, or do not exist. -/
  waits : ∀ w ∈ waiting, ∀ d, d ∈ w.waitsFor ↔
    d ∈ deps.getD w.node [] ∧ (d ∈ waiting.map (·.node) ∨ deps.length ≤ d)
  /-- The counts are how many that are. -/
  pending : ∀ w ∈ waiting, s.pendingOf w.node = (ascending w.waitsFor).length
  /-- The other nodes wait for nothing, and depend on no node that waits. -/
  placed : ∀ i, i ∉ waiting.map (·.node) →
    s.pendingOf i = 0 ∧ ∀ d ∈ deps.getD i [], d ∉ waiting.map (·.node)
  /-- A node is ready once. -/
  nodup_ready : s.ready.toList.Nodup
  /-- The nodes that are ready are those that wait for nothing. -/
  ready : ∀ i, i ∈ s.ready.toList ↔ ⟨i, []⟩ ∈ waiting

/-- At first all nodes wait for all their dependencies. -/
theorem tracks_initial (deps : List (List Nat)) :
    Tracks deps (initial deps) (Waiting.initial deps) := by
  have hcounts := counts_counted deps
  have hline {w : Waiting} (hw : w ∈ Waiting.initial deps) : deps[w.node]? = some w.waitsFor :=
    Waiting.mem_initial_iff.1 hw
  have hgetD {w : Waiting} (hw : w ∈ Waiting.initial deps) : deps.getD w.node [] = w.waitsFor := by
    rw [List.getD_eq_getElem?_getD, hline hw, Option.getD_some]
  have hready : (initial deps).ready.toList.Perm
      ((List.range deps.length).filter ((counted deps).pendingOf · == 0)) := by
    have hperm := foldl_insert_perm
      ((List.range (counted deps).pending.length).filter ((counted deps).pendingOf · == 0)) .empty
    rw [hcounts.length_pending] at hperm
    rw [initial, hcounts.length_pending]
    exact hperm.trans (List.append_nil _ ▸ .refl _)
  refine ⟨hcounts.length_pending, hcounts.dependents, Waiting.pairwise_node_initial deps,
    fun w hw => (List.getElem?_eq_some_iff.1 (hline hw)).1, fun w hw d => ?_, fun w hw => ?_,
    fun i hi => ?_, hready.nodup_iff.2 (List.nodup_range.filter _), fun i => ?_⟩
  · rw [hgetD hw, Waiting.map_node_initial, List.mem_range]
    exact (and_iff_left (Nat.lt_or_ge d deps.length)).symm
  · rw [← hgetD hw]
    exact hcounts.pending w.node
  · rw [Waiting.map_node_initial, List.mem_range, Nat.not_lt] at hi
    have hnone : deps.getD i [] = [] := by
      rw [List.getD_eq_getElem?_getD, List.getElem?_eq_none hi, Option.getD_none]
    have hcount := hcounts.pending i
    rw [hnone] at hcount ⊢
    exact ⟨hcount, fun d hd => absurd hd List.not_mem_nil⟩
  · rw [hready.mem_iff, List.mem_filter, List.mem_range, beq_iff_eq, hcounts.pending,
      length_ascending_eq_zero, Waiting.mem_initial_iff, List.getD_eq_getElem?_getD]
    constructor
    · rintro ⟨hi, hnil⟩
      rw [List.getElem?_eq_getElem hi, Option.getD_some] at hnil
      rw [List.getElem?_eq_getElem hi, hnil]
    · intro hnil
      exact ⟨(List.getElem?_eq_some_iff.1 hnil).1, by rw [hnil, Option.getD_some]⟩

namespace Tracks

variable {deps : List (List Nat)} {waiting before after : List Waiting} {least : Nat} {rest : Heap}

/-- Nothing is ready if all nodes wait for something. -/
theorem takeLeast?_eq_none (h : Tracks deps s waiting) (hwaits : ∀ w ∈ waiting, w.waitsFor ≠ []) :
    s.ready.takeLeast? = none := by
  cases htake : s.ready.takeLeast? with
  | none => rfl
  | some taken =>
    have hmem : taken.1 ∈ s.ready.toList :=
      (Heap.takeLeast?_eq_some htake).1.mem_iff.2 List.mem_cons_self
    exact absurd rfl (hwaits _ ((h.ready taken.1).1 hmem))

/-- The first node that waits for nothing is the least one that is ready. -/
theorem exists_takeLeast? (h : Tracks deps s (before ++ ⟨node, []⟩ :: after))
    (hbefore : ∀ w ∈ before, w.waitsFor ≠ []) :
    ∃ rest, s.ready.takeLeast? = some (node, rest) := by
  have hnode : node ∈ s.ready.toList := (h.ready node).2 (by simp)
  cases htake : s.ready.takeLeast? with
  | none =>
    rw [Heap.takeLeast?_eq_none htake] at hnode
    exact absurd hnode List.not_mem_nil
  | some taken =>
    obtain ⟨least, rest⟩ := taken
    obtain ⟨hperm, hle⟩ := Heap.takeLeast?_eq_some htake
    -- The least one is not before the first one, and not after it.
    have hge : node ≤ least := by
      have hmem := (h.ready least).1 (hperm.mem_iff.2 List.mem_cons_self)
      have hsorted := h.sorted
      rw [List.map_append, List.map_cons, List.pairwise_append, List.pairwise_cons] at hsorted
      rcases List.mem_append.1 hmem with hmem | hmem
      · exact absurd rfl (hbefore _ hmem)
      · rcases List.mem_cons.1 hmem with heq | hmem
        · exact Nat.le_of_eq (congrArg Waiting.node heq).symm
        · exact Nat.le_of_lt (hsorted.2.1.1 _ (List.mem_map_of_mem hmem))
    obtain rfl : least = node := Nat.le_antisymm (hle node hnode) hge
    exact ⟨rest, rfl⟩

/-- Without a node that stands in it, a sorted list has the other nodes. -/
theorem mem_others_iff (h : Tracks deps s (before ++ ⟨node, []⟩ :: after)) (i : Nat) :
    i ∈ (before ++ after).map (·.node) ↔
      i ∈ (before ++ ⟨node, []⟩ :: after).map (·.node) ∧ i ≠ node := by
  have hperm : ((before ++ ⟨node, []⟩ :: after).map (·.node)).Perm
      (node :: (before ++ after).map (·.node)) := List.perm_middle.map _
  have hnodup := hperm.nodup_iff.1 (h.sorted.imp Nat.ne_of_lt)
  rw [hperm.mem_iff, List.mem_cons]
  constructor
  · intro hi
    exact ⟨.inr hi, ne_of_mem_of_not_mem hi (List.nodup_cons.1 hnodup).1⟩
  · rintro ⟨hi, hne⟩
    exact hi.resolve_left hne

/-- As `mem_others_iff`, with what the nodes wait for. -/
theorem mem_append_iff (h : Tracks deps s (before ++ ⟨node, []⟩ :: after)) {w : Waiting} :
    w ∈ before ++ after ↔ w ∈ before ++ ⟨node, []⟩ :: after ∧ w.node ≠ node := by
  constructor
  · intro hw
    exact ⟨((List.sublist_cons_self _ after).append_left before).mem hw,
      ((h.mem_others_iff w.node).1 (List.mem_map_of_mem hw)).2⟩
  · rintro ⟨hw, hne⟩
    have hsplit : w ∈ before ∨ w = ⟨node, []⟩ ∨ w ∈ after := by simpa using hw
    rcases hsplit with hw | rfl | hw
    · exact List.mem_append_left _ hw
    · exact absurd rfl hne
    · exact List.mem_append_right _ hw

/-- A node that waits for one that waits for nothing is another node. -/
theorem node_ne_of_waitsFor (h : Tracks deps s (before ++ ⟨node, []⟩ :: after)) {w : Waiting}
    (hw : w ∈ before ++ ⟨node, []⟩ :: after) (hmem : node ∈ w.waitsFor) : w.node ≠ node := by
  intro heq
  have hzero := h.pending w hw
  rw [heq, h.pending ⟨node, []⟩ (by simp)] at hzero
  rw [length_ascending_eq_zero.1 hzero.symm] at hmem
  exact absurd hmem List.not_mem_nil

theorem mem_dependentsOf_iff (h : Tracks deps s waiting) (hnode : node < deps.length) {i : Nat} :
    i ∈ s.dependentsOf node ↔ i < deps.length ∧ node ∈ deps.getD i [] := by
  rw [h.dependents node hnode, List.mem_filter, List.mem_range, decide_eq_true_iff]

/-- Of the nodes that wait, the dependents of one that waits are those that wait for it. -/
theorem mem_dependentsOf_waiting (h : Tracks deps s waiting) {w : Waiting} (hw : w ∈ waiting)
    (hnode : node ∈ waiting.map (·.node)) : w.node ∈ s.dependentsOf node ↔ node ∈ w.waitsFor := by
  obtain ⟨v, hv, rfl⟩ := List.mem_map.1 hnode
  rw [h.mem_dependentsOf_iff (h.known v hv), h.waits w hw]
  constructor
  · rintro ⟨-, hdepends⟩
    exact ⟨hdepends, .inl hnode⟩
  · rintro ⟨hdepends, -⟩
    exact ⟨h.known w hw, hdepends⟩

/-- Only nodes that wait depend on one that waits. -/
theorem exists_waiting_of_dependent (h : Tracks deps s waiting) (hnode : node ∈ waiting.map (·.node))
    {i : Nat} (hi : node ∈ deps.getD i []) : ∃ w ∈ waiting, w.node = i := by
  by_contra hnone
  have hmem : i ∉ waiting.map (·.node) := by
    rintro hmem
    exact hnone (List.mem_map.1 hmem)
  exact (h.placed i hmem).2 node hi hnode

/-- Taking one off the counts of the dependents of a node is taking the node out of what they wait for. -/
theorem pendingOf_sub (h : Tracks deps s waiting) {w : Waiting} (hw : w ∈ waiting)
    (hnode : node ∈ waiting.map (·.node)) :
    s.pendingOf w.node - (if w.node ∈ s.dependentsOf node then 1 else 0) =
      (ascending (w.release node).waitsFor).length := by
  rw [h.pending w hw, Waiting.release, length_ascending_filter]
  simp only [h.mem_dependentsOf_waiting hw hnode]

/-- After a node is placed, a node is ready that has waited for it last, or that was ready before. -/
theorem ready_iff (h : Tracks deps s (before ++ ⟨node, []⟩ :: after))
    (htake : s.ready.takeLeast? = some (node, rest)) (i : Nat) :
    (i ∈ s.dependentsOf node ∧ s.pendingOf i - 1 = 0) ∨ i ∈ rest.toList ↔
      ⟨i, []⟩ ∈ (before ++ after).map (Waiting.release node) := by
  have hself : ⟨node, []⟩ ∈ before ++ ⟨node, []⟩ :: after := by simp
  have hwaiting : node ∈ (before ++ ⟨node, []⟩ :: after).map (·.node) := List.mem_map_of_mem hself
  obtain ⟨hperm, -⟩ := Heap.takeLeast?_eq_some htake
  obtain ⟨hfresh, -⟩ := List.nodup_cons.1 (hperm.nodup_iff.1 h.nodup_ready)
  constructor
  · rintro (⟨hdependent, hzero⟩ | hrest)
    · -- The last dependency of this node was the one that is placed.
      obtain ⟨w, hw, rfl⟩ := h.exists_waiting_of_dependent hwaiting
        ((h.mem_dependentsOf_iff (h.known _ hself)).1 hdependent).2
      have hcount := h.pendingOf_sub hw hwaiting
      rw [if_pos hdependent, hzero] at hcount
      have hnil : (w.release node).waitsFor = [] := length_ascending_eq_zero.1 hcount.symm
      have hne := h.node_ne_of_waitsFor hw ((h.mem_dependentsOf_waiting hw hwaiting).1 hdependent)
      exact List.mem_map.2 ⟨w, h.mem_append_iff.2 ⟨hw, hne⟩, congrArg (Waiting.mk w.node) hnil⟩
    · have hready := (h.ready i).1 (hperm.mem_iff.2 (List.mem_cons_of_mem node hrest))
      have hne : i ≠ node := ne_of_mem_of_not_mem hrest hfresh
      exact List.mem_map.2 ⟨⟨i, []⟩, h.mem_append_iff.2 ⟨hready, hne⟩, rfl⟩
  · intro hi
    obtain ⟨w, hw, hrelease⟩ := List.mem_map.1 hi
    obtain ⟨hw, hne⟩ := h.mem_append_iff.1 hw
    obtain ⟨rfl, hnil⟩ : w.node = i ∧ (w.release node).waitsFor = [] := by
      rw [hrelease]
      exact ⟨congrArg Waiting.node hrelease, rfl⟩
    have hcount := h.pendingOf_sub hw hwaiting
    rw [hnil] at hcount
    by_cases hdependent : w.node ∈ s.dependentsOf node
    · rw [if_pos hdependent] at hcount
      exact .inl ⟨hdependent, hcount⟩
    · -- It did not wait for the node, so it waited for nothing.
      rw [if_neg hdependent, Nat.sub_zero, h.pending w hw] at hcount
      have hempty : w = ⟨w.node, []⟩ :=
        congrArg (Waiting.mk w.node) (length_ascending_eq_zero.1 hcount)
      rw [hempty] at hw
      have hready := hperm.mem_iff.1 ((h.ready w.node).2 hw)
      exact .inr ((List.mem_cons.1 hready).resolve_left hne)

/-- After a node that waits for nothing is placed and its dependents are released, the others are
tracked. -/
theorem release (h : Tracks deps s (before ++ ⟨node, []⟩ :: after))
    (htake : s.ready.takeLeast? = some (node, rest)) :
    Tracks deps ((s.dependentsOf node).foldl Scheduler.release { s with ready := rest })
      ((before ++ after).map (Waiting.release node)) := by
  have hself : ⟨node, []⟩ ∈ before ++ ⟨node, []⟩ :: after := by simp
  have hwaiting : node ∈ (before ++ ⟨node, []⟩ :: after).map (·.node) := List.mem_map_of_mem hself
  have hsub : (before ++ after).Sublist (before ++ ⟨node, []⟩ :: after) :=
    (List.sublist_cons_self _ after).append_left before
  have hnode : node < deps.length := h.known _ hself
  have hnodup : (s.dependentsOf node).Nodup := by
    rw [h.dependents node hnode]
    exact List.nodup_range.filter _
  obtain ⟨hperm, -⟩ := Heap.takeLeast?_eq_some htake
  obtain ⟨-, hrestNodup⟩ := List.nodup_cons.1 (hperm.nodup_iff.1 h.nodup_ready)
  obtain ⟨hlength, hdependents, hpending, hready⟩ :=
    foldl_release_spec (s := { s with ready := rest }) hnodup fun n hn => by
      rw [h.length]
      exact ((h.mem_dependentsOf_iff hnode).1 hn).1
  have hothers := h.mem_others_iff
  have hnodes : ((before ++ after).map (Waiting.release node)).map (·.node) =
    (before ++ after).map (·.node) := Waiting.map_node_release node _
  constructor
  case length => exact hlength.trans h.length
  case dependents =>
    intro i hi
    rw [dependentsOf, hdependents]
    exact h.dependents i hi
  case sorted =>
    rw [hnodes]
    exact h.sorted.sublist (hsub.map _)
  case known =>
    intro released hreleased
    obtain ⟨w, hw, rfl⟩ := List.mem_map.1 hreleased
    exact h.known w (hsub.mem hw)
  case waits =>
    intro released hreleased d
    obtain ⟨w, hw, rfl⟩ := List.mem_map.1 hreleased
    rw [hnodes, hothers, Waiting.release, List.mem_filter, h.waits w (hsub.mem hw), bne_iff_ne]
    constructor
    · rintro ⟨⟨hdepends, hd⟩, hne⟩
      exact ⟨hdepends, hd.imp_left fun hd => ⟨hd, hne⟩⟩
    · rintro ⟨hdepends, ⟨hd, hne⟩ | hd⟩
      · exact ⟨⟨hdepends, .inl hd⟩, hne⟩
      · exact ⟨⟨hdepends, .inr hd⟩, by omega⟩
  case pending =>
    intro released hreleased
    obtain ⟨w, hw, rfl⟩ := List.mem_map.1 hreleased
    exact (hpending w.node).trans (h.pendingOf_sub (hsub.mem hw) hwaiting)
  case placed =>
    intro i hi
    rw [hnodes, hothers, not_and_or, not_not] at hi
    -- The node that is placed waits for nothing, like those that were placed before.
    obtain ⟨hzero, hdepends⟩ : s.pendingOf i = 0 ∧
        ∀ d ∈ deps.getD i [], d ∉ (before ++ ⟨node, []⟩ :: after).map (·.node) := by
      rcases hi with hi | rfl
      · exact h.placed i hi
      · refine ⟨h.pending _ hself, fun d hd hmem => ?_⟩
        exact absurd ((h.waits _ hself d).2 ⟨hd, .inl hmem⟩) List.not_mem_nil
    refine ⟨?_, fun d hd hmem => ?_⟩
    · rw [hpending]
      exact Nat.sub_eq_zero_of_le (Nat.le_trans (Nat.le_of_eq hzero) (Nat.zero_le _))
    · rw [hnodes, hothers] at hmem
      exact hdepends d hd hmem.1
  case nodup_ready =>
    refine hready.nodup_iff.2 (List.nodup_append'.2 ⟨hnodup.filter _, hrestNodup, ?_⟩)
    -- A node that was ready before did not wait for the one that is placed.
    intro i hi hrest
    have hempty := (h.ready i).1 (hperm.mem_iff.2 (List.mem_cons_of_mem node hrest))
    exact absurd ((h.mem_dependentsOf_waiting hempty hwaiting).1 (List.mem_of_mem_filter hi))
      List.not_mem_nil
  case ready =>
    intro i
    rw [hready.mem_iff, List.mem_append, List.mem_filter, decide_eq_true_iff]
    exact h.ready_iff htake i

/-- A scheduler places the nodes that are ready, as they are placed by what they wait for, and goes on to
track the others. -/
theorem run (h : Tracks deps s waiting) (limit : Nat) :
    (Scheduler.run limit s).1 = (Waiting.place limit waiting).1 ∧
      Tracks deps (Scheduler.run limit s).2 (Waiting.place limit waiting).2 := by
  induction limit generalizing s waiting with
  | zero => exact ⟨rfl, h⟩
  | succ limit ih =>
    rcases Waiting.place_succ_cases limit waiting with
      ⟨hwaits, hplace⟩ | ⟨before, node, after, rfl, hbefore, hplace⟩
    · rw [hplace, Scheduler.run, h.takeLeast?_eq_none hwaits]
      exact ⟨rfl, h⟩
    · obtain ⟨rest, htake⟩ := h.exists_takeLeast? hbefore
      obtain ⟨horder, htracks⟩ := ih (h.release htake)
      rw [hplace, Scheduler.run, htake]
      exact ⟨congrArg (node :: ·) horder, htracks⟩

/-- The first node that waits is the first one for which something is counted. -/
theorem find?_pending {w : Waiting} {others : List Waiting} (h : Tracks deps s (w :: others))
    (hwaits : w.waitsFor ≠ []) : (List.range deps.length).find? (0 < s.pendingOf ·) = some w.node := by
  have hpending : 0 < s.pendingOf w.node := by
    rw [h.pending w List.mem_cons_self]
    exact Nat.pos_of_ne_zero fun hzero => hwaits (length_ascending_eq_zero.1 hzero)
  refine List.find?_range_eq_some.2 ⟨decide_eq_true hpending,
    List.mem_range.2 (h.known w List.mem_cons_self), fun i hi => ?_⟩
  have hplaced : i ∉ (w :: others).map (·.node) := by
    intro hmem
    have hsorted := h.sorted
    rw [List.map_cons, List.pairwise_cons] at hsorted
    rcases List.mem_cons.1 hmem with rfl | hmem
    · exact Nat.lt_irrefl _ hi
    · exact Nat.lt_asymm hi (hsorted.1 i hmem)
  simp [(h.placed i hplaced).1]

end Tracks

end Scheduler

/-- The scheduler finds the order in which nodes are placed by what they wait for, or else reports the
first node that still waits. -/
theorem generationOrder_eq_leastOrder (deps : List (List Nat)) :
    generationOrder deps = leastOrder deps := by
  obtain ⟨horder, htracks⟩ := (Scheduler.tracks_initial deps).run deps.length
  have hlength := (Waiting.place_perm deps.length (Waiting.initial deps)).length_eq
  have hwaits : ∀ w ∈ (Waiting.place deps.length (Waiting.initial deps)).2, w.waitsFor ≠ [] :=
    Waiting.waitsFor_ne_nil_of_stuck (by simp [Waiting.initial])
  rw [Waiting.map_node_initial, List.length_range, List.length_append, List.length_map] at hlength
  unfold generationOrder leastOrder
  generalize Scheduler.run deps.length (Scheduler.initial deps) = ran at horder htracks ⊢
  generalize Waiting.place deps.length (Waiting.initial deps) = placed at horder htracks hlength hwaits ⊢
  obtain ⟨order, stopped⟩ := ran
  obtain ⟨_, stuck⟩ := placed
  obtain rfl := horder
  cases stuck with
  | nil => exact if_pos hlength
  | cons w others =>
    have hshort : order.length ≠ deps.length := by
      simp only [List.length_cons] at hlength
      omega
    simp only [if_neg hshort, htracks.find?_pending (hwaits w List.mem_cons_self), Option.getD_some]

/-- The scheduler places nodes until none is ready; the number of nodes is a limit that does not end the
run. -/
theorem ready_run_initial (deps : List (List Nat)) :
    (Scheduler.run deps.length (Scheduler.initial deps)).2.ready.toList = [] := by
  obtain ⟨-, htracks⟩ := (Scheduler.tracks_initial deps).run deps.length
  refine List.eq_nil_iff_forall_not_mem.2 fun i hi => ?_
  have hstuck := (htracks.ready i).1 hi
  exact Waiting.waitsFor_ne_nil_of_stuck (by simp [Waiting.initial]) _ hstuck rfl

end ShaderWeave
