import Mathlib.Data.List.Forall2
import Mathlib.Data.List.Nodup
import ShaderWeave.Model.Graph
import ShaderWeave.Proofs.ReadyNodes

/-!
# Correctness of Generation Orders

What `leastOrder` and the schedule of a stage graph promise to the passes that follow them.

* `leastOrder_perm` and `schedule_perm`: an order names every node exactly once, so a pass over the
  order reaches every node of the stage once.
* `leastOrder_before` and `schedule_before`: whatever a node reports to depend on stands before it in
  the order, and is a node of the same graph.
* `schedule_of_independent`: nodes that depend on nothing keep their order of registration.
-/

namespace ShaderWeave

/-! ## Outcomes of Lists of Checks -/

/-- A computation that succeeds has a first part that succeeds, and goes on with its value. -/
theorem bind_eq_ok {ε α β : Type} {x : Except ε α} {f : α → Except ε β} {b : β}
    (h : x >>= f = .ok b) : ∃ a, x = .ok a ∧ f a = .ok b := by
  cases x with
  | error e => cases h
  | ok a => exact ⟨a, rfl, h⟩

/-- An outcome of which something is known is a success. -/
theorem exists_ok_of_map_eq {ε α β : Type} {x : Except ε α} {f : α → β} {value : β}
    (h : x.toOption.map f = some value) : ∃ a, x = .ok a ∧ f a = value := by
  cases x with
  | ok a => exact ⟨a, rfl, Option.some.inj h⟩
  | error e => cases h

/-- A failure that a map keeps was there before. -/
theorem eq_error_of_map_eq {ε α β : Type} {x : Except ε α} {f : α → β} {e : ε}
    (h : x.map f = .error e) : x = .error e := by
  cases x with
  | ok a => cases h
  | error failure =>
    cases h
    rfl

/-- If all elements of a list pass through `f`, the results stand beside the elements. -/
theorem mapM_eq_ok {ε α β : Type} {f : α → Except ε β} {xs : List α} {ys : List β}
    (h : xs.mapM f = .ok ys) : List.Forall₂ (fun x y => f x = .ok y) xs ys := by
  induction xs generalizing ys with
  | nil =>
    rw [List.mapM_nil] at h
    cases h
    exact .nil
  | cons x xs ih =>
    rw [List.mapM_cons] at h
    obtain ⟨y, hy, h⟩ := bind_eq_ok h
    obtain ⟨rest, hrest, h⟩ := bind_eq_ok h
    cases h
    exact .cons hy (ih hrest)

/-- If all elements of a list pass through `f`, each has a result. -/
theorem exists_mem_of_mapM_eq_ok {ε α β : Type} {f : α → Except ε β} {xs : List α} {ys : List β}
    (h : xs.mapM f = .ok ys) {x : α} (hx : x ∈ xs) : ∃ y ∈ ys, f x = .ok y := by
  have hforall := mapM_eq_ok h
  clear h
  induction hforall with
  | nil => simp at hx
  | cons hhead _ ih =>
    rcases List.mem_cons.1 hx with rfl | hx
    · exact ⟨_, by simp, hhead⟩
    · obtain ⟨y, hy, hfy⟩ := ih hx
      exact ⟨y, by simp [hy], hfy⟩

/-- If each element of a list passes through `f`, so does the list. -/
theorem mapM_eq_ok_map {ε α β : Type} {f : α → Except ε β} {g : α → β} {xs : List α}
    (h : ∀ x ∈ xs, f x = .ok (g x)) : xs.mapM f = .ok (xs.map g) := by
  induction xs with
  | nil => rfl
  | cons x xs ih =>
    obtain ⟨hx, hxs⟩ := List.forall_mem_cons.1 h
    rw [List.mapM_cons, hx, ih hxs]
    rfl

/-- If a check of all elements of a list succeeds, it succeeds on each. -/
theorem forM_eq_ok {ε α : Type} {f : α → Except ε Unit} {xs : List α}
    (h : xs.forM f = .ok ()) : ∀ x ∈ xs, f x = .ok () := by
  induction xs with
  | nil => simp
  | cons x xs ih =>
    rw [List.forM_eq_forM, List.forM_cons] at h
    obtain ⟨⟨⟩, hx, hxs⟩ := bind_eq_ok h
    intro y hy
    rcases List.mem_cons.1 hy with rfl | hy
    · exact hx
    · exact ih hxs y hy

/-- If a check succeeds on each element of a list, it succeeds. -/
theorem forM_eq_ok_of_forall {ε α : Type} {f : α → Except ε Unit} {xs : List α}
    (h : ∀ x ∈ xs, f x = .ok ()) : xs.forM f = .ok () := by
  induction xs with
  | nil => rfl
  | cons x xs ih =>
    obtain ⟨hx, hxs⟩ := List.forall_mem_cons.1 h
    rw [List.forM_eq_forM, List.forM_cons, hx]
    exact ih hxs

/-- If a check of the elements of a list fails, it fails so on one of them. -/
theorem exists_mem_of_forM_eq_error {ε α : Type} {f : α → Except ε Unit} {xs : List α} {e : ε}
    (h : xs.forM f = .error e) : ∃ x ∈ xs, f x = .error e := by
  induction xs with
  | nil => cases h
  | cons x xs ih =>
    rw [List.forM_eq_forM, List.forM_cons] at h
    cases hx : f x with
    | error e' =>
      rw [hx] at h
      cases h
      exact ⟨x, List.mem_cons_self, hx⟩
    | ok value =>
      rw [hx] at h
      obtain ⟨y, hy, hfy⟩ := ih h
      exact ⟨y, List.mem_cons_of_mem x hy, hfy⟩

/-- If the elements of a list do not all pass through `f`, one of them fails so. -/
theorem exists_mem_of_mapM_eq_error {ε α β : Type} {f : α → Except ε β} {xs : List α} {e : ε}
    (h : xs.mapM f = .error e) : ∃ x ∈ xs, f x = .error e := by
  induction xs with
  | nil =>
    rw [List.mapM_nil] at h
    cases h
  | cons x xs ih =>
    rw [List.mapM_cons] at h
    cases hx : f x with
    | error e' =>
      rw [hx] at h
      cases h
      exact ⟨x, List.mem_cons_self, hx⟩
    | ok y =>
      rw [hx] at h
      cases hxs : xs.mapM f with
      | error e' =>
        have h' : (xs.mapM f >>= fun rest => pure (y :: rest)) = .error e := h
        rw [hxs] at h'
        cases h'
        obtain ⟨z, hz, hfz⟩ := ih hxs
        exact ⟨z, List.mem_cons_of_mem x hz, hfz⟩
      | ok ys =>
        have h' : (xs.mapM f >>= fun rest => pure (y :: rest)) = .error e := h
        rw [hxs] at h'
        cases h'

/-! ## Placing One Node after the Other -/

namespace Waiting

/-- When a node is placed, everything it waited for has been placed before. -/
theorem place_before {limit : Nat} {waiting : List Waiting}
    (hnodup : (waiting.map (·.node)).Nodup) {w : Waiting} (hw : w ∈ waiting)
    {before after : List Nat} (horder : (place limit waiting).1 = before ++ w.node :: after) :
    ∀ d ∈ w.waitsFor, d ∈ before := by
  induction limit generalizing waiting w before with
  | zero => simp [place] at horder
  | succ limit ih =>
    rw [place] at horder
    cases htake : takeReady waiting with
    | none => simp [htake] at horder
    | some taken =>
      obtain ⟨node, others⟩ := taken
      rw [htake] at horder
      obtain ⟨front, back, rfl, rfl, -⟩ := takeReady_eq_some_iff.1 htake
      simp only [List.map_append, List.map_cons] at hnodup
      have hperm : (front.map (·.node) ++ node :: back.map (·.node)).Perm
          (node :: (front ++ back).map (·.node)) := by
        rw [List.map_append]
        exact List.perm_middle
      obtain ⟨hnode, hothers⟩ := List.nodup_cons.1 (hperm.nodup_iff.1 hnodup)
      cases before with
      | nil =>
        -- The node is the one that is taken, which waits for nothing.
        simp only [List.nil_append, List.cons.injEq] at horder
        rcases List.mem_append.1 hw with hw | hw
        · exact absurd (List.mem_map.2 ⟨w, List.mem_append_left _ hw, horder.1.symm⟩) hnode
        · rcases List.mem_cons.1 hw with rfl | hw
          · simp
          · exact absurd (List.mem_map.2 ⟨w, List.mem_append_right _ hw, horder.1.symm⟩) hnode
      | cons first before =>
        -- The node is placed later, when `node` is no longer among what it waits for.
        simp only [List.cons_append, List.cons.injEq] at horder
        obtain ⟨rfl, horder⟩ := horder
        have hmem : w ∈ front ++ back := by
          rcases List.mem_append.1 hw with hw | hw
          · exact List.mem_append_left _ hw
          · rcases List.mem_cons.1 hw with rfl | hw
            · exfalso
              have hplaced := (place_perm limit ((front ++ back).map (release node))).mem_iff.1
                (List.mem_append_left _ (by rw [horder]; simp : node ∈ _))
              rw [map_node_release] at hplaced
              exact hnode hplaced
            · exact List.mem_append_right _ hw
        have hlater : ∀ d ∈ (w.release node).waitsFor, d ∈ before :=
          ih (by rwa [map_node_release]) (List.mem_map_of_mem hmem) horder
        intro d hd
        by_cases hdn : d = node
        · simp [hdn]
        · exact List.mem_cons_of_mem _ (hlater d (by simp [release, hd, hdn]))

/-- Nodes that wait for nothing are placed in their order. -/
theorem place_of_ready {limit : Nat} {waiting : List Waiting}
    (hready : ∀ w ∈ waiting, w.waitsFor = []) (hlimit : waiting.length ≤ limit) :
    place limit waiting = (waiting.map (·.node), []) := by
  induction waiting generalizing limit with
  | nil => cases limit <;> rfl
  | cons w rest ih =>
    obtain ⟨hw, hrest⟩ := List.forall_mem_cons.1 hready
    cases limit with
    | zero => simp at hlimit
    | succ limit =>
      -- Releasing a node changes nothing for those that do not wait.
      have hrelease : rest.map (release w.node) = rest := by
        rw [List.map_congr_left (g := id), List.map_id]
        intro other hother
        rw [release, hrest other hother, List.filter_nil, ← hrest other hother, id_eq]
      rw [place, takeReady, hw, List.isEmpty_nil, if_pos rfl]
      simp only [hrelease, ih hrest (by simpa using hlimit), List.map_cons]

end Waiting

/-! ## Orders of a Table of Dependencies -/

/-- The placed nodes of a table that has an order, none of which still waits. -/
theorem leastOrder_eq_ok_iff {deps : List (List Nat)} {order : List Nat} :
    leastOrder deps = .ok order ↔
      Waiting.place deps.length (Waiting.initial deps) = (order, []) := by
  unfold leastOrder
  split <;> simp_all

/-- An order names every node of the table exactly once. -/
theorem leastOrder_perm {deps : List (List Nat)} {order : List Nat}
    (horder : leastOrder deps = .ok order) : order.Perm (List.range deps.length) := by
  have hplaced := Waiting.place_perm deps.length (Waiting.initial deps)
  rw [leastOrder_eq_ok_iff.1 horder, Waiting.map_node_initial] at hplaced
  simpa using hplaced

/-- In an order, the dependencies of a node stand before it. -/
theorem leastOrder_before {deps : List (List Nat)} {before after targets : List Nat} {node : Nat}
    (horder : leastOrder deps = .ok (before ++ node :: after))
    (htargets : deps[node]? = some targets) : ∀ d ∈ targets, d ∈ before := by
  have hnodup : ((Waiting.initial deps).map (·.node)).Nodup := by
    rw [Waiting.map_node_initial]
    exact List.nodup_range
  have hmem : ⟨node, targets⟩ ∈ Waiting.initial deps := by
    simp only [Waiting.initial, List.mem_map, Prod.exists, Waiting.mk.injEq]
    exact ⟨targets, node, List.mem_zipIdx_iff_getElem?.2 htargets, rfl, rfl⟩
  have hplaced : (Waiting.place deps.length (Waiting.initial deps)).1 = before ++ node :: after := by
    rw [leastOrder_eq_ok_iff.1 horder]
  exact Waiting.place_before hnodup hmem hplaced

/-! ## Schedules of a Stage Graph -/

namespace StageGraph

/-- A dependency that passes the check is another node of the graph. -/
theorem checkDependency_eq_ok {g : StageGraph} {node : Node} {index target : Nat}
    {dependency : NodeId} (h : g.checkDependency node index dependency = .ok target) :
    dependency = g.nodeId target ∧ target < g.nodes.length ∧ target ≠ index := by
  unfold checkDependency at h
  split at h
  · cases h
  · rename_i hstage
    split at h
    · cases h
    · rename_i hplace
      cases h
      rw [not_or, not_or, Decidable.not_not, Nat.not_le] at hplace
      refine ⟨?_, hplace.2.1, hplace.2.2⟩
      rw [nodeId, ← Decidable.not_not.1 hstage, ← hplace.1]

/-- A graph that has a schedule has a table of dependencies, of which the schedule is an order. -/
theorem schedule_eq_ok {g : StageGraph} {order : List Nat} (h : g.schedule = .ok order) :
    ∃ table, g.dependencyTable = .ok table ∧ leastOrder table = .ok order := by
  obtain ⟨table, htable, h⟩ := bind_eq_ok h
  refine ⟨table, htable, ?_⟩
  split at h
  · rename_i found hfound
    cases h
    rwa [generationOrder_eq_leastOrder] at hfound
  · cases h

/-- Each node has one line in the table of dependencies. -/
theorem dependencyTable_forall₂ {g : StageGraph} {table : List (List Nat)}
    (h : g.dependencyTable = .ok table) :
    List.Forall₂ (fun entry targets => g.dependenciesAt entry.1 entry.2 = .ok targets)
      g.nodes.zipIdx table :=
  mapM_eq_ok h

/-- A schedule names every node of the graph exactly once. -/
theorem schedule_perm {g : StageGraph} {order : List Nat} (h : g.schedule = .ok order) :
    order.Perm (List.range g.nodes.length) := by
  obtain ⟨table, htable, horder⟩ := schedule_eq_ok h
  have hlength := (dependencyTable_forall₂ htable).length_eq
  rw [List.length_zipIdx] at hlength
  rw [hlength]
  exact leastOrder_perm horder

/-- The positions in a schedule are positions of nodes. -/
theorem lt_length_of_mem_schedule {g : StageGraph} {order : List Nat} (h : g.schedule = .ok order)
    {index : Nat} (hindex : index ∈ order) : index < g.nodes.length :=
  List.mem_range.1 ((schedule_perm h).mem_iff.1 hindex)

/-- Every dependency that a node reports is a node of the same graph and stands before it in the
schedule. -/
theorem schedule_before {g : StageGraph} {before after : List Nat} {index : Nat} {node : Node}
    (h : g.schedule = .ok (before ++ index :: after)) (hnode : g.nodes[index]? = some node) :
    ∃ dependencies, node.dependencies = some dependencies ∧
      ∀ id ∈ dependencies, ∃ target ∈ before, id = g.nodeId target := by
  obtain ⟨table, htable, horder⟩ := schedule_eq_ok h
  obtain ⟨targets, htargets, hentry⟩ :
      ∃ targets, table[index]? = some targets ∧ g.dependenciesAt node index = .ok targets := by
    have hforall := dependencyTable_forall₂ htable
    rw [List.forall₂_iff_get] at hforall
    obtain ⟨hlength, hentries⟩ := hforall
    obtain ⟨hindex, rfl⟩ := List.getElem?_eq_some_iff.1 hnode
    rw [List.length_zipIdx] at hlength
    refine ⟨table[index], List.getElem?_eq_getElem (hlength ▸ hindex), ?_⟩
    simpa using hentries index (by simpa using hindex) (hlength ▸ hindex)
  unfold dependenciesAt at hentry
  split at hentry
  · cases hentry
  · rename_i dependencies hdependencies
    refine ⟨dependencies, hdependencies, fun id hid => ?_⟩
    -- The line of the table comes from the reported dependencies, one target for each.
    cases hchecked : dependencies.mapM (g.checkDependency node index) with
    | error e => simp [hchecked, Except.mapError] at hentry
    | ok found =>
      rw [hchecked] at hentry
      cases hentry
      obtain ⟨target, htarget, hcheck⟩ := exists_mem_of_mapM_eq_ok hchecked hid
      exact ⟨target, leastOrder_before horder htargets target htarget,
        (checkDependency_eq_ok hcheck).1⟩

/-- Nodes that depend on nothing keep their order of registration. -/
theorem schedule_of_independent {g : StageGraph}
    (h : ∀ node ∈ g.nodes, node.dependencies = some []) :
    g.schedule = .ok (List.range g.nodes.length) := by
  have htable : g.dependencyTable = .ok (g.nodes.zipIdx.map fun _ => []) := by
    refine mapM_eq_ok_map fun entry hentry => ?_
    show g.dependenciesAt entry.1 entry.2 = .ok []
    rw [dependenciesAt, h entry.1 (List.fst_mem_of_mem_zipIdx hentry)]
    rfl
  have horder : leastOrder (g.nodes.zipIdx.map fun _ => []) = .ok (List.range g.nodes.length) := by
    rw [leastOrder_eq_ok_iff, Waiting.place_of_ready, Waiting.map_node_initial, List.length_map,
      List.length_zipIdx]
    · intro w hw
      obtain ⟨line, hline, rfl⟩ := List.mem_map.1 hw
      obtain ⟨entry, -, hnil⟩ := List.mem_map.1 (List.fst_mem_of_mem_zipIdx hline)
      exact hnil.symm
    · simp [Waiting.initial]
  rw [schedule, htable]
  simp only [generationOrder_eq_leastOrder, horder, bind, Except.bind]

end StageGraph

end ShaderWeave
