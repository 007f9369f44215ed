/-!
# Heaps of Numbers

Binary trees whose root is a least number, and so in every subtree. A number is put in along the side
that was not used last, and the least one is taken out by moving the smaller of the two next roots up.
-/

namespace ShaderWeave

/-- A tree of numbers. -/
inductive HeapTree where
  /-- No number. -/
  | leaf
  /-- A number above two trees. -/
  | node (root : Nat) (left right : HeapTree)
deriving DecidableEq

namespace HeapTree

/-- The numbers in a tree. -/
def toList : HeapTree → List Nat
  | leaf => []
  | node root left right => root :: (left.toList ++ right.toList)

/-- No number is less than one above it. -/
def Ordered : HeapTree → Prop
  | leaf => True
  | node root left right =>
    (∀ n ∈ left.toList ++ right.toList, root ≤ n) ∧ left.Ordered ∧ right.Ordered

/-- Put a number in. The two sides change places, so that the next one goes the other way. -/
def insert (n : Nat) : HeapTree → HeapTree
  | leaf => node n leaf leaf
  | node root left right => node (min n root) (right.insert (max n root)) left

/-- The tree without its root. -/
def dropRoot : HeapTree → HeapTree
  | leaf => leaf
  | node _ leaf right => right
  | node _ left leaf => left
  | node _ (node first l r) (node second l' r') =>
    if first ≤ second then node first (node first l r).dropRoot (node second l' r')
    else node second (node first l r) (node second l' r').dropRoot

theorem toList_insert_perm (n : Nat) (tree : HeapTree) :
    (tree.insert n).toList.Perm (n :: tree.toList) := by
  induction tree generalizing n with
  | leaf => exact .refl _
  | node root left right _ ih =>
    have hpair : [min n root, max n root].Perm [n, root] := by
      rcases Nat.le_total n root with h | h
      · rw [Nat.min_eq_left h, Nat.max_eq_right h]
      · rw [Nat.min_eq_right h, Nat.max_eq_left h]
        exact .swap ..
    calc min n root :: ((right.insert (max n root)).toList ++ left.toList)
      _ |>.Perm (min n root :: ((max n root :: right.toList) ++ left.toList)) :=
        .cons _ ((ih _).append_right _)
      _ |>.Perm ([min n root, max n root] ++ (left.toList ++ right.toList)) :=
        .cons _ (.cons _ List.perm_append_comm)
      _ |>.Perm ([n, root] ++ (left.toList ++ right.toList)) := hpair.append_right _

theorem toList_dropRoot_perm (tree : HeapTree) : tree.dropRoot.toList.Perm tree.toList.tail := by
  fun_induction dropRoot tree with
  | case1 => exact .refl _
  | case2 _ right => exact .refl _
  | case3 _ left _ => rw [toList, List.tail_cons, toList, List.append_nil]
  | case4 _ first l r second l' r' _ ih =>
    -- The root of the left side comes before the rest of that side, as it did there.
    exact .cons _ (ih.append_right _)
  | case5 _ first l r second l' r' _ ih =>
    calc second :: ((node first l r).toList ++ (node second l' r').dropRoot.toList)
      _ |>.Perm (second :: ((node first l r).toList ++ (l'.toList ++ r'.toList))) :=
        .cons _ (ih.append_left _)
      _ |>.Perm ((node first l r).toList ++ second :: (l'.toList ++ r'.toList)) :=
        List.perm_middle.symm

theorem Ordered.insert {tree : HeapTree} (h : tree.Ordered) (n : Nat) : (tree.insert n).Ordered := by
  induction tree generalizing n with
  | leaf => exact ⟨fun m hm => absurd hm List.not_mem_nil, trivial, trivial⟩
  | node root left right _ ih =>
    obtain ⟨hroot, hleft, hright⟩ := h
    refine ⟨fun m hm => ?_, ih hright _, hleft⟩
    have hle : min n root ≤ root := Nat.min_le_right n root
    rcases List.mem_append.1 hm with hm | hm
    · rcases List.mem_cons.1 ((right.toList_insert_perm _).mem_iff.1 hm) with rfl | hm
      · exact Nat.le_trans hle (Nat.le_max_right n root)
      · exact Nat.le_trans hle (hroot m (List.mem_append_right _ hm))
    · exact Nat.le_trans hle (hroot m (List.mem_append_left _ hm))

/-- The root of an ordered tree is a least number of it. -/
theorem Ordered.root_le {root : Nat} {left right : HeapTree} (h : (node root left right).Ordered) :
    ∀ n ∈ (node root left right).toList, root ≤ n :=
  List.forall_mem_cons.2 ⟨Nat.le_refl root, h.1⟩

theorem Ordered.dropRoot {tree : HeapTree} (h : tree.Ordered) : tree.dropRoot.Ordered := by
  fun_induction HeapTree.dropRoot tree with
  | case1 => trivial
  | case2 _ right => exact h.2.2
  | case3 _ left _ => exact h.2.1
  | case4 _ first l r second l' r' hle ih =>
    obtain ⟨-, hleft, hright⟩ := h
    refine ⟨fun n hn => ?_, ih hleft, hright⟩
    rcases List.mem_append.1 hn with hn | hn
    · exact hleft.1 n ((toList_dropRoot_perm _).mem_iff.1 hn)
    · exact Nat.le_trans hle (hright.root_le n hn)
  | case5 _ first l r second l' r' hlt ih =>
    obtain ⟨-, hleft, hright⟩ := h
    refine ⟨fun n hn => ?_, hleft, ih hright⟩
    rcases List.mem_append.1 hn with hn | hn
    · exact Nat.le_trans (Nat.le_of_not_le hlt) (hleft.root_le n hn)
    · exact hright.1 n ((toList_dropRoot_perm _).mem_iff.1 hn)

end HeapTree

/-- Numbers of which the least one can be taken out. -/
structure Heap where
  /-- The tree of the numbers. -/
  tree : HeapTree
  /-- Every root is a least number of its tree. -/
  ordered : tree.Ordered

namespace Heap

/-- No number. -/
def empty : Heap := ⟨.leaf, trivial⟩

/-- The numbers, in no particular order. -/
def toList (heap : Heap) : List Nat := heap.tree.toList

/-- Put a number in. -/
def insert (heap : Heap) (n : Nat) : Heap := ⟨heap.tree.insert n, heap.ordered.insert n⟩

/-- Take the least number out; `none` if there is no number. -/
def takeLeast? : Heap → Option (Nat × Heap)
  | ⟨.leaf, _⟩ => none
  | ⟨.node root left right, h⟩ => some (root, ⟨(HeapTree.node root left right).dropRoot, h.dropRoot⟩)

theorem toList_insert (heap : Heap) (n : Nat) : (heap.insert n).toList.Perm (n :: heap.toList) :=
  heap.tree.toList_insert_perm n

theorem takeLeast?_eq_none {heap : Heap} (h : heap.takeLeast? = none) : heap.toList = [] := by
  obtain ⟨_ | _, _⟩ := heap
  · rfl
  · cases h

/-- The number that is taken out is a least one, and the others stay. -/
theorem takeLeast?_eq_some {heap rest : Heap} {least : Nat} (h : heap.takeLeast? = some (least, rest)) :
    heap.toList.Perm (least :: rest.toList) ∧ ∀ n ∈ heap.toList, least ≤ n := by
  obtain ⟨_ | ⟨root, left, right⟩, hordered⟩ := heap
  · cases h
  · cases h
    exact ⟨.cons _ (HeapTree.node least left right).toList_dropRoot_perm.symm, hordered.root_le⟩

end Heap

end ShaderWeave
