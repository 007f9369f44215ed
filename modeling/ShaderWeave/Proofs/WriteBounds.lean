import ShaderWeave.Proofs.BlockContents

/-!
# Writes Stay in the Block

The layout of a block has room for every element of every member. A write is refused unless it names a
member and an element that are there, so what is stored lies in the block, and no routine of writes can
overrun it. The exception are arrays of length zero: a write to one of them that names no element is
not refused, and there is no room for it.

## Main definitions

* `BlockLayout.NoEmptyArrays`: no member is an array of length zero.

## Main results

* `std140?_holds`: a layout has room for the elements of its members.
* `locate_fits`: a write that is not refused lies in the block.
* `exists_refresh`: so every block is refreshed, whatever its routine does.
* `refresh_eq_some`: what it is then, also after an error.
-/

namespace ShaderWeave

open Std140

/-- No member is an array of length zero. -/
def BlockLayout.NoEmptyArrays (layout : BlockLayout) : Prop :=
  ∀ member ∈ layout.members, member.arrayLen ≠ some 0

instance (layout : BlockLayout) : Decidable layout.NoEmptyArrays :=
  inferInstanceAs (Decidable (∀ member ∈ layout.members, member.arrayLen ≠ some 0))

/-! ## Room for Elements -/

/-- A member is placed somewhere, and ends before the last of the members does. -/
theorem Std140.Laid.placed_of_mem {start finish : Nat} {vars : List Variable} {members : List Member}
    (h : Laid start vars members finish) {member : Member} (hmem : member ∈ members) :
    (∃ begin var, Placed begin var member) ∧
      member.offset.toNat + member.size.toNat ≤ finish := by
  induction h with
  | nil => cases hmem
  | cons hplaced hrest ih =>
    rcases List.mem_cons.1 hmem with rfl | hmem
    · exact ⟨⟨_, _, hplaced⟩, hrest.le⟩
    · exact ih hmem

/-- A layout has room for the elements of its members. -/
theorem std140?_holds {vars : List Variable} {layout : BlockLayout}
    (h : BlockLayout.std140? vars = some layout) {member : Member} (hmem : member ∈ layout.members)
    {element : Nat} (helement : element < member.elementCount.toNat) :
    member.offset.toNat + element * member.stride.toNat + size member.ty ≤ layout.size.toNat := by
  obtain ⟨finish, hlaid, hsize⟩ := std140?_isStd140 h
  obtain ⟨⟨begin, var, hplaced⟩, hfinish⟩ := hlaid.placed_of_mem hmem
  have hlength := hplaced.size_le_stride
  have hcount : member.size.toNat = member.stride.toNat * member.elementCount.toNat := by
    rw [hplaced.size, show member.elementCount = var.elementCount from
      congrArg Variable.elementCount hplaced.variable_eq]
  -- The element ends before the next one begins, so before the member ends.
  have hend : (element + 1) * member.stride.toNat ≤ member.size.toNat := by
    rw [hcount, Nat.mul_comm member.stride.toNat]
    exact Nat.mul_le_mul_right _ helement
  rw [Nat.add_one_mul] at hend
  have hround := hsize.le
  omega

namespace BlockShape

variable {shape : BlockShape}

/-- The element that a write names is there, unless the array is empty. -/
theorem element_lt {member : Member} (hlen : member.arrayLen ≠ some 0) {index : Option UInt32}
    {number : UInt32} (h : shape.element member index = .ok number) :
    number.toNat < member.elementCount.toNat := by
  cases hmember : member.arrayLen with
  | none =>
    have hcount : member.elementCount = 1 := by simp [Variable.elementCount, hmember]
    cases index with
    | none =>
      cases h
      simp [hcount]
    | some i => simp [element, hmember] at h
  | some len =>
    have hcount : member.elementCount = len := by simp [Variable.elementCount, hmember]
    rw [hcount]
    cases index with
    | none =>
      cases h
      have hpos : len ≠ 0 := fun hzero => hlen (hmember.trans (congrArg some hzero))
      have hnat : len.toNat ≠ 0 := fun hzero => hpos (UInt32.toNat.inj hzero)
      simpa [Nat.pos_iff_ne_zero] using hnat
    | some i =>
      simp only [element, hmember] at h
      split at h <;> cases h
      rename_i hlt
      exact UInt32.lt_iff_toNat_lt.1 hlt

/-- A write that is not refused lies in the block. -/
theorem locate_fits {vars : List Variable} (hlayout : BlockLayout.std140? vars = some shape.layout)
    (hnonempty : shape.layout.NoEmptyArrays) {cursor position offset : Nat} {w : Write}
    (h : shape.locate cursor w = .ok (position, offset)) :
    offset + w.value.bytes.length ≤ shape.layout.size.toNat := by
  unfold locate at h
  split at h
  · cases h
  · rename_i member found hfound
    have hmem : member ∈ shape.layout.members :=
      List.fst_mem_of_mem_zipIdx (List.mem_of_find?_eq_some hfound)
    split at h
    · cases h
    · rename_i hty
      split at h
      · cases h
      · split at h
        · cases h
        · rename_i number hnumber
          cases h
          -- The value has the type of the member, so it is as long as an element.
          rw [Datum.length_bytes, ← Classical.not_not.1 hty]
          exact std140?_holds hlayout hmem (element_lt (hnonempty member hmem) hnumber)

/-- A write does not overrun. -/
theorem write_ne_overrun {vars : List Variable}
    (hlayout : BlockLayout.std140? vars = some shape.layout) (hnonempty : shape.layout.NoEmptyArrays)
    {buffer : BlockBuffer} (hsize : buffer.size = shape.layout.size.toNat) (w : Write) :
    shape.write buffer w ≠ .overrun := by
  unfold write
  split
  · intro h
    cases h
  · rename_i position offset hlocate
    have hfits := locate_fits hlayout hnonempty hlocate
    rw [← hsize] at hfits
    rw [BlockBuffer.store?, if_pos hfits]
    intro h
    cases h

/-- A call of a routine is answered. -/
theorem answer_ne_error {vars : List Variable}
    (hlayout : BlockLayout.std140? vars = some shape.layout) (hnonempty : shape.layout.NoEmptyArrays)
    {state after : UpdateState} (hsize : state.buffer.size = shape.layout.size.toNat)
    {request : UpdateCall} {failure : UpdateFailure} :
    shape.answer request state ≠ .error failure after := by
  cases request with
  | record entry =>
    intro h
    cases h
  | write w =>
    have hwrite := write_ne_overrun hlayout hnonempty hsize w
    simp only [answer]
    split
    · intro h
      cases h
    · intro h
      cases h
    · exact absurd (by assumption) hwrite

/-- No routine of writes overruns. -/
theorem run_ne_overrun {vars : List Variable}
    (hlayout : BlockLayout.std140? vars = some shape.layout) (hnonempty : shape.layout.NoEmptyArrays)
    (update : Updating Unit) {state after : UpdateState}
    (hsize : state.buffer.size = shape.layout.size.toNat) :
    shape.run update state ≠ .error .overrun after := by
  induction update generalizing state with
  | done value =>
    intro h
    cases h
  | fail error =>
    intro h
    cases h
  | call request next ih =>
    have hanswer := size_answer shape request state
    rw [run_call, EStateM.bind]
    split
    · next answer middle h =>
      rw [h] at hanswer
      exact ih answer (hanswer.trans hsize)
    · next failure middle h => exact absurd h (answer_ne_error hlayout hnonempty hsize)

/-- The routine ends with an error. -/
def fails (shape : BlockShape) (update : Updating Unit) : Bool :=
  match shape.run update { buffer := shape.blank, records := [] } with
  | .error (.refused _) _ => true
  | _ => false

/-- A block that is refreshed has its size, and is all zero if its routine ends with an error. -/
theorem refresh_eq_some {update : Updating Unit} {refreshed : Refreshed}
    (h : shape.refresh update = some refreshed) :
    refreshed.bytes.length = shape.layout.size.toNat ∧
      refreshed.error.isSome = shape.fails update ∧
      (shape.fails update = true →
        refreshed.bytes = List.replicate shape.layout.size.toNat 0) := by
  have hsize := size_run shape update { buffer := shape.blank, records := [] }
  unfold refresh at h
  unfold fails
  rw [EStateM.run] at h
  cases hrun : shape.run update { buffer := shape.blank, records := [] } with
  | ok _ state =>
    rw [hrun] at h hsize
    cases h
    refine ⟨?_, rfl, fun hfails => by cases hfails⟩
    rw [Refreshed.bytes, BlockBuffer.length_bytes]
    exact hsize
  | error failure state =>
    rw [hrun] at h
    cases failure with
    | overrun => cases h
    | refused error =>
      cases h
      exact ⟨BlockBuffer.length_bytes _, rfl, fun _ => Array.toList_replicate ..⟩

/-- A block is refreshed by every update that does not overrun. -/
theorem exists_refresh_of_ne_overrun {update : Updating Unit}
    (h : ∀ after, shape.run update { buffer := shape.blank, records := [] } ≠ .error .overrun after) :
    ∃ refreshed, shape.refresh update = some refreshed := by
  unfold refresh
  rw [EStateM.run]
  cases hrun : shape.run update { buffer := shape.blank, records := [] } with
  | ok _ state => exact ⟨_, rfl⟩
  | error failure state =>
    cases failure with
    | overrun => exact absurd hrun (h state)
    | refused error => exact ⟨_, rfl⟩

/-- Every block is refreshed, whatever its routine does. -/
theorem exists_refresh {vars : List Variable}
    (hlayout : BlockLayout.std140? vars = some shape.layout) (hnonempty : shape.layout.NoEmptyArrays)
    (update : Updating Unit) : ∃ refreshed, shape.refresh update = some refreshed :=
  exists_refresh_of_ne_overrun fun _ => run_ne_overrun hlayout hnonempty update rfl

end BlockShape

end ShaderWeave
