import Mathlib.Algebra.Group.Int.Defs
import ShaderWeave.Proofs.DrawData

/-!
# The Range of Kernel Samples

Ambient occlusion evaluates a range of the samples of its kernel, and the shader uses the two ends of the
range as they are stored, as the bounds of a loop over the array of samples. However the range is set, it
lies inside the kernel, so the loop stays inside the array. A range that is asked for by a start that is
not negative holds the samples that were asked for, as far as there are such samples.

The end of a range is the sum of two signed words, of which only the first is bounded by the kernel. The
number of samples that is asked for can be so large that the sum does not fit, although no range would
have more samples than there are. Such a range cannot be set.

## Main definitions

* `Settings.Evaluates`: the sample at a position is evaluated.
* `Settings.InKernel`: these are positions of the kernel.
* `Change.Fits`: the change needs no number that does not fit a signed word.

## Main results

* `exists_change?_iff`, `InKernel.change?`: which change can be made, and what it keeps.
* `evaluates_setKernelRange?`: the samples of a range that is set.
* `kernel_range_in_kernel`: all this after any sequence of changes.
-/

namespace ShaderWeave

/-! ## Words -/

theorem Word.toNat_min (a b : UInt32) : (min a b).toNat = min a.toNat b.toNat := by
  change (if a ≤ b then a else b).toNat = _
  split <;> rename_i hle <;> rw [UInt32.le_iff_toNat_le] at hle <;> omega

namespace SignedWord

theorem toInt_min (a b : Int32) : (min a b).toInt = min a.toInt b.toInt := by
  change (if a ≤ b then a else b).toInt = _
  split <;> rename_i hle <;> rw [Int32.le_iff_toInt_le] at hle <;> omega

theorem toInt_max (a b : Int32) : (max a b).toInt = max a.toInt b.toInt := by
  change (if a ≤ b then b else a).toInt = _
  split <;> rename_i hle <;> rw [Int32.le_iff_toInt_le] at hle <;> omega

theorem add?_eq_some_iff {a b sum : Int32} :
    add? a b = some sum ↔ sum.toInt = a.toInt + b.toInt := by
  have hlow := sum.le_toInt
  have hhigh := sum.toInt_lt
  simp only [add?]
  split
  · rename_i hfits
    rw [Option.some.injEq, ← Int32.toInt_inj, Int32.toInt_ofInt_of_le (by omega) (by omega)]
    exact eq_comm
  · simp only [reduceCtorEq, false_iff]
    omega

theorem exists_add?_iff {a b : Int32} :
    (∃ sum, add? a b = some sum) ↔ -2 ^ 31 ≤ a.toInt + b.toInt ∧ a.toInt + b.toInt < 2 ^ 31 := by
  simp only [add?]
  split
  · rename_i hfits
    exact ⟨fun _ => hfits, fun _ => ⟨_, rfl⟩⟩
  · rename_i hfits
    refine ⟨?_, fun h => absurd h hfits⟩
    rintro ⟨sum, h⟩
    cases h

end SignedWord

/-! ## Samples -/

theorem length_shuffle {α : Type} (generator : Pcg) (items : List α) :
    (shuffle generator items).length = items.length := by
  unfold shuffle
  split
  · rfl
  · rw [Array.length_toList, (shuffleFrom_perm _ _ _).size_eq, List.size_toArray]

namespace AmbientOcclusion

open SignedWord

theorem length_generateKernel (n : Nat) : (generateKernel n).length = n := by
  simp [generateKernel, length_shuffle]

/-! ## One Change -/

/-- The sample at a position is evaluated. -/
def Settings.Evaluates (s : Settings) (i : Int) : Prop :=
  s.rangeFrom.toInt ≤ i ∧ i < s.rangeTo.toInt

/-- The ends of the range are in order and inside the kernel. -/
structure Settings.InKernel (s : Settings) : Prop where
  /-- The range does not begin before the kernel. -/
  nonneg : 0 ≤ s.rangeFrom.toInt
  /-- The range does not end before it begins. -/
  ordered : s.rangeFrom.toInt ≤ s.rangeTo.toInt
  /-- The range does not end after the kernel. -/
  bounded : s.rangeTo.toInt ≤ kernelSize

/-- The change needs no number that does not fit a signed word. Only a range can need one: its end,
before that is brought into the kernel. -/
def Change.Fits : Change → Prop
  | .kernelRange start count =>
    min (max start.toInt 0) AmbientOcclusion.kernelSize + max count.toInt 0 < 2 ^ 31
  | _ => True

instance (change : Change) : Decidable change.Fits :=
  match change with
  | .kernelRange .. => inferInstanceAs (Decidable (_ < _))
  | .radius _ | .strength _ | .power _ | .bias _ | .kernelSize _ => .isTrue trivial

namespace Settings

variable {s s' : Settings} {start count : Int32} {change : Change}

theorem toInt_sizeLimit : sizeLimit.toInt = kernelSize := by
  decide

/-- The ends of a range that is set. -/
theorem ends_setKernelRange? (h : s.setKernelRange? start count = some s') :
    s'.rangeFrom.toInt = min (max start.toInt 0) kernelSize ∧
      s'.rangeTo.toInt = min (s'.rangeFrom.toInt + max count.toInt 0) kernelSize := by
  obtain ⟨last, hlast, h⟩ := Option.bind_eq_some_iff.1 h
  cases h
  rw [add?_eq_some_iff] at hlast
  simp only [toInt_min, toInt_max, toInt_sizeLimit, hlast]
  exact ⟨rfl, rfl⟩

/-- A range can be set exactly if its end fits a signed word. -/
theorem exists_setKernelRange?_iff :
    (∃ s', s.setKernelRange? start count = some s') ↔ Change.Fits (.kernelRange start count) := by
  have hsum : (∃ last, add? (min (max start 0) sizeLimit) (max count 0) = some last) ↔
      Change.Fits (.kernelRange start count) := by
    rw [exists_add?_iff]
    have hzero : (0 : Int32).toInt = 0 := rfl
    simp only [Change.Fits, toInt_min, toInt_max, toInt_sizeLimit, hzero]
    omega
  rw [← hsum]
  constructor
  · rintro ⟨s', h⟩
    obtain ⟨last, hlast, -⟩ := Option.bind_eq_some_iff.1 h
    exact ⟨last, hlast⟩
  · rintro ⟨last, hlast⟩
    exact ⟨_, Option.bind_eq_some_iff.2 ⟨last, hlast, rfl⟩⟩

/-- A number of samples up to the size of the kernel is read as the same number when it is read as
signed. -/
theorem toInt_min_kernelSize (size : UInt32) :
    (min size 64).toInt32.toInt = min size.toNat kernelSize := by
  have hmin : (min size 64).toNat = min size.toNat kernelSize := Word.toNat_min size 64
  change (min size 64).toBitVec.toInt = _
  rw [BitVec.toInt_eq_toNat_of_lt]
  · exact congrArg Nat.cast hmin
  · change 2 * (min size 64).toNat < 2 ^ 32
    unfold kernelSize at hmin
    omega

/-- The first samples are a range that can be set. -/
theorem setKernelRange?_zero (s : Settings) (size : UInt32) :
    s.setKernelRange? 0 (min size 64).toInt32 = some (s.setKernelSize size) := by
  have hzero : (0 : Int32).toInt = 0 := rfl
  have hfits : Change.Fits (.kernelRange 0 (min size 64).toInt32) := by
    simp only [Change.Fits, toInt_min_kernelSize, hzero, kernelSize]
    omega
  obtain ⟨s', hs'⟩ := (exists_setKernelRange?_iff (s := s)).2 hfits
  rw [setKernelSize, hs', Option.getD_some]

/-- The ends of the first samples of the kernel. -/
theorem ends_setKernelSize (s : Settings) (size : UInt32) :
    (s.setKernelSize size).rangeFrom.toInt = 0 ∧
      (s.setKernelSize size).rangeTo.toInt = min size.toNat kernelSize := by
  have hzero : (0 : Int32).toInt = 0 := rfl
  obtain ⟨hfrom, hto⟩ := ends_setKernelRange? (setKernelRange?_zero s size)
  rw [toInt_min_kernelSize] at hto
  rw [hzero] at hfrom
  omega

/-- A change can be made exactly if it fits. -/
theorem exists_change?_iff : (∃ s', s.change? change = some s') ↔ change.Fits := by
  cases change with
  | radius value | strength value | power value | bias value | kernelSize size =>
    exact ⟨fun _ => trivial, fun _ => ⟨_, rfl⟩⟩
  | kernelRange start count => exact exists_setKernelRange?_iff

/-- A change leaves the range inside the kernel. -/
theorem InKernel.change? (h : s.InKernel) (hchange : s.change? change = some s') : s'.InKernel := by
  cases change with
  | radius value | strength value | power value | bias value =>
    cases hchange
    exact ⟨h.nonneg, h.ordered, h.bounded⟩
  | kernelRange start count =>
    obtain ⟨hfrom, hto⟩ := ends_setKernelRange? hchange
    constructor <;> omega
  | kernelSize size =>
    cases hchange
    obtain ⟨hfrom, hto⟩ := ends_setKernelSize s size
    constructor <;> omega

/-- A range from a start that is not negative holds the samples that are asked for, as far as there are
such samples. -/
theorem evaluates_setKernelRange? (h : s.setKernelRange? start count = some s')
    (hstart : 0 ≤ start.toInt) (i : Int) :
    s'.Evaluates i ↔
      (start.toInt ≤ i ∧ i < start.toInt + count.toInt) ∧ 0 ≤ i ∧ i < kernelSize := by
  obtain ⟨hfrom, hto⟩ := ends_setKernelRange? h
  unfold Evaluates
  omega

theorem evaluates_setKernelSize (s : Settings) (size : UInt32) (i : Int) :
    (s.setKernelSize size).Evaluates i ↔ 0 ≤ i ∧ i < min size.toNat kernelSize := by
  obtain ⟨hfrom, hto⟩ := ends_setKernelSize s size
  rw [Evaluates, hfrom, hto]

/-- The number of samples of a range inside the kernel. -/
theorem InKernel.kernelCount_eq (h : s.InKernel) :
    (s.kernelCount.toNat : Int) = s.rangeTo.toInt - s.rangeFrom.toInt := by
  have hsub : (s.rangeTo - s.rangeFrom).toInt = s.rangeTo.toInt - s.rangeFrom.toInt :=
    Int32.toInt_sub_of_le _ _ (Int32.le_iff_toInt_le.2 h.nonneg) (Int32.le_iff_toInt_le.2 h.ordered)
  have hordered := h.ordered
  have hzero : (0 : Int32).toInt = 0 := rfl
  have hmax : (max (s.rangeTo - s.rangeFrom) 0).toInt = s.rangeTo.toInt - s.rangeFrom.toInt := by
    rw [toInt_max, hsub, hzero]
    omega
  rw [kernelCount, Int32.toNat_toUInt32_of_le, Int32.toNatClampNeg, hmax]
  · omega
  · rw [Int32.le_iff_toInt_le, hmax, hzero]
    omega

/-! ## Sequences of Changes -/

theorem inKernel_initial : initial.InKernel := by
  constructor <;> decide

/-- Changes leave the range inside the kernel. -/
theorem InKernel.changeAll? {changes : List Change} (h : s.InKernel)
    (hchanges : s.changeAll? changes = some s') : s'.InKernel := by
  induction changes generalizing s with
  | nil =>
    cases hchanges
    exact h
  | cons change changes ih =>
    obtain ⟨next, hnext, hrest⟩ := Option.bind_eq_some_iff.1 hchanges
    exact ih (h.change? hnext) hrest

/-- Changes can be made exactly if each of them fits. -/
theorem exists_changeAll?_iff {changes : List Change} :
    (∃ s', s.changeAll? changes = some s') ↔ ∀ change ∈ changes, change.Fits := by
  induction changes generalizing s with
  | nil => exact ⟨fun _ change hmem => absurd hmem List.not_mem_nil, fun _ => ⟨s, rfl⟩⟩
  | cons change changes ih =>
    rw [List.forall_mem_cons]
    constructor
    · rintro ⟨s', h⟩
      obtain ⟨next, hnext, hrest⟩ := Option.bind_eq_some_iff.1 h
      exact ⟨exists_change?_iff.1 ⟨next, hnext⟩, ih.1 ⟨s', hrest⟩⟩
    · rintro ⟨hchange, hchanges⟩
      obtain ⟨next, hnext⟩ := exists_change?_iff.2 hchange
      obtain ⟨s', hrest⟩ := (@ih next).2 hchanges
      exact ⟨s', Option.bind_eq_some_iff.2 ⟨next, hnext, hrest⟩⟩

end Settings

/-- The range of samples stays inside the kernel, after every sequence of changes of the settings.

* The changes can be made exactly if each of them fits: no range that is set ends, before its end is
  brought into the kernel, at a number that does not fit a signed word.
* Then the stored ends are in order and inside the kernel, and the number of samples is their distance.
* A range that is set next, from a start that is not negative, holds the samples that are asked for, as
  far as there are such samples; a number of samples that is set next gives the first ones.
* The block of the uniforms gets the stored ends as the bounds of the loop, and every position between
  them is one of the array of samples, at which the block gets a sample. -/
theorem kernel_range_in_kernel (changes : List Change) :
    ((∃ s, Settings.initial.changeAll? changes = some s) ↔ ∀ change ∈ changes, change.Fits) ∧
    ∀ s, Settings.initial.changeAll? changes = some s →
      (0 ≤ s.rangeFrom.toInt ∧ s.rangeFrom.toInt ≤ s.rangeTo.toInt ∧
        s.rangeTo.toInt ≤ kernelSize) ∧
      (s.kernelCount.toNat : Int) = s.rangeTo.toInt - s.rangeFrom.toInt ∧
      (∀ start count s', s.change? (.kernelRange start count) = some s' → 0 ≤ start.toInt →
        ∀ i, s'.Evaluates i ↔
          (start.toInt ≤ i ∧ i < start.toInt + count.toInt) ∧ 0 ≤ i ∧ i < kernelSize) ∧
      (∀ size s', s.change? (.kernelSize size) = some s' →
        ∀ i, s'.Evaluates i ↔ 0 ≤ i ∧ i < min size.toNat kernelSize) ∧
      ∀ inverse number draw parameters, parameters.settings number = s →
        ⟨OcclusionUniforms.kernelRangeVar, [.ivec2 s.rangeFrom s.rangeTo]⟩ ∈
            (DrawBlock.occlusion inverse number).contents draw parameters ∧
        ∃ samples : List Datum, ⟨OcclusionUniforms.kernelVar, samples⟩ ∈
            (DrawBlock.occlusion inverse number).contents draw parameters ∧
          ∀ i, s.Evaluates i → 0 ≤ i ∧ i.toNat < samples.length ∧
            ∃ length, OcclusionUniforms.kernelVar.arrayLen = some length ∧ i.toNat < length.toNat := by
  refine ⟨Settings.exists_changeAll?_iff, fun s hs => ?_⟩
  have hkernel : s.InKernel := Settings.inKernel_initial.changeAll? hs
  refine ⟨⟨hkernel.nonneg, hkernel.ordered, hkernel.bounded⟩, hkernel.kernelCount_eq, ?_, ?_, ?_⟩
  · intro start count s' h hstart
    exact Settings.evaluates_setKernelRange? h hstart
  · intro size s' h
    cases h
    exact Settings.evaluates_setKernelSize s size
  · rintro inverse number draw parameters rfl
    refine ⟨?_, OcclusionUniforms.samples.map .vec3, ?_, ?_⟩
    · simp [DrawBlock.contents]
    · simp [DrawBlock.contents]
    · intro i hi
      have hlower : 0 ≤ i := Int.le_trans hkernel.nonneg hi.1
      have hupper : i < kernelSize := Int.lt_of_lt_of_le hi.2 hkernel.bounded
      rw [List.length_map, OcclusionUniforms.samples, length_generateKernel]
      have hlast : i.toNat < 64 := by
        unfold kernelSize at hupper
        omega
      exact ⟨hlower, hlast, 64, rfl, hlast⟩

/-- The longest range from the last sample on, all samples, and a range that ends after the kernel. -/
theorem longRanges_in_kernel :
    ∃ s, Settings.initial.changeAll? [.kernelRange 64 2147483583, .kernelSize 4294967295,
        .kernelRange 60 10] = some s ∧
      s.rangeFrom.toInt = 60 ∧ s.rangeTo.toInt = 64 ∧ s.kernelCount.toNat = 4 := by
  obtain ⟨hfits, hrange⟩ := kernel_range_in_kernel [.kernelRange 64 2147483583,
    .kernelSize 4294967295, .kernelRange 60 10]
  obtain ⟨s, hs⟩ := hfits.2 (by decide)
  have hends : s.rangeFrom.toInt = 60 ∧ s.rangeTo.toInt = 64 := by
    cases hs
    decide
  obtain ⟨-, hcount, -⟩ := hrange s hs
  exact ⟨s, hs, hends.1, hends.2, by omega⟩

/-- All samples from the second one on cannot be asked for by the greatest number of samples. -/
theorem greatestCount_cannot_be_set :
    Settings.initial.changeAll? [.kernelRange 1 2147483647] = none := by
  decide

end AmbientOcclusion

end ShaderWeave
