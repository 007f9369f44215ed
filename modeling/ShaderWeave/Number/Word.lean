/-!
# Words

Arithmetic of 32-bit words that never wraps: a result that does not fit a word is no result. What is
laid out, numbered or counted in words thus has either its exact number or none.
-/

namespace ShaderWeave

namespace Word

/-- The first number that does not fit a word. -/
def limit : Nat := 0x100000000

/-- The word of a number, if it fits. -/
def ofNat? (n : Nat) : Option UInt32 :=
  if n < limit then some n.toUInt32 else none

/-- The sum of two words, if it fits. -/
def add? (a b : UInt32) : Option UInt32 :=
  ofNat? (a.toNat + b.toNat)

/-- The product of two words, if it fits. -/
def mul? (a b : UInt32) : Option UInt32 :=
  ofNat? (a.toNat * b.toNat)

/-- The least multiple of `align` that is not below `value`, if it fits; without an alignment,
`value`. -/
def roundUp? (value align : UInt32) : Option UInt32 :=
  if align = 0 then some value
  else ofNat? ((value.toNat + align.toNat - 1) / align.toNat * align.toNat)

theorem ofNat?_eq_some_iff {n : Nat} {word : UInt32} :
    ofNat? n = some word ↔ word.toNat = n := by
  have bound : word.toNat < 0x100000000 := word.toNat_lt
  unfold ofNat? limit
  split
  · rename_i fits
    rw [Option.some.injEq, ← UInt32.toNat_inj, Nat.toUInt32, UInt32.toNat_ofNat',
      Nat.mod_eq_of_lt fits]
    exact eq_comm
  · simp only [reduceCtorEq, false_iff]
    omega

theorem ofNat?_eq_none_iff {n : Nat} : ofNat? n = none ↔ limit ≤ n := by
  unfold ofNat?
  split <;> simp <;> omega

theorem add?_eq_some_iff {a b sum : UInt32} :
    add? a b = some sum ↔ sum.toNat = a.toNat + b.toNat :=
  ofNat?_eq_some_iff

theorem mul?_eq_some_iff {a b product : UInt32} :
    mul? a b = some product ↔ product.toNat = a.toNat * b.toNat :=
  ofNat?_eq_some_iff

/-- A word that is rounded up is the least multiple of the alignment that is not below it. -/
theorem roundUp?_least {value align offset : UInt32} (halign : align ≠ 0)
    (h : roundUp? value align = some offset) :
    align.toNat ∣ offset.toNat ∧ value.toNat ≤ offset.toNat ∧
      ∀ k, align.toNat ∣ k → value.toNat ≤ k → offset.toNat ≤ k := by
  rw [roundUp?, if_neg halign, ofNat?_eq_some_iff] at h
  have hpos : 0 < align.toNat := by
    refine Nat.pos_of_ne_zero fun hzero => halign ?_
    rw [← UInt32.toNat_inj, hzero]
    rfl
  have hdivision := Nat.div_add_mod (value.toNat + align.toNat - 1) align.toNat
  have hrest := Nat.mod_lt (value.toNat + align.toNat - 1) hpos
  rw [h]
  refine ⟨Nat.dvd_mul_left _ _, ?_, ?_⟩
  · rw [Nat.mul_comm]
    omega
  · rintro k ⟨count, rfl⟩ hk
    rw [Nat.mul_comm align.toNat count]
    refine Nat.mul_le_mul_right _ (Nat.le_of_lt_succ ?_)
    rw [Nat.div_lt_iff_lt_mul hpos, Nat.succ_mul, Nat.mul_comm]
    omega

end Word

namespace SignedWord

/-- The sum of two signed words, if it fits. -/
def add? (a b : Int32) : Option Int32 :=
  let sum := a.toInt + b.toInt
  if -0x80000000 ≤ sum ∧ sum < 0x80000000 then some (Int32.ofInt sum) else none

end SignedWord

end ShaderWeave
