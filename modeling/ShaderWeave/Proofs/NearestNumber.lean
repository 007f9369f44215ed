import Mathlib.Algebra.Order.Field.Power
import Mathlib.Data.Rat.Cast.Order
import Mathlib.Tactic.FieldSimp
import Mathlib.Tactic.Linarith
import Mathlib.Tactic.Positivity
import Mathlib.Tactic.Ring
import ShaderWeave.Number.Binary32

/-!
# The Nearest Number

The finite patterns of one sign are in the order of their magnitudes, so that the numbers next to a number
have the patterns before and after its own. A rational rounds to a number exactly if it lies between the
points half way to these two, where the points themselves belong to the number with the even significand.

## Main definitions

* `toRat`: the number that a finite pattern stands for.
* `RoundsTo`: rounding to the nearest number, ties to even.
* `rank`, `valueAt`: the place of a pattern in the order of magnitudes, and the magnitude at a place.
* `Covers`: the interval of the rationals that round to the number at a place.

## Main results

* `valueAt_succ`: the distance from one number to the next.
* `roundsTo_iff_covers`: the rationals that round to a number are those of its interval.
* `RoundsTo.eq_or_zero`: a rational rounds to one number only, up to the sign of zero.
-/

namespace ShaderWeave.Binary32

/-! ## Numbers and Rounding -/

/-- A magnitude with a sign. -/
def signed (negative : Bool) (r : ℚ) : ℚ :=
  if negative then -r else r

/-- The number that a finite pattern stands for. -/
def toRat (x : Binary32) : ℚ :=
  signed x.isNegative (x.significand * 2 ^ x.scale)

/-- A rational rounds to a finite number: to the nearest one, and of two equally near ones to the one with
the even significand. From half a unit above the largest number on, rationals round to no finite number. -/
structure RoundsTo (q : ℚ) (x : Binary32) : Prop where
  /-- The number is finite. -/
  isFinite : x.isFinite = true
  /-- The rational is not too large. -/
  inRange : |q| < 2 ^ 128 - 2 ^ 103
  /-- No number is nearer. -/
  nearest : ∀ y : Binary32, y.isFinite = true → |q - x.toRat| ≤ |q - y.toRat|
  /-- If another number is as near, the significand is even. -/
  even_of_tie : ∀ y : Binary32, y.isFinite = true → y.toRat ≠ x.toRat →
    |q - x.toRat| = |q - y.toRat| → x.significand % 2 = 0

/-! ## The Order of Patterns -/

/-- Place of a pattern among those of its sign, in the order of magnitudes. -/
def rank (x : Binary32) : Nat :=
  x.bits.toNat % 0x80000000

/-- The first place that is not finite. -/
def rankLimit : Nat := 0x7f800000

/-- Distance from the magnitude at a place to the next one. -/
def gapAt (n : Nat) : ℚ :=
  2 ^ ((max (n / 0x800000) 1 : Nat) - 150 : Int)

/-- The magnitude at a place. -/
def valueAt (n : Nat) : ℚ :=
  (if n / 0x800000 = 0 then n % 0x800000 else 0x800000 + n % 0x800000 : Nat) * gapAt n

/-- The pattern with a sign and a place. -/
def ofRank (negative : Bool) (n : Nat) : Binary32 :=
  ⟨UInt32.ofNat ((if negative then 0x80000000 else 0) + n)⟩

section Patterns

variable (x : Binary32)

theorem exponentField_eq : x.exponentField = x.rank / 0x800000 := by
  unfold exponentField rank
  omega

theorem fractionField_eq : x.fractionField = x.rank % 0x800000 := by
  unfold fractionField rank
  omega

theorem significand_eq : x.significand =
    if x.rank / 0x800000 = 0 then x.rank % 0x800000 else 0x800000 + x.rank % 0x800000 := by
  rw [significand, exponentField_eq, fractionField_eq]

theorem significand_mod_two : x.significand % 2 = x.rank % 2 := by
  rw [significand_eq]
  split <;> omega

theorem zpow_scale : (2 : ℚ) ^ x.scale = gapAt x.rank := by
  rw [scale, exponentField_eq, gapAt]

theorem toRat_eq : x.toRat = signed x.isNegative (valueAt x.rank) := by
  rw [toRat, significand_eq, zpow_scale, valueAt]

theorem isFinite_iff : x.isFinite = true ↔ x.rank < rankLimit := by
  have hbits : x.rank < 0x80000000 := Nat.mod_lt _ (by decide)
  rw [isFinite, bne_iff_ne, exponentField_eq, rankLimit]
  omega

/-- A pattern is known by its sign and its place. -/
theorem eq_of_rank {y : Binary32} (hsign : x.isNegative = y.isNegative) (hrank : x.rank = y.rank) :
    x = y := by
  have hx := x.bits.toNat_lt
  have hy := y.bits.toNat_lt
  unfold isNegative at hsign
  rw [decide_eq_decide] at hsign
  unfold rank at hrank
  have hbits : x.bits.toNat = y.bits.toNat := by omega
  cases x
  cases y
  rw [Binary32.mk.injEq]
  exact UInt32.toNat_inj.1 hbits

end Patterns

section OfRank

variable {n : Nat} (negative : Bool) (hn : n < rankLimit)
include hn

theorem toNat_ofRank :
    (ofRank negative n).bits.toNat = (if negative then 0x80000000 else 0) + n := by
  rw [rankLimit] at hn
  rw [ofRank, UInt32.toNat_ofNat', Nat.mod_eq_of_lt]
  split <;> omega

theorem rank_ofRank : (ofRank negative n).rank = n := by
  rw [rank, toNat_ofRank negative hn]
  rw [rankLimit] at hn
  split <;> omega

theorem isNegative_ofRank : (ofRank negative n).isNegative = negative := by
  rw [isNegative, toNat_ofRank negative hn]
  rw [rankLimit] at hn
  cases negative
  · simp
    omega
  · simp

theorem isFinite_ofRank : (ofRank negative n).isFinite = true := by
  rw [isFinite_iff, rank_ofRank negative hn]
  exact hn

theorem toRat_ofRank : (ofRank negative n).toRat = signed negative (valueAt n) := by
  rw [toRat_eq, rank_ofRank negative hn, isNegative_ofRank negative hn]

end OfRank

/-! ## The Order of Magnitudes -/

theorem gapAt_pos (n : Nat) : 0 < gapAt n := by
  unfold gapAt
  positivity

theorem valueAt_zero : valueAt 0 = 0 := by
  simp [valueAt]

/-- The distance doubles where the fraction wraps around, except at the end of the subnormal numbers. -/
theorem gapAt_succ {n : Nat} (hwrap : n % 0x800000 = 0x7fffff) :
    gapAt (n + 1) = if n / 0x800000 = 0 then gapAt n else 2 * gapAt n := by
  have hexponent : (n + 1) / 0x800000 = n / 0x800000 + 1 := by omega
  unfold gapAt
  rw [hexponent]
  split
  · rename_i hsubnormal
    rw [hsubnormal]
    rfl
  · rw [← zpow_one_add₀ two_ne_zero]
    congr 1
    omega

theorem gapAt_succ_of_ne {n : Nat} (hwrap : n % 0x800000 ≠ 0x7fffff) : gapAt (n + 1) = gapAt n := by
  have hexponent : (n + 1) / 0x800000 = n / 0x800000 := by omega
  rw [gapAt, hexponent, gapAt]

/-- One place on, the magnitude is greater by the distance at the place. -/
theorem valueAt_succ (n : Nat) : valueAt (n + 1) = valueAt n + gapAt n := by
  by_cases hwrap : n % 0x800000 = 0x7fffff
  · -- The fraction wraps around, and the leading bit of the next number takes the carry.
    have hnext : (n + 1) % 0x800000 = 0 := by omega
    have hexponent : (n + 1) / 0x800000 ≠ 0 := by omega
    rw [valueAt, gapAt_succ hwrap, if_neg hexponent, hnext, valueAt, hwrap]
    split <;> push_cast <;> ring
  · have hnext : (n + 1) % 0x800000 = n % 0x800000 + 1 := by omega
    have hexponent : (n + 1) / 0x800000 = n / 0x800000 := by omega
    rw [valueAt, gapAt_succ_of_ne hwrap, hexponent, hnext, valueAt]
    split <;> push_cast <;> ring

theorem valueAt_strictMono : StrictMono valueAt :=
  strictMono_nat_of_lt_succ fun n => by
    rw [valueAt_succ]
    exact lt_add_of_pos_right _ (gapAt_pos n)

theorem valueAt_nonneg (n : Nat) : 0 ≤ valueAt n := by
  rw [← valueAt_zero]
  exact valueAt_strictMono.monotone (Nat.zero_le n)

/-! ## The Interval of a Number -/

/-- The point half way from the magnitude at a place to the next one. -/
def midpoint (n : Nat) : ℚ :=
  valueAt n + gapAt n / 2

theorem midpoint_eq (n : Nat) : midpoint n = (valueAt n + valueAt (n + 1)) / 2 := by
  rw [midpoint, valueAt_succ]
  ring

/-- The lower end of an interval, from the numbers on both sides of it. -/
theorem midpoint_pred {n : Nat} (hpos : 0 < n) : midpoint (n - 1) = (valueAt (n - 1) + valueAt n) / 2 := by
  rw [midpoint_eq, Nat.sub_add_cancel hpos]

/-- The lower end of an interval, from the number itself. -/
theorem midpoint_pred_eq_sub {n : Nat} (hpos : 0 < n) :
    midpoint (n - 1) = valueAt n - gapAt (n - 1) / 2 := by
  have hsucc := valueAt_succ (n - 1)
  rw [Nat.sub_add_cancel hpos] at hsucc
  rw [midpoint, hsucc]
  ring

theorem midpoint_lt_valueAt {n : Nat} (hpos : 0 < n) : midpoint (n - 1) < valueAt n := by
  rw [midpoint_pred_eq_sub hpos]
  exact sub_lt_self _ (half_pos (gapAt_pos _))

theorem valueAt_lt_midpoint (n : Nat) : valueAt n < midpoint n :=
  lt_add_of_pos_right _ (half_pos (gapAt_pos n))

theorem midpoint_strictMono : StrictMono midpoint :=
  strictMono_nat_of_lt_succ fun n =>
    (midpoint_lt_valueAt (Nat.succ_pos n)).trans (valueAt_lt_midpoint (n + 1))

theorem midpoint_pos (n : Nat) : 0 < midpoint n :=
  add_pos_of_nonneg_of_pos (valueAt_nonneg n) (half_pos (gapAt_pos n))

/-- Half a unit above the largest number. -/
theorem midpoint_last : midpoint (rankLimit - 1) = 2 ^ 128 - 2 ^ 103 := by
  norm_num [midpoint, valueAt, gapAt, rankLimit]

/-- A rational lies in the interval of the magnitude at a place other than the first: between the points
half way to the places before and after, which belong to the interval of an even place. -/
def Covers (n : Nat) (r : ℚ) : Prop :=
  if n % 2 = 0 then midpoint (n - 1) ≤ r ∧ r ≤ midpoint n else midpoint (n - 1) < r ∧ r < midpoint n

section Covers

variable {n k : Nat} {r : ℚ}

theorem Covers.le (h : Covers n r) : midpoint (n - 1) ≤ r ∧ r ≤ midpoint n := by
  unfold Covers at h
  split at h
  · exact h
  · exact ⟨h.1.le, h.2.le⟩

theorem Covers.lt (h : Covers n r) (hodd : n % 2 ≠ 0) : midpoint (n - 1) < r ∧ r < midpoint n := by
  rwa [Covers, if_neg hodd] at h

theorem covers_of_le (hle : midpoint (n - 1) ≤ r ∧ r ≤ midpoint n)
    (heven : r = midpoint (n - 1) ∨ r = midpoint n → n % 2 = 0) : Covers n r := by
  unfold Covers
  split
  · exact hle
  · rename_i hodd
    refine ⟨lt_of_le_of_ne hle.1 fun heq => hodd (heven (.inl heq.symm)), ?_⟩
    exact lt_of_le_of_ne hle.2 fun heq => hodd (heven (.inr heq))

/-- What lies strictly between the ends belongs to the interval. -/
theorem covers_of_lt (hlow : midpoint (n - 1) < r) (hhigh : r < midpoint n) : Covers n r :=
  covers_of_le ⟨hlow.le, hhigh.le⟩ fun hends =>
    hends.elim (fun heq => absurd heq hlow.ne') fun heq => absurd heq hhigh.ne

theorem Covers.pos (h : Covers n r) : 0 < r :=
  (midpoint_pos (n - 1)).trans_le h.le.1

/-- Whatever lies between two rationals of an interval belongs to it. -/
theorem Covers.between {low high : ℚ} (hlow : Covers n low) (hhigh : Covers n high) (hle : low ≤ r)
    (hge : r ≤ high) : Covers n r := by
  refine covers_of_le ⟨hlow.le.1.trans hle, hge.trans hhigh.le.2⟩ fun heq => ?_
  by_contra hodd
  have hlower := (hlow.lt hodd).1
  have hupper := (hhigh.lt hodd).2
  rcases heq with rfl | rfl <;> linarith

/-- The intervals of different places have no rational in common. -/
theorem Covers.eq (hn : Covers n r) (hk : Covers k r) : n = k := by
  -- A common rational would be the point between two neighbors, of which only one is even.
  have hlt {a b : Nat} (ha : Covers a r) (hb : Covers b r) : ¬ a < b := by
    intro hab
    have hends : midpoint (b - 1) ≤ midpoint a := hb.le.1.trans ha.le.2
    have hnext : b = a + 1 := by
      have := midpoint_strictMono.le_iff_le.1 hends
      omega
    subst hnext
    rw [Nat.add_sub_cancel] at hends
    by_cases heven : a % 2 = 0
    · have hodd := (hb.lt (by omega)).1
      rw [Nat.add_sub_cancel] at hodd
      exact absurd ha.le.2 (not_le.2 hodd)
    · have hb' := hb.le.1
      rw [Nat.add_sub_cancel] at hb'
      exact absurd hb' (not_le.2 (ha.lt heven).2)
  have := hlt hn hk
  have := hlt hk hn
  omega

/-- Within its interval a magnitude is nearer than all others, or as near at the ends. -/
theorem Covers.abs_sub_le (h : Covers n r) (hpos : 0 < n) (hne : k ≠ n) :
    |r - valueAt n| ≤ |r - valueAt k| ∧ (|r - valueAt n| = |r - valueAt k| → n % 2 = 0) := by
  obtain ⟨hlow, hhigh⟩ := h.le
  have hbefore := midpoint_pred hpos
  have hafter := midpoint_eq n
  have hprevious : valueAt (n - 1) < valueAt n := valueAt_strictMono (by omega)
  have hnext : valueAt n < valueAt (n + 1) := valueAt_strictMono (by omega)
  rcases lt_or_gt_of_ne hne with hk | hk
  · have hfar : valueAt k ≤ valueAt (n - 1) := valueAt_strictMono.monotone (by omega)
    rw [abs_of_nonneg (a := r - valueAt k) (by linarith)]
    refine ⟨abs_le.2 ⟨by linarith, by linarith⟩, fun htie => ?_⟩
    by_contra hodd
    have hstrict := (h.lt hodd).1
    exact absurd htie (ne_of_lt (abs_lt.2 ⟨by linarith, by linarith⟩))
  · have hfar : valueAt (n + 1) ≤ valueAt k := valueAt_strictMono.monotone (by omega)
    rw [abs_of_nonpos (a := r - valueAt k) (by linarith)]
    refine ⟨abs_le.2 ⟨by linarith, by linarith⟩, fun htie => ?_⟩
    by_contra hodd
    have hstrict := (h.lt hodd).2
    exact absurd htie (ne_of_lt (abs_lt.2 ⟨by linarith, by linarith⟩))

/-- A number of the other sign is farther away than the one of the same sign. -/
theorem abs_sub_lt_abs_add (hr : 0 < r) (hk : 0 < k) : |r - valueAt k| < |r - -valueAt k| := by
  have hvalue : 0 < valueAt k := valueAt_zero ▸ valueAt_strictMono hk
  rw [sub_neg_eq_add, abs_of_pos (add_pos hr hvalue)]
  exact abs_lt.2 ⟨by linarith, by linarith⟩

/-- `Covers.abs_sub_le` for numbers of both signs. -/
theorem Covers.abs_sub_signed_le (h : Covers n r) (hpos : 0 < n) {negative : Bool}
    (hne : signed negative (valueAt k) ≠ valueAt n) :
    |r - valueAt n| ≤ |r - signed negative (valueAt k)| ∧
      (|r - valueAt n| = |r - signed negative (valueAt k)| → n % 2 = 0) := by
  cases negative with
  | false => exact h.abs_sub_le hpos fun heq => hne (by rw [heq]; rfl)
  | true =>
    by_cases hzero : k = 0
    · have hsame : signed true (valueAt k) = valueAt 0 := by
        rw [hzero, valueAt_zero]
        exact neg_zero
      rw [hsame]
      exact h.abs_sub_le hpos hpos.ne
    · -- Whether the place is the same or not, the number of the other sign is farther away.
      have hfar := abs_sub_lt_abs_add h.pos (Nat.pos_of_ne_zero hzero)
      have hle : |r - valueAt n| ≤ |r - valueAt k| := by
        by_cases heq : k = n
        · rw [heq]
        · exact (h.abs_sub_le hpos heq).1
      exact ⟨(hle.trans_lt hfar).le, fun htie => absurd htie (hle.trans_lt hfar).ne⟩

end Covers

/-! ## Rounding -/

section Rounding

variable {q : ℚ} {x y : Binary32}

@[simp]
theorem abs_signed (negative : Bool) (r : ℚ) : |signed negative r| = |r| := by
  cases negative
  · rfl
  · exact abs_neg r

theorem signed_sub (negative : Bool) (q r : ℚ) :
    signed negative (q - r) = signed negative q - signed negative r := by
  cases negative
  · rfl
  · exact neg_sub' q r

@[simp]
theorem signed_signed (negative other : Bool) (r : ℚ) :
    signed negative (signed other r) = signed (negative ^^ other) r := by
  cases negative
  · cases other <;> rfl
  · cases other
    · rfl
    · exact neg_neg r

/-- Only one sign makes a rational positive. -/
theorem eq_of_signed_pos {negative other : Bool} (h : 0 < signed negative q) (h' : 0 < signed other q) :
    negative = other := by
  have hopposite : ¬ (0 < q ∧ 0 < -q) := fun hboth => by linarith [hboth.1, hboth.2]
  cases negative <;> cases other
  · rfl
  · exact absurd ⟨h, h'⟩ hopposite
  · exact absurd ⟨h', h⟩ hopposite
  · rfl

/-- The distance to a number is that of the magnitudes if the signs are the same. -/
theorem abs_sub_toRat (negative : Bool) (q : ℚ) (y : Binary32) :
    |q - y.toRat| = |signed negative q - signed (negative ^^ y.isNegative) (valueAt y.rank)| := by
  rw [← signed_signed, ← signed_sub, abs_signed, toRat_eq]

theorem abs_sub_toRat_self (q : ℚ) (x : Binary32) :
    |q - x.toRat| = |signed x.isNegative q - valueAt x.rank| := by
  rw [abs_sub_toRat x.isNegative, Bool.xor_self]
  rfl

/-- A rational that rounds to a number is no nearer to the numbers of the same sign. -/
theorem RoundsTo.abs_sub_le (h : RoundsTo q x) {k : Nat} (hk : k < rankLimit) :
    |signed x.isNegative q - valueAt x.rank| ≤ |signed x.isNegative q - valueAt k| ∧
      (k ≠ x.rank → |signed x.isNegative q - valueAt x.rank| = |signed x.isNegative q - valueAt k| →
        x.rank % 2 = 0) := by
  have hother : |q - (ofRank x.isNegative k).toRat| = |signed x.isNegative q - valueAt k| := by
    rw [abs_sub_toRat_self, isNegative_ofRank _ hk, rank_ofRank _ hk]
  rw [← abs_sub_toRat_self, ← hother]
  refine ⟨h.nearest _ (isFinite_ofRank _ hk), fun hne htie => ?_⟩
  rw [← significand_mod_two]
  refine h.even_of_tie _ (isFinite_ofRank _ hk) (fun heq => ?_) htie
  rw [toRat_ofRank _ hk, toRat_eq] at heq
  apply hne
  apply valueAt_strictMono.injective
  have hsame := congrArg (signed x.isNegative) heq
  rwa [signed_signed, signed_signed, Bool.xor_self] at hsame

/-- Which of two numbers is nearer depends on the point half way between them. -/
theorem nearer_iff {a b r : ℚ} (hab : a < b) :
    (|r - b| ≤ |r - a| ↔ (a + b) / 2 ≤ r) ∧ (|r - a| ≤ |r - b| ↔ r ≤ (a + b) / 2) := by
  rw [← sq_le_sq, ← sq_le_sq]
  constructor
  · constructor <;> intro h <;> nlinarith
  · constructor <;> intro h <;> nlinarith

theorem abs_sub_eq_of_midpoint {a b r : ℚ} (h : r = (a + b) / 2) : |r - a| = |r - b| := by
  rw [h, abs_sub_comm _ b]
  congr 1
  ring

/-- A rational that rounds to a number lies in its interval. -/
theorem RoundsTo.covers (h : RoundsTo q x) (hpos : 0 < x.rank) :
    Covers x.rank (signed x.isNegative q) := by
  have hlimit : x.rank < rankLimit := (isFinite_iff x).1 h.isFinite
  have hrange := h.inRange
  rw [← abs_signed x.isNegative, ← midpoint_last] at hrange
  have hmidpoint := midpoint_pred hpos
  obtain ⟨hbefore, htieBefore⟩ := h.abs_sub_le (k := x.rank - 1) (by omega)
  have hlow : midpoint (x.rank - 1) ≤ signed x.isNegative q := by
    rw [hmidpoint]
    exact (nearer_iff (valueAt_strictMono (by omega))).1.1 hbefore
  have hevenLow : signed x.isNegative q = midpoint (x.rank - 1) → x.rank % 2 = 0 := fun heq =>
    htieBefore (by omega) (abs_sub_eq_of_midpoint (heq.trans hmidpoint)).symm
  rcases (Nat.le_sub_one_of_lt hlimit).lt_or_eq with hlt | heq
  · obtain ⟨hafter, htieAfter⟩ := h.abs_sub_le (k := x.rank + 1) (by omega)
    refine covers_of_le ⟨hlow, ?_⟩ fun hends => hends.elim hevenLow fun heq => ?_
    · rw [midpoint_eq]
      exact (nearer_iff (valueAt_strictMono (Nat.lt_add_one _))).2.1 hafter
    · exact htieAfter (by omega) (abs_sub_eq_of_midpoint (heq.trans (midpoint_eq _)))
  · -- Above the largest number there is no other one, but a bound on what is rounded.
    rw [← heq] at hrange
    have hhigh := (abs_lt.1 hrange).2
    exact covers_of_le ⟨hlow, hhigh.le⟩ fun hends => hends.elim hevenLow fun heq =>
      absurd heq hhigh.ne

/-- The rationals that round to a number are those of its interval. -/
theorem roundsTo_iff_covers (hfinite : x.isFinite = true) (hpos : 0 < x.rank) :
    RoundsTo q x ↔ Covers x.rank (signed x.isNegative q) := by
  have hlimit : x.rank < rankLimit := (isFinite_iff x).1 hfinite
  constructor
  · exact fun h => h.covers hpos
  · intro h
    refine ⟨hfinite, ?_, fun y hy => ?_, fun y hy hne htie => ?_⟩
    · rw [← abs_signed x.isNegative, abs_of_pos h.pos, ← midpoint_last]
      rcases (Nat.le_sub_one_of_lt hlimit).lt_or_eq with hlt | heq
      · exact h.le.2.trans_lt (midpoint_strictMono hlt)
      · rw [← heq]
        exact (h.lt (by rw [heq]; decide)).2
    · rw [abs_sub_toRat_self, abs_sub_toRat x.isNegative]
      by_cases hsame : signed (x.isNegative ^^ y.isNegative) (valueAt y.rank) = valueAt x.rank
      · rw [hsame]
      · exact (h.abs_sub_signed_le hpos hsame).1
    · rw [significand_mod_two]
      rw [abs_sub_toRat_self, abs_sub_toRat x.isNegative] at htie
      refine (h.abs_sub_signed_le hpos fun hsame => hne ?_).2 htie
      rw [toRat_eq, toRat_eq, ← hsame, signed_signed, ← Bool.xor_assoc, Bool.xor_self, Bool.false_xor]

theorem toRat_eq_zero_iff : x.toRat = 0 ↔ x.rank = 0 := by
  rw [toRat_eq, ← abs_eq_zero, abs_signed, abs_eq_zero]
  constructor
  · intro hzero
    exact valueAt_strictMono.injective (hzero.trans valueAt_zero.symm)
  · intro hrank
    rw [hrank, valueAt_zero]

/-- What rounds to zero is at most half the smallest number. -/
theorem RoundsTo.abs_le_of_zero (h : RoundsTo q x) (hzero : x.rank = 0) : |q| ≤ midpoint 0 := by
  have hvalue : 0 < valueAt 1 := valueAt_zero ▸ valueAt_strictMono Nat.one_pos
  have hother (negative : Bool) : |q - 0| ≤ |q - signed negative (valueAt 1)| := by
    have hnearest := h.nearest (ofRank negative 1) (isFinite_ofRank negative (by decide))
    rwa [toRat_eq_zero_iff.2 hzero, toRat_ofRank negative (by decide)] at hnearest
  have hhigh := (nearer_iff hvalue).2.1 (hother false)
  have hlow := (nearer_iff (neg_neg_of_pos hvalue)).1.1 (hother true)
  rw [midpoint_eq, valueAt_zero]
  exact abs_le.2 ⟨by linarith, hhigh⟩

/-- Nothing rounds to zero and to another number. -/
theorem RoundsTo.rank_eq_zero (hx : RoundsTo q x) (hy : RoundsTo q y) (hzero : x.rank = 0) :
    y.rank = 0 := by
  by_contra hne
  have hcovers := hy.covers (Nat.pos_of_ne_zero hne)
  have hle : signed y.isNegative q ≤ midpoint 0 := by
    rw [← abs_of_pos hcovers.pos, abs_signed]
    exact hx.abs_le_of_zero hzero
  -- Only the smallest number reaches down to that point, and it is odd.
  have hrank : y.rank = 1 := by
    have := midpoint_strictMono.le_iff_le.1 (hcovers.le.1.trans hle)
    omega
  have hodd := (hcovers.lt (by rw [hrank]; decide)).1
  rw [hrank] at hodd
  exact absurd hle (not_le.2 hodd)

/-- A rational rounds to one number only, up to the sign of zero. -/
theorem RoundsTo.eq_or_zero (hx : RoundsTo q x) (hy : RoundsTo q y) :
    x = y ∨ (x.toRat = 0 ∧ y.toRat = 0) := by
  rw [toRat_eq_zero_iff, toRat_eq_zero_iff]
  by_cases hzero : x.rank = 0
  · exact .inr ⟨hzero, hx.rank_eq_zero hy hzero⟩
  · have hne : y.rank ≠ 0 := fun hrank => hzero (hy.rank_eq_zero hx hrank)
    have hcoversX := hx.covers (Nat.pos_of_ne_zero hzero)
    have hcoversY := hy.covers (Nat.pos_of_ne_zero hne)
    have hsign : x.isNegative = y.isNegative := eq_of_signed_pos hcoversX.pos hcoversY.pos
    rw [hsign] at hcoversX
    exact .inl (eq_of_rank x hsign (hcoversX.eq hcoversY))

/-- Zero rounds to zero. -/
theorem roundsTo_zero (hzero : x.rank = 0) : RoundsTo 0 x := by
  have hvalue : x.toRat = 0 := toRat_eq_zero_iff.2 hzero
  refine ⟨(isFinite_iff x).2 (by rw [hzero]; decide), by norm_num, fun y _ => ?_, fun y _ hne htie => ?_⟩
  · rw [hvalue, sub_zero, abs_zero]
    exact abs_nonneg _
  · rw [hvalue, sub_zero, abs_zero, zero_sub, abs_neg, eq_comm, abs_eq_zero] at htie
    exact absurd (htie.trans hvalue.symm) hne

end Rounding

end ShaderWeave.Binary32
