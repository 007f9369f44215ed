import ShaderWeave.Number.Literal
import ShaderWeave.Proofs.NearestNumber

/-!
# The Shortest Decimal of a Number

The search for a shortest decimal compares integers: both ends of a number's interval and the multiples of
a power of ten are counted in a step that divides all of them. Here the integers are turned back into the
rationals they stand for. The search then finds a decimal of the interval on the coarsest grid that has
one, and no decimal of the interval has fewer digits.

## Main definitions

* `Decimal.value`: the rational that a decimal stands for.
* `Binary32.IsCoarsest`: a decimal of an interval on the coarsest grid.

## Main results

* `Binary32.admits_magnitude_iff`: the decimals that the search admits are those of the interval.
* `Binary32.shortestDecimal_isCoarsest`: the search finds a decimal on the coarsest grid.
* `Binary32.IsCoarsest.length_toDigits_le`: such a decimal has the fewest digits.
-/

namespace ShaderWeave

/-- The rational that a decimal stands for. -/
def Decimal.value (d : Decimal) : ℚ :=
  d.digits * 10 ^ d.exponent

/-! ## The Common Step -/

/-- A power with an integer exponent is the quotient of two powers with natural exponents. -/
theorem zpow_mul_pow_toNat {b : ℚ} (hb : b ≠ 0) (a : Int) : b ^ a * b ^ (-a).toNat = b ^ a.toNat := by
  rw [← zpow_natCast, ← zpow_natCast, ← zpow_add₀ hb]
  congr 1
  omega

namespace Dyadic

variable (x : Dyadic) (e : Int)

theorem gridUnit_pos : 0 < x.gridUnit e :=
  Nat.mul_pos (Nat.pow_pos (by decide)) (Nat.pow_pos (by decide))

/-- A quarter of the unit and the power of ten, as multiples of each other. -/
theorem quarter_mul_zpow :
    (x.quarter e : ℚ) * 10 ^ e = 2 ^ (x.exponent - 2) * x.gridUnit e := by
  have hten := zpow_mul_pow_toNat (b := 10) (by norm_num) e
  have htwo := zpow_mul_pow_toNat (b := 2) (by norm_num) (x.exponent - 2)
  rw [neg_sub] at htwo
  simp only [quarter, gridUnit, Nat.pow_eq, Nat.cast_mul, Nat.cast_pow, Nat.cast_ofNat]
  rw [← hten, ← htwo]
  ring

/-- Multiples of the power of ten and of a quarter of the unit are counted in the same step. -/
theorem exists_step : ∃ step : ℚ, 0 < step ∧
    (∀ c : Nat, ((c * x.gridUnit e : Nat) : ℚ) = c * 10 ^ e * step) ∧
      ∀ a : Nat, ((a * x.quarter e : Nat) : ℚ) = a * 2 ^ (x.exponent - 2) * step := by
  have hunit : (0 : ℚ) < x.gridUnit e := Nat.cast_pos.2 (x.gridUnit_pos e)
  have hten : (0 : ℚ) < 10 ^ e := by positivity
  refine ⟨x.gridUnit e / 10 ^ e, div_pos hunit hten, fun c => ?_, fun a => ?_⟩
  · rw [Nat.cast_mul, mul_assoc, mul_div_cancel₀ _ hten.ne']
  · rw [Nat.cast_mul, mul_assoc, ← mul_div_assoc, ← quarter_mul_zpow, mul_div_cancel_right₀ _ hten.ne']

/-- Counting in the common step keeps the order. -/
theorem mul_gridUnit_le_iff (c a : Nat) :
    (c * x.gridUnit e ≤ a * x.quarter e ↔ (c : ℚ) * 10 ^ e ≤ a * 2 ^ (x.exponent - 2)) ∧
      (a * x.quarter e ≤ c * x.gridUnit e ↔ (a : ℚ) * 2 ^ (x.exponent - 2) ≤ c * 10 ^ e) := by
  obtain ⟨step, hstep, hgrid, hquarter⟩ := x.exists_step e
  constructor
  · rw [← Nat.cast_le (α := ℚ), hgrid, hquarter, mul_le_mul_iff_of_pos_right hstep]
  · rw [← Nat.cast_le (α := ℚ), hgrid, hquarter, mul_le_mul_iff_of_pos_right hstep]

theorem mul_gridUnit_lt_iff (c a : Nat) :
    (c * x.gridUnit e < a * x.quarter e ↔ (c : ℚ) * 10 ^ e < a * 2 ^ (x.exponent - 2)) ∧
      (a * x.quarter e < c * x.gridUnit e ↔ (a : ℚ) * 2 ^ (x.exponent - 2) < c * 10 ^ e) := by
  obtain ⟨hle, hge⟩ := x.mul_gridUnit_le_iff e c a
  rw [← not_le, ← not_le, ← not_le, ← not_le]
  exact ⟨not_congr hge, not_congr hle⟩

/-- The admitted multiples of a power of ten, as rationals. -/
theorem admits_iff (c : Nat) : x.admits e c = true ↔
    if x.significand % 2 = 0 then
      x.lower * 2 ^ (x.exponent - 2) ≤ (c : ℚ) * 10 ^ e ∧ (c : ℚ) * 10 ^ e ≤ x.upper * 2 ^ (x.exponent - 2)
    else
      x.lower * 2 ^ (x.exponent - 2) < (c : ℚ) * 10 ^ e ∧
        (c : ℚ) * 10 ^ e < x.upper * 2 ^ (x.exponent - 2) := by
  unfold admits
  split
  · rw [Bool.and_eq_true, decide_eq_true_iff, decide_eq_true_iff, (x.mul_gridUnit_le_iff e c _).2,
      (x.mul_gridUnit_le_iff e c _).1]
  · rw [Bool.and_eq_true, decide_eq_true_iff, decide_eq_true_iff, (x.mul_gridUnit_lt_iff e c _).2,
      (x.mul_gridUnit_lt_iff e c _).1]

/-- The multiple of a power of ten just below the number. -/
def below : Nat :=
  4 * x.significand * x.quarter e / x.gridUnit e

theorem below_le : (x.below e : ℚ) * 10 ^ e ≤ x.significand * 2 ^ x.exponent ∧
    x.significand * 2 ^ x.exponent < ((x.below e + 1 : Nat) : ℚ) * 10 ^ e := by
  have hvalue : ((4 * x.significand : Nat) : ℚ) * 2 ^ (x.exponent - 2) =
      x.significand * 2 ^ x.exponent := by
    rw [zpow_sub₀ two_ne_zero]
    push_cast
    ring
  rw [← hvalue, ← (x.mul_gridUnit_le_iff e _ _).1, ← (x.mul_gridUnit_lt_iff e _ _).2]
  exact ⟨Nat.div_mul_le_self _ _, Nat.lt_mul_of_div_lt (Nat.lt_add_one _) (x.gridUnit_pos e)⟩

/-- The search on one grid finds an admitted multiple, and nothing only if neither neighbor of the number
is admitted. -/
theorem nearest?_cases :
    (∃ c, x.nearest? e = some c ∧ x.admits e c = true) ∨
      (x.nearest? e = none ∧ x.admits e (x.below e) = false ∧ x.admits e (x.below e + 1) = false) := by
  unfold nearest? below
  dsimp only
  split
  · rename_i hbelow habove
    refine .inl ⟨_, rfl, ?_⟩
    split <;> assumption
  · exact .inl ⟨_, rfl, by assumption⟩
  · exact .inl ⟨_, rfl, by assumption⟩
  · exact .inr ⟨rfl, by assumption, by assumption⟩

/-- The search goes from coarse grids to fine ones and stops at the first that has an admitted multiple. -/
theorem shortest_eq_some {top : Int} {count : Nat} {d : Decimal} (h : x.shortest top count = some d) :
    x.nearest? d.exponent = some d.digits ∧
      ∀ e, d.exponent < e → e ≤ top → x.nearest? e = none := by
  obtain ⟨front, step, rest, hrange, hfound, hfront⟩ := List.findSome?_eq_some_iff.1 h
  obtain ⟨c, hnearest, rfl⟩ := Option.map_eq_some_iff.1 hfound
  refine ⟨hnearest, fun e hlt hle => ?_⟩
  -- The steps before the one that found something are all smaller ones, so each coarser grid was tried.
  have hfrontRange : front = List.range (min front.length (count + 1)) := by
    rw [← List.take_range, hrange, List.take_left]
  have hlength : front.length < count + 1 := by
    rw [← List.length_range (n := count + 1), hrange, List.length_append, List.length_cons]
    omega
  rw [min_eq_left hlength.le] at hfrontRange
  have hstep : step = front.length := by
    have hget : (List.range (count + 1))[front.length]? = some step := by
      rw [hrange, List.getElem?_append_right le_rfl, Nat.sub_self, List.getElem?_cons_zero]
    rw [List.getElem?_range hlength, Option.some.injEq] at hget
    exact hget.symm
  dsimp only at hlt
  have hmem : (top - e).toNat ∈ front := by
    rw [hfrontRange, List.mem_range]
    omega
  have hnone := hfront _ hmem
  rw [Option.map_eq_none_iff] at hnone
  rwa [Int.toNat_of_nonneg (by omega), sub_sub_cancel] at hnone

theorem isSome_shortest {top : Int} {count step : Nat} {c : Nat} (hstep : step ≤ count)
    (h : x.nearest? (top - step) = some c) : (x.shortest top count).isSome = true := by
  unfold shortest
  rw [List.findSome?_isSome_iff]
  refine ⟨step, List.mem_range.2 (Nat.lt_succ_of_le hstep), ?_⟩
  dsimp only
  rw [h, Option.map_some, Option.isSome_some]

end Dyadic

namespace Binary32

/-! ## The Interval of a Number -/

section Interval

variable (x : Binary32)

/-- The distance to the place before is half as great where the gap narrows. -/
theorem gapAt_rank (hpos : 0 < x.rank) :
    gapAt x.rank = if x.gapNarrowsBelow then 2 * gapAt (x.rank - 1) else gapAt (x.rank - 1) := by
  have hnarrows : x.gapNarrowsBelow = true ↔ x.rank % 0x800000 = 0 ∧ 1 < x.rank / 0x800000 := by
    rw [gapNarrowsBelow, Bool.and_eq_true, beq_iff_eq, decide_eq_true_iff, fractionField_eq,
      exponentField_eq]
  have hsucc : x.rank = x.rank - 1 + 1 := by omega
  -- The gap can only change where the fraction begins anew.
  by_cases hwrap : (x.rank - 1) % 0x800000 = 0x7fffff
  · rw [hsucc, gapAt_succ hwrap, ← hsucc]
    by_cases hnarrow : x.gapNarrowsBelow = true
    · have := hnarrows.1 hnarrow
      rw [if_pos hnarrow, if_neg (by omega)]
    · have := mt hnarrows.2 hnarrow
      rw [if_neg hnarrow, if_pos (by omega)]
  · have hnarrow : ¬ x.gapNarrowsBelow = true := fun h => by
      have := hnarrows.1 h
      omega
    rw [if_neg hnarrow, hsucc, gapAt_succ_of_ne hwrap, ← hsucc]

theorem valueAt_rank : valueAt x.rank = x.significand * 2 ^ x.scale := by
  rw [significand_eq, zpow_scale, valueAt]

theorem significand_pos (hpos : 0 < x.rank) : 0 < x.significand := by
  rw [significand_eq]
  split <;> omega

theorem upper_magnitude :
    (x.magnitude.upper : ℚ) * 2 ^ (x.magnitude.exponent - 2) = midpoint x.rank := by
  rw [midpoint, valueAt_rank, ← zpow_scale, Dyadic.upper, magnitude, zpow_sub₀ two_ne_zero]
  push_cast
  ring

theorem lower_magnitude (hpos : 0 < x.rank) :
    (x.magnitude.lower : ℚ) * 2 ^ (x.magnitude.exponent - 2) = midpoint (x.rank - 1) := by
  have hgap := x.gapAt_rank hpos
  have hsignificand := x.significand_pos hpos
  rw [midpoint_pred_eq_sub hpos, valueAt_rank, Dyadic.lower, magnitude, zpow_sub₀ two_ne_zero, zpow_scale]
  dsimp only
  split at hgap
  · rename_i hnarrow
    rw [if_pos hnarrow, hgap, Nat.cast_sub (by omega)]
    push_cast
    ring
  · rename_i hnarrow
    rw [if_neg hnarrow, hgap, Nat.cast_sub (by omega)]
    push_cast
    ring

/-- The decimals that the search admits are those of the interval. -/
theorem admits_magnitude_iff (hpos : 0 < x.rank) (e : Int) (c : Nat) :
    x.magnitude.admits e c = true ↔ Covers x.rank (c * 10 ^ e) := by
  have heven : x.magnitude.significand % 2 = x.rank % 2 := x.significand_mod_two
  rw [Dyadic.admits_iff, lower_magnitude x hpos, upper_magnitude, heven, Covers]

theorem below_magnitude_le (e : Int) :
    (x.magnitude.below e : ℚ) * 10 ^ e ≤ valueAt x.rank ∧
      valueAt x.rank < ((x.magnitude.below e + 1 : Nat) : ℚ) * 10 ^ e := by
  rw [valueAt_rank]
  exact x.magnitude.below_le e

end Interval

section Search

variable {x : Binary32} (hpos : 0 < x.rank)
include hpos

/-- What is found on a grid lies in the interval. -/
theorem covers_of_nearest? {e : Int} {c : Nat} (h : x.magnitude.nearest? e = some c) :
    Covers x.rank (c * 10 ^ e) := by
  rcases x.magnitude.nearest?_cases e with ⟨c', hfound, hadmits⟩ | ⟨hnone, -⟩
  · obtain rfl : c' = c := Option.some.inj (hfound.symm.trans h)
    exact (admits_magnitude_iff x hpos e c').1 hadmits
  · rw [hnone] at h
    cases h

/-- Where nothing is found on a grid, no multiple lies in the interval: one that does would have the
neighbor of the number on its side between itself and the number. -/
theorem not_covers_of_nearest? {e : Int} (h : x.magnitude.nearest? e = none) (c : Nat) :
    ¬ Covers x.rank (c * 10 ^ e) := by
  intro hcovers
  obtain ⟨hlow, hhigh⟩ := below_magnitude_le x e
  have hvalue : Covers x.rank (valueAt x.rank) :=
    covers_of_lt (midpoint_lt_valueAt hpos) (valueAt_lt_midpoint x.rank)
  have hten : (0 : ℚ) ≤ 10 ^ e := by positivity
  rcases x.magnitude.nearest?_cases e with ⟨c', hfound, -⟩ | ⟨-, hbelow, habove⟩
  · rw [h] at hfound
    cases hfound
  · rcases Nat.lt_or_ge (x.magnitude.below e) c with hlt | hge
    · have hle : ((x.magnitude.below e + 1 : Nat) : ℚ) * 10 ^ e ≤ c * 10 ^ e :=
        mul_le_mul_of_nonneg_right (Nat.cast_le.2 hlt) hten
      have hadmits := (admits_magnitude_iff x hpos e _).2 (hvalue.between hcovers hhigh.le hle)
      rw [habove] at hadmits
      cases hadmits
    · have hle : (c : ℚ) * 10 ^ e ≤ x.magnitude.below e * 10 ^ e :=
        mul_le_mul_of_nonneg_right (Nat.cast_le.2 hge) hten
      have hadmits := (admits_magnitude_iff x hpos e _).2 (hcovers.between hvalue hle hlow)
      rw [hbelow] at hadmits
      cases hadmits

/-- The finest grid of the search is finer than all intervals. -/
theorem exists_nearest?_finest : ∃ c, x.magnitude.nearest? (-46) = some c := by
  rcases h : x.magnitude.nearest? (-46) with _ | c
  · exfalso
    obtain ⟨hlow, hhigh⟩ := below_magnitude_le x (-46)
    refine not_covers_of_nearest? hpos h (x.magnitude.below (-46))
      (covers_of_lt ?_ (hlow.trans_lt (valueAt_lt_midpoint x.rank)))
    -- Even half of the smallest gap is wider than the grid.
    have hgap : (2 : ℚ) ^ (-149 : Int) ≤ gapAt (x.rank - 1) :=
      zpow_le_zpow_right₀ (by norm_num) (by omega)
    have hgrid : (10 : ℚ) ^ (-46 : Int) < gapAt (x.rank - 1) / 2 :=
      lt_of_lt_of_le (by norm_num) (div_le_div_of_nonneg_right hgap zero_le_two)
    rw [Nat.cast_add_one, add_one_mul] at hhigh
    calc
      midpoint (x.rank - 1) = valueAt x.rank - gapAt (x.rank - 1) / 2 := midpoint_pred_eq_sub hpos
      _ < valueAt x.rank - 10 ^ (-46 : Int) := sub_lt_sub_left hgrid _
      _ < x.magnitude.below (-46) * 10 ^ (-46 : Int) := sub_lt_iff_lt_add.2 hhigh
  · exact ⟨c, rfl⟩

end Search

/-! ## The Coarsest Grid -/

/-- A decimal lies in the interval of a place, and no multiple of a greater power of ten does. -/
structure IsCoarsest (n : Nat) (d : Decimal) : Prop where
  /-- The decimal belongs to the interval. -/
  covers : Covers n d.value
  /-- No coarser grid has a multiple in the interval. -/
  exponent_le : ∀ (c : Nat) (e : Int), Covers n (c * 10 ^ e) → e ≤ d.exponent

/-- A decimal in an interval is not zero. -/
theorem Covers.coefficient_pos {n c : Nat} {e : Int} (h : Covers n (c * 10 ^ e)) : 0 < c := by
  refine Nat.pos_of_ne_zero fun hzero => ?_
  have hpos := h.pos
  rw [hzero, Nat.cast_zero, zero_mul] at hpos
  exact lt_irrefl _ hpos

/-- All finite numbers have less than forty digits before the point. -/
theorem Covers.exponent_le {n c : Nat} {e : Int} (hn : n < rankLimit) (h : Covers n (c * 10 ^ e)) :
    e ≤ 39 := by
  by_contra hlarge
  have hc : (1 : ℚ) ≤ c := Nat.one_le_cast.2 h.coefficient_pos
  have hpower : (10 : ℚ) ^ (40 : Int) ≤ 10 ^ e := zpow_le_zpow_right₀ (by norm_num) (by omega)
  have hle : (10 : ℚ) ^ e ≤ c * 10 ^ e := le_mul_of_one_le_left (by positivity) hc
  have hlast : midpoint n ≤ midpoint (rankLimit - 1) :=
    midpoint_strictMono.monotone (Nat.le_sub_one_of_lt hn)
  have hupper := h.le.2
  rw [midpoint_last] at hlast
  have hbound : (2 : ℚ) ^ 128 - 2 ^ 103 < 10 ^ (40 : Int) := by norm_num
  linarith

/-- The search finds a decimal of the interval on the coarsest grid. -/
theorem shortestDecimal_isCoarsest {x : Binary32} (hfinite : x.isFinite = true) (hpos : 0 < x.rank) :
    IsCoarsest x.rank x.shortestDecimal := by
  obtain ⟨c, hfinest⟩ := exists_nearest?_finest hpos
  have hsome : (x.magnitude.shortest 39 85).isSome = true :=
    x.magnitude.isSome_shortest le_rfl hfinest
  obtain ⟨d, hd⟩ := Option.isSome_iff_exists.1 hsome
  have hshortest : x.shortestDecimal = d := by
    rw [shortestDecimal, if_neg (x.significand_pos hpos).ne', hd, Option.getD_some]
  obtain ⟨hnearest, hcoarser⟩ := x.magnitude.shortest_eq_some hd
  rw [hshortest]
  refine ⟨covers_of_nearest? hpos hnearest, fun c e hcovers => ?_⟩
  by_contra hlt
  have hle : e ≤ 39 := hcovers.exponent_le ((isFinite_iff x).1 hfinite)
  exact not_covers_of_nearest? hpos (hcoarser e (not_le.1 hlt) hle) c hcovers

namespace IsCoarsest

variable {n : Nat} {d : Decimal} (h : IsCoarsest n d)
include h

theorem digits_pos : 0 < d.digits :=
  h.covers.coefficient_pos

/-- The last digit is not zero. -/
theorem digits_mod_ten : d.digits % 10 ≠ 0 := by
  intro hzero
  have hvalue : d.value = (d.digits / 10 : Nat) * 10 ^ (d.exponent + 1) := by
    have hdigits : (d.digits : ℚ) = (d.digits / 10 : Nat) * 10 := by
      exact_mod_cast (Nat.div_mul_cancel (Nat.dvd_of_mod_eq_zero hzero)).symm
    rw [Decimal.value, hdigits, zpow_add_one₀ (by norm_num)]
    ring
  have hcovers := h.covers
  rw [hvalue] at hcovers
  have := h.exponent_le _ _ hcovers
  omega

/-- No decimal of the interval has fewer digits. One that had would lie below the power of ten with the
length of `d`, so that this power would be in the interval, on a coarser grid. -/
theorem length_toDigits_le {c k : Nat} {e : Int} (hcovers : Covers n (c * 10 ^ e)) (hc : c < 10 ^ k) :
    (Nat.toDigits 10 d.digits).length ≤ k := by
  by_contra hlt
  obtain ⟨m, hm⟩ : ∃ m, (Nat.toDigits 10 d.digits).length = m + 1 :=
    ⟨_, (Nat.succ_pred (List.length_pos_iff.2 Nat.toDigits_ne_nil).ne').symm⟩
  have hdigits : 10 ^ m ≤ d.digits := by
    by_cases hzero : m = 0
    · rw [hzero, pow_zero]
      exact h.digits_pos
    · rw [← not_lt, ← Nat.length_toDigits_le_iff (by decide) (Nat.pos_of_ne_zero hzero)]
      omega
  have hpower : (1 : Nat) * (10 : ℚ) ^ (m + d.exponent) = (10 ^ m : Nat) * 10 ^ d.exponent := by
    rw [zpow_add₀ (by norm_num), zpow_natCast]
    push_cast
    ring
  have hbelow : (c : ℚ) * 10 ^ e ≤ (10 ^ m : Nat) * 10 ^ d.exponent := by
    have hck : c ≤ 10 ^ m := hc.le.trans (Nat.pow_le_pow_right (by decide) (by omega))
    have hexponent : (10 : ℚ) ^ e ≤ 10 ^ d.exponent :=
      zpow_le_zpow_right₀ (by norm_num) (h.exponent_le c e hcovers)
    exact mul_le_mul (Nat.cast_le.2 hck) hexponent (by positivity) (by positivity)
  have habove : ((10 ^ m : Nat) : ℚ) * 10 ^ d.exponent ≤ d.value :=
    mul_le_mul_of_nonneg_right (Nat.cast_le.2 hdigits) (by positivity)
  have hinside := hcovers.between h.covers hbelow habove
  rw [← hpower] at hinside
  have hexponent := h.exponent_le _ _ hinside
  -- So `d` has one digit and the other decimal none, which makes it zero.
  obtain rfl : k = 0 := by omega
  have hpos := hcovers.coefficient_pos
  omega

end IsCoarsest

end Binary32

end ShaderWeave
