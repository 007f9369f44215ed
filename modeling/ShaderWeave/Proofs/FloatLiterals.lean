import Mathlib.Data.List.DropRight
import Mathlib.Tactic.IntervalCases
import ShaderWeave.Number.Numeral
import ShaderWeave.Proofs.ShortestDecimals

/-!
# Float Literals

A float literal stands for a rational, read off its digits without rounding. That rational rounds to the
number the literal was written for, and no decimal with fewer significant digits does.

## Main definitions

* `Numeral.exact`: the rational that a numeral with a point stands for.
* `Numeral.significantDigits`: how many digits it has from the first to the last that is not zero.

## Main results

* `Decimal.positional_isSpelling`: the written form of a decimal is that of its digits, padded with zeros.
* `Binary32.exact_literal`: the rational that a literal stands for.
* `Binary32.literal_round_trips`: literals are read back as the same number and are the shortest to be so.
-/

namespace ShaderWeave

/-! ## Exact Values -/

namespace Numeral

/-- Decimal digits, at least one. -/
def IsDigits (chars : List Char) : Prop :=
  chars ≠ [] ∧ ∀ c ∈ chars, c.isDigit = true

/-- The rational that a numeral with a point and without sign stands for. -/
def exactUnsigned (numeral : List Char) : ℚ :=
  let fraction := (numeral.dropWhile (· != '.')).drop 1
  digitsValue (numeral.takeWhile (· != '.') ++ fraction) / 10 ^ fraction.length

/-- The rational that a numeral with a point stands for. -/
def exact (numeral : String) : ℚ :=
  match numeral.toList with
  | '-' :: rest => -exactUnsigned rest
  | chars => exactUnsigned chars

/-- The digits of a numeral, without the zeros before and after all others. -/
def significant (numeral : List Char) : List Char :=
  ((numeral.filter Char.isDigit).dropWhile (· == '0')).rdropWhile (· == '0')

/-- How many digits a numeral has from the first to the last that is not zero. -/
def significantDigits (numeral : String) : Nat :=
  (significant numeral.toList).length

theorem digitsValue_toDigits (n : Nat) : digitsValue (Nat.toDigits 10 n) = n :=
  Nat.ofDigitChars_ten_toDigits

/-- Zeros before a string of digits do not count, and each zero after it counts ten times. -/
theorem digitsValue_padded (front back : Nat) (digits : List Char) :
    digitsValue (List.replicate front '0' ++ digits ++ List.replicate back '0') =
      10 ^ back * digitsValue digits := by
  have hfold (chars : List Char) : digitsValue chars = Nat.ofDigitChars 10 chars 0 := rfl
  rw [hfold, hfold, Nat.ofDigitChars_append, Nat.ofDigitChars_append, Nat.ofDigitChars_replicate_zero,
    Nat.ofDigitChars_replicate_zero, Nat.mul_zero]

theorem point_not_mem {chars : List Char} (h : ∀ c ∈ chars, c.isDigit = true) :
    ∀ c ∈ chars, (c != '.') = true := by
  intro c hc
  rw [bne_iff_ne]
  rintro rfl
  exact absurd (h _ hc) (by decide)

/-- The value of a numeral, from the digits before and after the point. -/
theorem exactUnsigned_append {whole : List Char} (fraction : List Char)
    (hwhole : ∀ c ∈ whole, c.isDigit = true) :
    exactUnsigned (whole ++ '.' :: fraction) = digitsValue (whole ++ fraction) / 10 ^ fraction.length := by
  have hpoint := point_not_mem hwhole
  have htake : (whole ++ '.' :: fraction).takeWhile (· != '.') = whole := by
    rw [List.takeWhile_append_of_pos hpoint, List.takeWhile_cons_of_neg (by decide), List.append_nil]
  have hdrop : (whole ++ '.' :: fraction).dropWhile (· != '.') = '.' :: fraction := by
    rw [List.dropWhile_append_of_pos hpoint, List.dropWhile_cons_of_neg (by decide)]
  rw [exactUnsigned, htake, hdrop, List.drop_one, List.tail_cons]

/-- A numeral that begins with a digit has no sign. -/
theorem exact_of_isDigit {numeral : String} {c : Char} {rest : List Char} (h : numeral.toList = c :: rest)
    (hc : c.isDigit = true) : exact numeral = exactUnsigned (c :: rest) := by
  unfold exact
  rw [h]
  split
  · rename_i heq
    obtain ⟨rfl, -⟩ := List.cons.inj heq
    exact absurd hc (by decide)
  · rfl

/-! ## Digits of a Number -/

theorem digitChar_ne_zero {n : Nat} (hn : n < 10) (hpos : 0 < n) : n.digitChar ≠ '0' := by
  interval_cases n <;> decide

/-- The first digit of a number other than zero is not zero. -/
theorem head?_toDigits {n : Nat} (hpos : 0 < n) : (Nat.toDigits 10 n).head? ≠ some '0' := by
  induction n using Nat.strongRecOn with
  | ind n ih =>
    rcases Nat.lt_or_ge n 10 with hlt | hge
    · rw [Nat.toDigits_of_lt_base hlt, List.head?_cons, Ne, Option.some.injEq]
      exact digitChar_ne_zero hlt hpos
    · rw [Nat.toDigits_of_base_le (by decide) hge, List.head?_append_of_ne_nil _ Nat.toDigits_ne_nil]
      exact ih (n / 10) (by omega) (by omega)

theorem getLast?_toDigits (n : Nat) : (Nat.toDigits 10 n).getLast? = some (n % 10).digitChar := by
  rcases Nat.lt_or_ge n 10 with hlt | hge
  · rw [Nat.toDigits_of_lt_base hlt, Nat.mod_eq_of_lt hlt, List.getLast?_singleton]
  · rw [Nat.toDigits_of_base_le (by decide) hge, List.getLast?_concat]

theorem dropWhile_of_head? {digits : List Char} (h : digits.head? ≠ some '0') :
    digits.dropWhile (· == '0') = digits := by
  cases digits with
  | nil => rfl
  | cons c rest => exact List.dropWhile_cons_of_neg (by simpa using h)

/-- Taking away zeros on both sides undoes the padding of a number that neither begins nor ends with one. -/
theorem trim_padded {n : Nat} (hpos : 0 < n) (hlast : n % 10 ≠ 0) (front back : Nat) :
    ((List.replicate front '0' ++ Nat.toDigits 10 n ++ List.replicate back '0').dropWhile
      (· == '0')).rdropWhile (· == '0') = Nat.toDigits 10 n := by
  have hzeros (count : Nat) : ∀ c ∈ List.replicate count '0', (c == '0') = true := fun c hc =>
    beq_iff_eq.2 (List.eq_of_mem_replicate hc)
  have hfirst : (Nat.toDigits 10 n ++ List.replicate back '0').head? ≠ some '0' := by
    rw [List.head?_append_of_ne_nil _ Nat.toDigits_ne_nil]
    exact head?_toDigits hpos
  have hreverse : (Nat.toDigits 10 n).reverse.head? ≠ some '0' := by
    rw [List.head?_reverse, getLast?_toDigits, Ne, Option.some.injEq]
    exact digitChar_ne_zero (Nat.mod_lt n (by decide)) (Nat.pos_of_ne_zero hlast)
  rw [List.append_assoc, List.dropWhile_append_of_pos (hzeros front), dropWhile_of_head? hfirst,
    List.rdropWhile, List.reverse_append, List.reverse_replicate,
    List.dropWhile_append_of_pos (hzeros back), dropWhile_of_head? hreverse, List.reverse_reverse]

end Numeral

/-! ## Written Decimals -/

namespace Decimal

/-- Digits before and after the point spell a decimal: together they are its digits, with zeros before and
after them, and the point is where the exponent says. -/
structure IsSpelling (d : Decimal) (whole fraction : List Char) : Prop where
  /-- There is a digit before the point. -/
  whole_ne_nil : whole ≠ []
  /-- There is a digit after the point. -/
  fraction_ne_nil : fraction ≠ []
  /-- The digits are those of the decimal, padded with zeros. -/
  padded : ∃ front back : Nat, (back : Int) = fraction.length + d.exponent ∧
    whole ++ fraction = List.replicate front '0' ++ Nat.toDigits 10 d.digits ++ List.replicate back '0'

/-- The written form of a decimal. -/
theorem positional_isSpelling (d : Decimal) :
    ∃ whole fraction, d.positional = whole ++ '.' :: fraction ∧ d.IsSpelling whole fraction := by
  have hlength : 0 < (Nat.toDigits 10 d.digits).length := List.length_pos_iff.2 Nat.toDigits_ne_nil
  unfold positional
  cases hexponent : d.exponent with
  | ofNat zeros =>
    -- The point is behind all digits.
    refine ⟨Nat.toDigits 10 d.digits ++ List.replicate zeros '0', ['0'], rfl, ?_, List.cons_ne_nil _ _,
      0, zeros + 1, ?_, ?_⟩
    · exact List.append_ne_nil_of_left_ne_nil Nat.toDigits_ne_nil _
    · rw [hexponent, List.length_singleton, Int.ofNat_eq_natCast]
      omega
    · rw [List.replicate_succ', List.replicate_zero, List.nil_append, List.append_assoc]
  | negSucc n =>
    dsimp only
    split
    · -- The point is between two digits.
      rename_i hinside
      refine ⟨_, _, rfl, ?_, ?_, 0, 0, ?_, ?_⟩
      · rw [← List.length_pos_iff, List.length_take]
        omega
      · rw [← List.length_pos_iff, List.length_drop]
        omega
      · rw [hexponent, List.length_drop]
        omega
      · rw [List.take_append_drop, List.replicate_zero, List.nil_append, List.append_nil]
    · -- The point is in front of all digits.
      rename_i hoverhang
      refine ⟨['0'], _, rfl, List.cons_ne_nil _ _, ?_,
        n + 1 - (Nat.toDigits 10 d.digits).length + 1, 0, ?_, ?_⟩
      · exact List.append_ne_nil_of_right_ne_nil _ Nat.toDigits_ne_nil
      · rw [hexponent, List.length_append, List.length_replicate]
        omega
      · rw [List.singleton_append, List.replicate_succ, List.replicate_zero, List.append_nil,
          List.cons_append]

namespace IsSpelling

variable {d : Decimal} {whole fraction : List Char} (h : d.IsSpelling whole fraction)
include h

theorem isDigit : ∀ c ∈ whole ++ fraction, c.isDigit = true := by
  obtain ⟨front, back, -, hpadded⟩ := h.padded
  intro c hc
  rw [hpadded, List.mem_append, List.mem_append, List.mem_replicate, List.mem_replicate] at hc
  rcases hc with (⟨-, rfl⟩ | hc) | ⟨-, rfl⟩
  · decide
  · exact Nat.isDigit_of_mem_toDigits (by decide) (by decide) hc
  · decide

theorem exactUnsigned_eq : Numeral.exactUnsigned (whole ++ '.' :: fraction) = d.value := by
  obtain ⟨front, back, hback, hpadded⟩ := h.padded
  have hwhole : ∀ c ∈ whole, c.isDigit = true := fun c hc => h.isDigit c (List.mem_append_left _ hc)
  have hpower : (10 : ℚ) ^ back = 10 ^ fraction.length * 10 ^ d.exponent := by
    rw [← zpow_natCast, hback, zpow_add₀ (by norm_num), zpow_natCast]
  rw [Numeral.exactUnsigned_append fraction hwhole, hpadded, Numeral.digitsValue_padded,
    Numeral.digitsValue_toDigits, Decimal.value, Nat.cast_mul, Nat.cast_pow, Nat.cast_ofNat, hpower]
  field_simp

theorem significant_eq (hpos : 0 < d.digits) (hlast : d.digits % 10 ≠ 0) :
    Numeral.significant (whole ++ '.' :: fraction) = Nat.toDigits 10 d.digits := by
  obtain ⟨front, back, -, hpadded⟩ := h.padded
  have hfilter : (whole ++ '.' :: fraction).filter Char.isDigit = whole ++ fraction := by
    rw [List.filter_append, List.filter_cons_of_neg (by decide), ← List.filter_append,
      List.filter_eq_self.2 h.isDigit]
  rw [Numeral.significant, hfilter, hpadded, Numeral.trim_padded hpos hlast]

end IsSpelling

end Decimal

/-! ## Literals -/

namespace Binary32

variable {x : Binary32}

theorem toList_literal (hfinite : x.isFinite = true) :
    x.literal.toList = (if x.isNegative then ['-'] else []) ++ x.shortestDecimal.positional := by
  rw [literal, if_pos hfinite, String.toList_ofList]

/-- The rational that a literal stands for. -/
theorem exact_literal (hfinite : x.isFinite = true) :
    Numeral.exact x.literal = signed x.isNegative x.shortestDecimal.value := by
  obtain ⟨whole, fraction, hpositional, hspelling⟩ := x.shortestDecimal.positional_isSpelling
  have hvalue := hspelling.exactUnsigned_eq
  rw [← hpositional] at hvalue
  have hlist := toList_literal hfinite
  rw [← hvalue]
  cases hsign : x.isNegative with
  | true =>
    rw [hsign] at hlist
    rw [Numeral.exact, hlist]
    rfl
  | false =>
    obtain ⟨c, rest, hwhole⟩ := List.exists_cons_of_ne_nil hspelling.whole_ne_nil
    have hdigit : c.isDigit = true := hspelling.isDigit c (by rw [hwhole]; exact List.mem_cons_self)
    rw [hpositional, hwhole]
    rw [hsign, hpositional, hwhole] at hlist
    exact Numeral.exact_of_isDigit hlist hdigit

/-- The literal of a number other than zero has as many significant digits as the shortest decimal. -/
theorem significantDigits_literal (hfinite : x.isFinite = true) (hpos : 0 < x.rank) :
    Numeral.significantDigits x.literal = (Nat.toDigits 10 x.shortestDecimal.digits).length := by
  have hcoarsest := shortestDecimal_isCoarsest hfinite hpos
  obtain ⟨whole, fraction, hpositional, hspelling⟩ := x.shortestDecimal.positional_isSpelling
  have hsign : ((if x.isNegative then ['-'] else []) : List Char).filter Char.isDigit = [] := by
    split <;> rfl
  rw [Numeral.significantDigits, toList_literal hfinite, hpositional, Numeral.significant,
    List.filter_append, hsign, List.nil_append]
  exact congrArg List.length
    (hspelling.significant_eq hcoarsest.digits_pos hcoarsest.digits_mod_ten)

/-- The rational that a literal stands for rounds to the number. -/
theorem roundsTo_exact_literal (hfinite : x.isFinite = true) :
    RoundsTo (Numeral.exact x.literal) x := by
  rw [exact_literal hfinite]
  rcases Nat.eq_zero_or_pos x.rank with hzero | hpos
  · have hsignificand : x.significand = 0 := by
      rw [significand_eq, hzero]
      rfl
    have hdecimal : x.shortestDecimal.value = 0 := by
      rw [shortestDecimal, if_pos hsignificand, Decimal.value, Nat.cast_zero, zero_mul]
    have hexact : signed x.isNegative x.shortestDecimal.value = 0 := by
      rw [← abs_eq_zero, abs_signed, hdecimal, abs_zero]
    rw [hexact]
    exact roundsTo_zero hzero
  · rw [roundsTo_iff_covers hfinite hpos, signed_signed, Bool.xor_self]
    exact (shortestDecimal_isCoarsest hfinite hpos).covers

/-- A decimal that rounds to a number other than zero has no fewer digits than the literal of the number. -/
theorem RoundsTo.significantDigits_le {k : Nat} {c e : Int} (h : RoundsTo (c * 10 ^ e) x)
    (hnonzero : x.toRat ≠ 0) (hc : |c| < 10 ^ k) : Numeral.significantDigits x.literal ≤ k := by
  have hpos : 0 < x.rank := Nat.pos_of_ne_zero (mt toRat_eq_zero_iff.2 hnonzero)
  have hcovers := h.covers hpos
  have hmagnitude : signed x.isNegative (c * 10 ^ e) = (c.natAbs : ℚ) * 10 ^ e := by
    rw [← abs_of_pos hcovers.pos, abs_signed, abs_mul, abs_of_pos (a := (10 : ℚ) ^ e) (by positivity),
      Nat.cast_natAbs, Int.cast_abs]
  rw [hmagnitude] at hcovers
  rw [Int.abs_eq_natAbs] at hc
  rw [significantDigits_literal h.isFinite hpos]
  exact (shortestDecimal_isCoarsest h.isFinite hpos).length_toDigits_le hcovers (by exact_mod_cast hc)

/-- The literal of a finite number has digits on both sides of a point, and the sign of the number. -/
theorem exists_digits_literal (hfinite : x.isFinite = true) :
    ∃ whole fraction, Numeral.IsDigits whole ∧ Numeral.IsDigits fraction ∧
      x.literal.toList = (if x.isNegative then ['-'] else []) ++ whole ++ '.' :: fraction := by
  obtain ⟨whole, fraction, hpositional, hspelling⟩ := x.shortestDecimal.positional_isSpelling
  refine ⟨whole, fraction, ⟨hspelling.whole_ne_nil, ?_⟩, ⟨hspelling.fraction_ne_nil, ?_⟩, ?_⟩
  · exact fun c hc => hspelling.isDigit c (List.mem_append_left _ hc)
  · exact fun c hc => hspelling.isDigit c (List.mem_append_right _ hc)
  · rw [toList_literal hfinite, hpositional, List.append_assoc]

/-- The literal of a number that is not finite is zero. That of a finite number has digits on both sides of
a point, and a minus exactly if the number has one. The rational it stands for rounds to the number, so that
only the two zeros share one, and it has the fewest significant digits of all decimals that do. -/
theorem literal_round_trips (x : Binary32) :
    (x.isFinite = false → x.literal = "0.0") ∧
      (x.isFinite = true →
        (∃ whole fraction, Numeral.IsDigits whole ∧ Numeral.IsDigits fraction ∧
          x.literal.toList = (if x.isNegative then ['-'] else []) ++ whole ++ '.' :: fraction) ∧
        RoundsTo (Numeral.exact x.literal) x ∧
        (∀ y : Binary32, y.isFinite = true → Numeral.exact y.literal = Numeral.exact x.literal →
          y = x ∨ (y.toRat = 0 ∧ x.toRat = 0)) ∧
        (x.toRat ≠ 0 → ∀ (k : Nat) (c e : Int), |c| < 10 ^ k → RoundsTo (c * 10 ^ e) x →
          Numeral.significantDigits x.literal ≤ k)) := by
  refine ⟨fun hinfinite => ?_, fun hfinite => ⟨exists_digits_literal hfinite,
    roundsTo_exact_literal hfinite, fun y hy heq => ?_, fun hnonzero k c e hc hround => ?_⟩⟩
  · rw [literal, if_neg (by rw [hinfinite]; decide)]
  · have hround := roundsTo_exact_literal hy
    rw [heq] at hround
    exact hround.eq_or_zero (roundsTo_exact_literal hfinite)
  · exact hround.significantDigits_le hnonzero hc

/-- A negative power of two: numbers are closer together on one side of it than on the other, and the
shortest decimal of its interval is not the power itself. -/
theorem powerOfTwo_round_trips :
    let x : Binary32 := ⟨0xcd000000⟩
    x.isFinite = true ∧ x.literal = "-134217730.0" ∧ Numeral.exact x.literal = -134217730 ∧
      RoundsTo (Numeral.exact x.literal) x ∧ x.toRat = -134217728 ∧
      Numeral.significantDigits x.literal = 8 ∧
      ∀ c e : Int, |c| < 10 ^ 7 → ¬ RoundsTo (c * 10 ^ e) x := by
  intro x
  have hfinite : x.isFinite = true := by decide
  have hliteral : x.literal = "-134217730.0" := by decide +kernel
  have hdigits : Numeral.significantDigits x.literal = 8 := by
    rw [hliteral]
    decide +kernel
  have hvalue : x.toRat = -134217728 := by decide +kernel
  obtain ⟨-, hround, -, hshortest⟩ := (literal_round_trips x).2 hfinite
  refine ⟨hfinite, hliteral, ?_, hround, hvalue, hdigits, fun c e hc h => ?_⟩
  · rw [hliteral]
    decide +kernel
  · have hle := hshortest (by rw [hvalue]; norm_num) 7 c e hc h
    omega

end Binary32

end ShaderWeave
