/-!
# Shortest Decimals

Of all decimals that round to a given binary number, the shortest one is printed, and of several
such the nearest. `Dyadic.shortest` finds it by exact arithmetic: the interval of reals that round to
the number is known, and on the grid of multiples of a power of ten only the number's two neighbors
can be nearest, so the coarsest grid with a neighbor inside the interval holds the answer.
-/

namespace ShaderWeave

/-- The non-negative decimal `digits * 10 ^ exponent`. -/
structure Decimal where
  /-- All digits, as one integer. -/
  digits : Nat
  /-- Place of the last digit. -/
  exponent : Int
deriving DecidableEq, Inhabited

/-- The decimal without an exponent, always with a point and a digit on both sides of it. -/
def Decimal.positional (d : Decimal) : List Char :=
  let digits := Nat.toDigits 10 d.digits
  match d.exponent with
  | .ofNat zeros => digits ++ List.replicate zeros '0' ++ ['.', '0']
  | .negSucc n =>
    let places := n + 1
    if places < digits.length then
      digits.take (digits.length - places) ++ '.' :: digits.drop (digits.length - places)
    else
      '0' :: '.' :: (List.replicate (places - digits.length) '0' ++ digits)

/-- The positive binary number `significand * 2 ^ exponent`, together with what is needed to know
which reals round to it. -/
structure Dyadic where
  /-- The integer part of the representation. -/
  significand : Nat
  /-- The power of two it is counted in. -/
  exponent : Int
  /-- Whether the next smaller representable number is only half a unit away. -/
  narrowBelow : Bool

namespace Dyadic

/-- Lower end of the interval that rounds to the number, in quarters of the unit. -/
def lower (x : Dyadic) : Nat :=
  4 * x.significand - if x.narrowBelow then 1 else 2

/-- Upper end of the interval that rounds to the number, in quarters of the unit. -/
def upper (x : Dyadic) : Nat :=
  4 * x.significand + 2

/-- A quarter of the unit, as a multiple of a step that also divides `10 ^ e`. -/
def quarter (x : Dyadic) (e : Int) : Nat :=
  Nat.pow 2 (x.exponent - 2).toNat * Nat.pow 10 (-e).toNat

/-- The power `10 ^ e`, as a multiple of the same step. -/
def gridUnit (x : Dyadic) (e : Int) : Nat :=
  Nat.pow 10 e.toNat * Nat.pow 2 (2 - x.exponent).toNat

/-- Whether `c * 10 ^ e` rounds to the number. A decimal half way between two numbers rounds to the
one with the even significand. -/
def admits (x : Dyadic) (e : Int) (c : Nat) : Bool :=
  let point := c * x.gridUnit e
  let low := x.lower * x.quarter e
  let high := x.upper * x.quarter e
  if x.significand % 2 = 0 then low ≤ point && point ≤ high else low < point && point < high

/-- The multiple of `10 ^ e` that is nearest to the number among those that round to it. Of two
equally near ones it is the larger. -/
def nearest? (x : Dyadic) (e : Int) : Option Nat :=
  let value := 4 * x.significand * x.quarter e
  let unit := x.gridUnit e
  let below := value / unit
  match x.admits e below, x.admits e (below + 1) with
  | true, true => some (if 2 * (value % unit) < unit then below else below + 1)
  | true, false => some below
  | false, true => some (below + 1)
  | false, false => none

/-- The shortest decimal that rounds to the number, with a last digit at a place between `top - count`
and `top`. -/
def shortest (x : Dyadic) (top : Int) (count : Nat) : Option Decimal :=
  (List.range (count + 1)).findSome? fun (step : Nat) =>
    let e := top - step
    (x.nearest? e).map fun digits => ⟨digits, e⟩

end Dyadic

end ShaderWeave
