import ShaderWeave.Number.Binary32

/-!
# Numerals

The number that a decimal numeral stands for: digits with an optional sign, fraction and exponent.
-/

namespace ShaderWeave

namespace Numeral

/-- Whether a character starts the exponent. -/
def isExponentMark (c : Char) : Bool := c == 'e' || c == 'E'

/-- The value of a string of decimal digits. -/
def digitsValue (digits : List Char) : Nat :=
  digits.foldl (fun n c => 10 * n + (c.toNat - '0'.toNat)) 0

/-- The exponent, with an optional sign. -/
def exponentValue : List Char → Int
  | '-' :: digits => -(digitsValue digits)
  | '+' :: digits => digitsValue digits
  | digits => digitsValue digits

/-- The double-precision number nearest to a numeral without sign. -/
def unsigned (numeral : List Char) : Float :=
  let mantissa := numeral.takeWhile (!isExponentMark ·)
  let exponent := exponentValue ((numeral.dropWhile (!isExponentMark ·)).drop 1)
  let fraction := (mantissa.dropWhile (· != '.')).drop 1
  let digits := mantissa.takeWhile (· != '.') ++ fraction
  let scale := exponent - fraction.length
  Float.ofScientific (digitsValue digits) (scale < 0) scale.natAbs

end Numeral

/-- The number that a numeral stands for, rounded to double and then to single precision. -/
def Binary32.ofNumeral (numeral : String) : Binary32 :=
  match numeral.toList with
  | '-' :: rest => ⟨(-Numeral.unsigned rest).toFloat32.toBits⟩
  | chars => ⟨(Numeral.unsigned chars).toFloat32.toBits⟩

end ShaderWeave
