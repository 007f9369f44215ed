import ShaderWeave.Number.Binary32
import ShaderWeave.Number.Shortest

/-!
# Number Literals

How numbers are written in shading-language source. A float literal always has a point, so that it
stays a float; it has the fewest digits that read back as the same number and never an exponent.
-/

namespace ShaderWeave

namespace Binary32

/-- The magnitude of a finite number as a binary number with its rounding interval. -/
def magnitude (x : Binary32) : Dyadic where
  significand := x.significand
  exponent := x.scale
  narrowBelow := x.gapNarrowsBelow

/-- Places of the last digit that the shortest decimal of a finite number can have: from the 39 digits
of the largest number down to a place below the smallest one. -/
def shortestDecimal (x : Binary32) : Decimal :=
  if x.significand = 0 then ⟨0, 0⟩ else (x.magnitude.shortest 39 85).getD ⟨0, 0⟩

/-- The literal of a number in shading-language source. What is not finite has no literal and is
written as zero. -/
def literal (x : Binary32) : String :=
  if x.isFinite then
    String.ofList ((if x.isNegative then ['-'] else []) ++ x.shortestDecimal.positional)
  else
    "0.0"

end Binary32

/-- The literal of an integer in shading-language source. -/
def intLiteral (n : Int32) : String :=
  toString n.toInt

end ShaderWeave
