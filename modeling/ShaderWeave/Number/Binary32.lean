/-!
# Single-Precision Numbers

Draw data and shader parameters are binary floating-point numbers of 32 bits, kept as their bit
patterns: a pattern that is not a number travels through cells and buffers unchanged, and two values
are equal exactly when their bits are. Arithmetic rounds each operation to the nearest value. Where
an operation has no numeric result, the outcome is the first operand that is not a number, made
quiet, and otherwise the pattern `invalid`.
-/

namespace ShaderWeave

/-- A binary floating-point number of 32 bits, as its bit pattern: a sign bit, eight exponent bits
and twenty-three fraction bits. -/
structure Binary32 where
  /-- The pattern. -/
  bits : UInt32
deriving DecidableEq, Inhabited

namespace Binary32

/-- Whether the sign bit is set. -/
def isNegative (x : Binary32) : Bool :=
  0x80000000 ≤ x.bits.toNat

/-- The exponent bits as a number. -/
def exponentField (x : Binary32) : Nat :=
  x.bits.toNat / 0x800000 % 0x100

/-- The fraction bits as a number. -/
def fractionField (x : Binary32) : Nat :=
  x.bits.toNat % 0x800000

/-- Whether the pattern stands for a real number. -/
def isFinite (x : Binary32) : Bool :=
  x.exponentField != 255

/-- Whether the pattern stands for no number, not even an infinite one. -/
def isNaN (x : Binary32) : Bool :=
  x.exponentField == 255 && x.fractionField != 0

/-- The integer `m` such that a finite pattern has magnitude `m * 2 ^ scale`. -/
def significand (x : Binary32) : Nat :=
  if x.exponentField = 0 then x.fractionField else 0x800000 + x.fractionField

/-- The power of two that the significand is counted in. -/
def scale (x : Binary32) : Int :=
  (max x.exponentField 1 : Nat) - 150

/-- Whether the next smaller magnitude is nearer than the next larger one, which is so at the powers
of two from the second one on. -/
def gapNarrowsBelow (x : Binary32) : Bool :=
  x.fractionField == 0 && 1 < x.exponentField

/-- The number zero. -/
def zero : Binary32 := ⟨0⟩

/-- The number one. -/
def one : Binary32 := ⟨0x3f800000⟩

/-- The outcome of an operation that has no numeric result. -/
def invalid : Binary32 := ⟨0xffc00000⟩

/-- The same pattern with the quiet bit set. -/
def quiet (x : Binary32) : Binary32 := ⟨x.bits ||| 0x00400000⟩

/-- The machine number with this pattern. -/
def toFloat32 (x : Binary32) : Float32 := Float32.ofBits x.bits

/-- The pattern of a machine number. -/
def ofFloat32 (x : Float32) : Binary32 :=
  if x.isNaN then invalid else ⟨x.toBits⟩

/-- An operation on one number. -/
def lift (op : Float32 → Float32) (x : Binary32) : Binary32 :=
  if x.isNaN then x.quiet else ofFloat32 (op x.toFloat32)

/-- An operation on two numbers. -/
def lift₂ (op : Float32 → Float32 → Float32) (x y : Binary32) : Binary32 :=
  if x.isNaN then x.quiet
  else if y.isNaN then y.quiet
  else ofFloat32 (op x.toFloat32 y.toFloat32)

instance : Add Binary32 := ⟨lift₂ (· + ·)⟩
instance : Sub Binary32 := ⟨lift₂ (· - ·)⟩
instance : Mul Binary32 := ⟨lift₂ (· * ·)⟩
instance : Div Binary32 := ⟨lift₂ (· / ·)⟩

/-- The same magnitude with the other sign. -/
instance : Neg Binary32 := ⟨fun x => ⟨x.bits ^^^ 0x80000000⟩⟩

/-- Square root. -/
def sqrt : Binary32 → Binary32 := lift Float32.sqrt

/-- Sine of an angle in radians. -/
def sin : Binary32 → Binary32 := lift Float32.sin

/-- Cosine of an angle in radians. -/
def cos : Binary32 → Binary32 := lift Float32.cos

/-- The integer nearest to a quotient. Half way between two integers it is the even one. -/
def nearestQuotient (n d : Nat) : Nat :=
  if 2 * (n % d) < d ∨ 2 * (n % d) = d ∧ n / d % 2 = 0 then n / d else n / d + 1

/-- The number nearest to a 32-bit word. -/
def ofUInt32 (n : UInt32) : Binary32 :=
  if n = 0 then zero
  else
    let places := n.toNat.log2
    let significand := nearestQuotient (n.toNat * 0x800000) (Nat.pow 2 places)
    -- The first bit of the significand adds one to the exponent, and so does rounding up to the next power.
    ⟨.ofNat ((places + 126) * 0x800000 + significand)⟩

/-- The number cut to a byte: the fraction is dropped, values outside the range go to its end, and
what is no number goes to zero. -/
def toByte (x : Binary32) : UInt8 :=
  if x.isNaN then 0 else x.toFloat32.toUInt8

/-- Whether `x` is a finite number above zero. -/
def isPositiveFinite (x : Binary32) : Bool :=
  x.isFinite && !x.isNegative && x.bits != 0

/-- The four bytes of a word, least significant first. -/
def wordBytes (word : UInt32) : List UInt8 :=
  [word.toUInt8, (word >>> 8).toUInt8, (word >>> 16).toUInt8, (word >>> 24).toUInt8]

/-- The four bytes of the pattern, least significant first. -/
def bytes (x : Binary32) : List UInt8 := wordBytes x.bits

end Binary32

end ShaderWeave
