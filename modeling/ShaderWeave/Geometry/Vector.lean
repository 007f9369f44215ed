import ShaderWeave.Number.Binary32

/-!
# Vectors

Vectors of single-precision numbers. Every operation rounds after each step, in the order written.
-/

namespace ShaderWeave

/-- Two numbers. -/
structure Vec2 where
  /-- First component. -/
  x : Binary32
  /-- Second component. -/
  y : Binary32
deriving DecidableEq, Inhabited

/-- Three numbers. -/
structure Vec3 where
  /-- First component. -/
  x : Binary32
  /-- Second component. -/
  y : Binary32
  /-- Third component. -/
  z : Binary32
deriving DecidableEq, Inhabited

/-- Four numbers. -/
structure Vec4 where
  /-- First component. -/
  x : Binary32
  /-- Second component. -/
  y : Binary32
  /-- Third component. -/
  z : Binary32
  /-- Fourth component. -/
  w : Binary32
deriving DecidableEq, Inhabited

namespace Vec2

/-- The components in order. -/
def toList (v : Vec2) : List Binary32 := [v.x, v.y]

/-- The vector with the given components. -/
def ofList? : List Binary32 → Option Vec2
  | [x, y] => some ⟨x, y⟩
  | _ => none

end Vec2

namespace Vec3

/-- The components in order. -/
def toList (v : Vec3) : List Binary32 := [v.x, v.y, v.z]

/-- The vector with the given components. -/
def ofList? : List Binary32 → Option Vec3
  | [x, y, z] => some ⟨x, y, z⟩
  | _ => none

/-- The vector of zeros. -/
def zero : Vec3 := ⟨.zero, .zero, .zero⟩

/-- The unit vector along the second axis. -/
def unitY : Vec3 := ⟨.zero, .one, .zero⟩

/-- The unit vector along the third axis. -/
def unitZ : Vec3 := ⟨.zero, .zero, .one⟩

/-- The unit vector against the second axis. The other components are positive zeros. -/
def down : Vec3 := ⟨.zero, -.one, .zero⟩

/-- The four components of the vector and a last one. -/
def extend (v : Vec3) (w : Binary32) : Vec4 := ⟨v.x, v.y, v.z, w⟩

/-- The vector times a number. -/
def scale (v : Vec3) (factor : Binary32) : Vec3 :=
  ⟨v.x * factor, v.y * factor, v.z * factor⟩

/-- Component-wise difference. -/
def sub (a b : Vec3) : Vec3 := ⟨a.x - b.x, a.y - b.y, a.z - b.z⟩

/-- Scalar product. -/
def dot (a b : Vec3) : Binary32 := (a.x * b.x + a.y * b.y) + a.z * b.z

/-- Vector product. -/
def cross (a b : Vec3) : Vec3 :=
  ⟨a.y * b.z - b.y * a.z, a.z * b.x - b.z * a.x, a.x * b.y - b.x * a.y⟩

/-- The factor that brings the vector to unit length. -/
def unitFactor (v : Vec3) : Binary32 := .one / (v.dot v).sqrt

/-- The vector brought to unit length. -/
def normalize (v : Vec3) : Vec3 := v.scale v.unitFactor

/-- The vector brought to unit length, or `fallback` if its length is zero or not a number, or too
small or large for that. -/
def normalizeOr (v fallback : Vec3) : Vec3 :=
  if v.unitFactor.isPositiveFinite then v.scale v.unitFactor else fallback

end Vec3

namespace Vec4

/-- The components in order. -/
def toList (v : Vec4) : List Binary32 := [v.x, v.y, v.z, v.w]

/-- The vector with the given components. -/
def ofList? : List Binary32 → Option Vec4
  | [x, y, z, w] => some ⟨x, y, z, w⟩
  | _ => none

/-- The first three components. -/
def truncate (v : Vec4) : Vec3 := ⟨v.x, v.y, v.z⟩

/-- Component-wise sum. -/
def add (a b : Vec4) : Vec4 := ⟨a.x + b.x, a.y + b.y, a.z + b.z, a.w + b.w⟩

/-- Component-wise difference. -/
def sub (a b : Vec4) : Vec4 := ⟨a.x - b.x, a.y - b.y, a.z - b.z, a.w - b.w⟩

/-- Component-wise product. -/
def mul (a b : Vec4) : Vec4 := ⟨a.x * b.x, a.y * b.y, a.z * b.z, a.w * b.w⟩

/-- The vector times a number. -/
def scale (v : Vec4) (factor : Binary32) : Vec4 :=
  ⟨v.x * factor, v.y * factor, v.z * factor, v.w * factor⟩

end Vec4

end ShaderWeave
