import ShaderWeave.Geometry.Vector

/-!
# Matrices

Matrices of four columns, stored by columns, with the product, the inverse by cofactors, and the view
and projection matrices of a camera that looks against the third axis. Three-column matrices are only
carried around.
-/

namespace ShaderWeave

/-- A matrix of three columns. -/
structure Mat3 where
  /-- First column. -/
  x : Vec3
  /-- Second column. -/
  y : Vec3
  /-- Third column. -/
  z : Vec3
deriving DecidableEq, Inhabited

/-- A matrix of four columns. -/
structure Mat4 where
  /-- First column. -/
  x : Vec4
  /-- Second column. -/
  y : Vec4
  /-- Third column. -/
  z : Vec4
  /-- Fourth column. -/
  w : Vec4
deriving DecidableEq, Inhabited

/-- The matrix with the given components, column by column. -/
def Mat3.ofList? (components : List Binary32) : Option Mat3 := do
  return {
    x := ← Vec3.ofList? (components.take 3)
    y := ← Vec3.ofList? ((components.drop 3).take 3)
    z := ← Vec3.ofList? (components.drop 6) }

namespace Mat4

/-- All components, column by column. -/
def toList (m : Mat4) : List Binary32 :=
  m.x.toList ++ m.y.toList ++ m.z.toList ++ m.w.toList

/-- The matrix with the given components, column by column. -/
def ofList? (components : List Binary32) : Option Mat4 := do
  return {
    x := ← Vec4.ofList? (components.take 4)
    y := ← Vec4.ofList? ((components.drop 4).take 4)
    z := ← Vec4.ofList? ((components.drop 8).take 4)
    w := ← Vec4.ofList? (components.drop 12) }

/-- The matrix that changes nothing. -/
def identity : Mat4 where
  x := ⟨.one, .zero, .zero, .zero⟩
  y := ⟨.zero, .one, .zero, .zero⟩
  z := ⟨.zero, .zero, .one, .zero⟩
  w := ⟨.zero, .zero, .zero, .one⟩

/-- The matrix applied to a vector. -/
def apply (m : Mat4) (v : Vec4) : Vec4 :=
  (((m.x.scale v.x).add (m.y.scale v.y)).add (m.z.scale v.z)).add (m.w.scale v.w)

/-- The product of two matrices. -/
def mul (a b : Mat4) : Mat4 where
  x := a.apply b.x
  y := a.apply b.y
  z := a.apply b.z
  w := a.apply b.w

/-- The determinants of two rows over pairs of the last three columns, the first one twice. The rows
are given by the function that selects them from a column. -/
def minors (m : Mat4) (first second : Vec4 → Binary32) : Vec4 :=
  let zw := first m.z * second m.w - first m.w * second m.z
  let yw := first m.y * second m.w - first m.w * second m.y
  let yz := first m.y * second m.z - first m.z * second m.y
  ⟨zw, zw, yw, yz⟩

/-- One row of the first two columns, as it enters the cofactors. -/
def rowPair (m : Mat4) (row : Vec4 → Binary32) : Vec4 :=
  ⟨row m.y, row m.x, row m.x, row m.x⟩

/-- The inverse of a matrix, by cofactors. If there is none, the components are infinite or no
numbers. -/
def inverse (m : Mat4) : Mat4 :=
  let f0 := m.minors Vec4.z Vec4.w
  let f1 := m.minors Vec4.y Vec4.w
  let f2 := m.minors Vec4.y Vec4.z
  let f3 := m.minors Vec4.x Vec4.w
  let f4 := m.minors Vec4.x Vec4.z
  let f5 := m.minors Vec4.x Vec4.y
  let v0 := m.rowPair Vec4.x
  let v1 := m.rowPair Vec4.y
  let v2 := m.rowPair Vec4.z
  let v3 := m.rowPair Vec4.w
  let even : Vec4 := ⟨.one, -.one, .one, -.one⟩
  let odd : Vec4 := ⟨-.one, .one, -.one, .one⟩
  let i0 := even.mul (((v1.mul f0).sub (v2.mul f1)).add (v3.mul f2))
  let i1 := odd.mul (((v0.mul f0).sub (v2.mul f3)).add (v3.mul f4))
  let i2 := even.mul (((v0.mul f1).sub (v1.mul f3)).add (v3.mul f5))
  let i3 := odd.mul (((v0.mul f2).sub (v1.mul f4)).add (v2.mul f5))
  let determinant :=
    (m.x.x * i0.x + m.x.z * i2.x) + (m.x.y * i1.x + m.x.w * i3.x)
  let factor := .one / determinant
  ⟨i0.scale factor, i1.scale factor, i2.scale factor, i3.scale factor⟩

/-- The view of an eye that looks at `center`, with `up` upwards. -/
def lookAt (eye center up : Vec3) : Mat4 :=
  let forward := (center.sub eye).normalize
  let side := (forward.cross up).normalize
  let upward := side.cross forward
  { x := ⟨side.x, upward.x, -forward.x, .zero⟩
    y := ⟨side.y, upward.y, -forward.y, .zero⟩
    z := ⟨side.z, upward.z, -forward.z, .zero⟩
    w := ⟨-eye.dot side, -eye.dot upward, eye.dot forward, .one⟩ }

/-- The perspective projection with the given vertical angle of view in radians, ratio of width to
height, and distances of the near and far planes, which go to depths zero and one. -/
def perspective (angle aspect near far : Binary32) : Mat4 :=
  let half := angle * ⟨0x3f000000⟩
  let height := half.cos / half.sin
  let width := height / aspect
  let depth := far / (near - far)
  { x := ⟨width, .zero, .zero, .zero⟩
    y := ⟨.zero, height, .zero, .zero⟩
    z := ⟨.zero, .zero, depth, -.one⟩
    w := ⟨.zero, .zero, depth * near, .zero⟩ }

end Mat4

/-- An angle in degrees, in radians. -/
def Binary32.toRadians (degrees : Binary32) : Binary32 :=
  degrees * ⟨0x3c8efa35⟩

end ShaderWeave
