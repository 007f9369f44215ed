/-!
# Value Types

The types a shader-side value can have: scalars and vectors of floats or integers, square float
matrices, and opaque texture samplers. The module gives their spelling in shading-language source,
their names in a manifest, and the sizes that interface locations and uniform blocks are laid out
by.
-/

namespace ShaderWeave

/-- Component kind of a scalar or vector. -/
inductive ScalarKind where
  /-- Single-precision floats. -/
  | float
  /-- Signed 32-bit integers. -/
  | int
deriving DecidableEq, Inhabited

/-- Number of components of a scalar (one) or vector. -/
inductive Width where
  /-- A scalar. -/
  | one
  /-- A vector of two components. -/
  | two
  /-- A vector of three components. -/
  | three
  /-- A vector of four components. -/
  | four
deriving DecidableEq, Inhabited

namespace Width

/-- The component count as a number. -/
def toNat : Width → Nat
  | one => 1
  | two => 2
  | three => 3
  | four => 4

/-- The width with `n` components, for `1 ≤ n ≤ 4`. -/
def ofNat? : Nat → Option Width
  | 1 => some one
  | 2 => some two
  | 3 => some three
  | 4 => some four
  | _ => none

@[simp]
theorem ofNat?_toNat (w : Width) : ofNat? w.toNat = some w := by
  cases w <;> rfl

theorem toNat_of_ofNat? {n : Nat} {w : Width} (h : ofNat? n = some w) : w.toNat = n := by
  unfold ofNat? at h
  split at h <;> cases h <;> rfl

end Width

/-- Number of columns (and rows) of a square matrix. -/
inductive Columns where
  /-- Two columns of two rows. -/
  | two
  /-- Three columns of three rows. -/
  | three
  /-- Four columns of four rows. -/
  | four
deriving DecidableEq, Inhabited

/-- The column count as a number. -/
def Columns.toNat : Columns → Nat
  | two => 2
  | three => 3
  | four => 4

/-- Dimensionality of a sampled texture. -/
inductive TextureDim where
  /-- A plane image. -/
  | tex2d
  /-- A volume. -/
  | tex3d
  /-- Six faces of a cube. -/
  | cube
deriving DecidableEq, Inhabited

namespace TextureDim

/-- Name of the dimensionality in a manifest. -/
def label : TextureDim → String
  | tex2d => "tex2d"
  | tex3d => "tex3d"
  | cube => "cube"

/-- The dimensionality with the given name. -/
def ofLabel? (text : String) : Option TextureDim :=
  [tex2d, tex3d, cube].find? (·.label == text)

@[simp]
theorem ofLabel?_label (dim : TextureDim) : ofLabel? dim.label = some dim := by
  cases dim <;> rfl

/-- Type of a texture object where textures and samplers are separate objects. -/
def textureType : TextureDim → String
  | tex2d => "texture2D"
  | tex3d => "texture3D"
  | cube => "textureCube"

/-- Type of an object that joins a texture with its sampler. -/
def samplerType : TextureDim → String
  | tex2d => "sampler2D"
  | tex3d => "sampler3D"
  | cube => "samplerCube"

end TextureDim

/-- The type of a shader-side value. -/
inductive ValueType where
  /-- A scalar or vector. -/
  | vector (kind : ScalarKind) (width : Width)
  /-- A square matrix of floats. -/
  | matrix (columns : Columns)
  /-- A texture with its sampler. -/
  | sampler (dim : TextureDim)
deriving DecidableEq, Inhabited

namespace ValueType

/-- A single float. -/
@[match_pattern] abbrev float : ValueType := vector .float .one

/-- Two floats. -/
@[match_pattern] abbrev vec2 : ValueType := vector .float .two

/-- Three floats. -/
@[match_pattern] abbrev vec3 : ValueType := vector .float .three

/-- Four floats. -/
@[match_pattern] abbrev vec4 : ValueType := vector .float .four

/-- A single integer. -/
@[match_pattern] abbrev int : ValueType := vector .int .one

/-- Two integers. -/
@[match_pattern] abbrev ivec2 : ValueType := vector .int .two

/-- Three integers. -/
@[match_pattern] abbrev ivec3 : ValueType := vector .int .three

/-- Four integers. -/
@[match_pattern] abbrev ivec4 : ValueType := vector .int .four

/-- A matrix of two columns. -/
@[match_pattern] abbrev mat2 : ValueType := matrix .two

/-- A matrix of three columns. -/
@[match_pattern] abbrev mat3 : ValueType := matrix .three

/-- A matrix of four columns. -/
@[match_pattern] abbrev mat4 : ValueType := matrix .four

/-- Every value type. -/
def all : List ValueType :=
  [float, vec2, vec3, vec4, int, ivec2, ivec3, ivec4, mat2, mat3, mat4,
    sampler .tex2d, sampler .tex3d, sampler .cube]

theorem mem_all (ty : ValueType) : ty ∈ all := by
  rcases ty with ⟨_ | _, _ | _ | _ | _⟩ | ⟨_ | _ | _⟩ | ⟨_ | _ | _⟩ <;> decide

/-- Spelling of the type in shading-language source. -/
def glsl : ValueType → String
  | float => "float"
  | vec2 => "vec2"
  | vec3 => "vec3"
  | vec4 => "vec4"
  | int => "int"
  | ivec2 => "ivec2"
  | ivec3 => "ivec3"
  | ivec4 => "ivec4"
  | mat2 => "mat2"
  | mat3 => "mat3"
  | mat4 => "mat4"
  | sampler dim => dim.samplerType

/-- Name of the type in a manifest. -/
def label : ValueType → String
  | float => "Float"
  | vec2 => "Vec2F"
  | vec3 => "Vec3F"
  | vec4 => "Vec4F"
  | int => "Int"
  | ivec2 => "Vec2I"
  | ivec3 => "Vec3I"
  | ivec4 => "Vec4I"
  | mat2 => "Mat2F"
  | mat3 => "Mat3F"
  | mat4 => "Mat4F"
  | sampler .tex2d => "Sampler2d"
  | sampler .tex3d => "Sampler3d"
  | sampler .cube => "SamplerCube"

/-- The type with the given manifest name. -/
def ofLabel? (text : String) : Option ValueType :=
  all.find? fun ty => ty.label == text

/-- The scalar or vector type with `n` components of the given kind. -/
def vector? (kind : ScalarKind) (n : Nat) : Option ValueType :=
  (Width.ofNat? n).map (vector kind)

/-- Component count of a scalar or vector. -/
def components : ValueType → Option Nat
  | vector _ width => some width.toNat
  | _ => none

/-- Component kind of a scalar or vector. -/
def scalarKind : ValueType → Option ScalarKind
  | vector kind _ => some kind
  | _ => none

/-- Whether the components are integers. -/
def isInt (ty : ValueType) : Bool :=
  ty.scalarKind == some .int

/-- Column count of a matrix. -/
def matrixColumns : ValueType → Option Nat
  | matrix columns => some columns.toNat
  | _ => none

/-- Whether the type is a texture with its sampler. -/
def isSampler : ValueType → Bool
  | sampler _ => true
  | _ => false

/-- Input or interface locations that one value of the type takes: one for each matrix column, and
one for anything else. -/
def locationCount : ValueType → UInt32
  | matrix .two => 2
  | matrix .three => 3
  | matrix .four => 4
  | _ => 1

/-- Bytes of one tightly packed value. -/
def byteSize : ValueType → UInt32
  | vector _ .one => 4
  | vector _ .two => 8
  | vector _ .three => 12
  | vector _ .four => 16
  | matrix .two => 16
  | matrix .three => 36
  | matrix .four => 64
  | sampler _ => 0

end ValueType

end ShaderWeave
