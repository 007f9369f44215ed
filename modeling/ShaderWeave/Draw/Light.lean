import ShaderWeave.Geometry.Matrix

/-!
# Lights

A light of a draw: its kind, where it stands and shines, its color and the matrix that takes the world
into its clip space.
-/

namespace ShaderWeave

/-- Kind of a light. -/
inductive LightKind where
  /-- Parallel light. -/
  | directional
  /-- Light in all directions from a point. -/
  | point
  /-- A cone of light. -/
  | spot
deriving DecidableEq, Inhabited

namespace LightKind

/-- The number that stands for the kind in the fourth component of a light position. -/
def encoded : LightKind → Binary32
  | directional => .zero
  | point => .one
  | spot => ⟨0x40000000⟩

/-- Name of the kind. -/
def label : LightKind → String
  | directional => "directional"
  | point => "point"
  | spot => "spot"

/-- The kind with the given name. -/
def ofLabel? (text : String) : Option LightKind :=
  [directional, point, spot].find? (·.label == text)

@[simp]
theorem ofLabel?_label (kind : LightKind) : ofLabel? kind.label = some kind := by
  cases kind <;> rfl

end LightKind

/-- A light of a draw. -/
structure Light where
  /-- Kind of the light. -/
  kind : LightKind
  /-- Where the light stands. -/
  position : Vec3
  /-- Where the light shines. -/
  direction : Vec3
  /-- Color, with the intensity in the fourth component. -/
  color : Vec4
  /-- Angle of the cone in degrees, for spot lights. -/
  spotAngle : Binary32
  /-- World to clip space of the light. -/
  clipFromWorld : Mat4
deriving DecidableEq, Inhabited

namespace Light

/-- Parallel light. -/
def directional (direction : Vec3) (color : Vec4) : Light where
  kind := .directional
  position := .zero
  direction := direction.normalizeOr .zero
  color := color
  spotAngle := .zero
  clipFromWorld := .identity

/-- Light from a point; its direction is downwards. -/
def point (position : Vec3) (color : Vec4) : Light where
  kind := .point
  position := position
  direction := .down
  color := color
  spotAngle := .zero
  clipFromWorld := .identity

/-- A cone of light. -/
def spot (position direction : Vec3) (angle : Binary32) (color : Vec4) : Light where
  kind := .spot
  position := position
  direction := direction.normalizeOr .zero
  color := color
  spotAngle := angle
  clipFromWorld := .identity

/-- Cosine of half the angle of the cone. -/
def cosHalfAngle (light : Light) : Binary32 :=
  (light.spotAngle / ⟨0x40000000⟩).toRadians.cos

end Light

end ShaderWeave
