import ShaderWeave.ValueType

/-!
# Vertex Attributes

A per-vertex input of the vertex stage: a name and a type. The predefined ones are those of a mesh.
-/

namespace ShaderWeave

/-- A per-vertex input. -/
structure Attribute where
  /-- Name in the source. -/
  name : String
  /-- Type of one vertex's value. -/
  ty : ValueType
deriving DecidableEq, Inhabited

namespace Attribute

/-- Vertex positions. -/
def positions : Attribute := ⟨"attrib_positions", .vec3⟩

/-- Vertex normals. -/
def normals : Attribute := ⟨"attrib_normals", .vec3⟩

/-- Tangents with the handedness in the fourth component. -/
def tangents : Attribute := ⟨"attrib_tangents", .vec4⟩

/-- Texture coordinates. -/
def textureCoords : Attribute := ⟨"attrib_texture_coords", .vec2⟩

/-- Vertex colors. -/
def colors : Attribute := ⟨"attrib_colors", .vec4⟩

/-- Joint indices of a skinned mesh. -/
def joints : Attribute := ⟨"attrib_joints", .ivec4⟩

/-- Joint weights of a skinned mesh. -/
def weights : Attribute := ⟨"attrib_weights", .vec4⟩

/-- Emitted color. -/
def emissiveColor : Attribute := ⟨"attrib_emissive_color", .vec3⟩

/-- Metalness and roughness. -/
def metalRough : Attribute := ⟨"attrib_metal_rough", .vec2⟩

end Attribute

end ShaderWeave
