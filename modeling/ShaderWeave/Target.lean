/-!
# Targets

The dialects of the shading language that sources are written in, and how each names a texture where
one is sampled.
-/

namespace ShaderWeave

/-- A dialect of the shading language. -/
inductive Target where
  /-- Version 4.50 with explicit bindings and push constants. Textures and samplers are separate
  objects, and an array of textures is split into single ones with one sampler for all. -/
  | vulkan
  /-- Version 4.10 of the desktop dialect. -/
  | opengl
  /-- Version 3.00 of the embedded dialect. Interface variables are matched by name. -/
  | webgl2
deriving DecidableEq, Inhabited

namespace Target

/-- Name of the target. -/
def label : Target → String
  | vulkan => "vulkan"
  | opengl => "opengl"
  | webgl2 => "webgl2"

/-- The text with its ASCII letters in lower case. -/
def lowered (text : String) : String :=
  text.map Char.toLower

/-- The target with the given name or short name, up to the case of ASCII letters. -/
def ofName? (text : String) : Option Target :=
  let name := lowered text
  if name = "vulkan" ∨ name = "vk" then some vulkan
  else if name = "opengl" ∨ name = "gl" then some opengl
  else if name = "webgl2" ∨ name = "webgl" then some webgl2
  else none

/-- What is said of a text that names no target. -/
def unknownName (text : String) : String :=
  "unknown backend `" ++ lowered text ++ "` (expected vulkan, opengl or webgl2)"

/-- Name of the sampler object that belongs to a separate texture. -/
def samplerObjectName (texture : String) : String :=
  texture ++ "Sampler"

/-- Name of one element of a texture array that is split into single textures. -/
def textureElementName (texture : String) (index : UInt32) : String :=
  texture ++ "_" ++ toString index

/-- How a texture, or an element of a texture array, is named where it is sampled. -/
def textureOperand (target : Target) (texture : String) (index : Option UInt32) : String :=
  match target, index with
  | vulkan, none => "sampler2D(" ++ texture ++ ", " ++ samplerObjectName texture ++ ")"
  | vulkan, some i =>
    "sampler2D(" ++ textureElementName texture i ++ ", " ++ samplerObjectName texture ++ ")"
  | _, none => texture
  | _, some i => texture ++ "[" ++ toString i ++ "]"

end Target

end ShaderWeave
