/-!
# Sockets

The inputs of nodes that can be wired after a node is made.
-/

namespace ShaderWeave

/-- An input of a node. -/
inductive Socket where
  /-- The only input, or the main one. -/
  | input
  /-- Texture coordinates. -/
  | texCoord
  /-- First three components. -/
  | xyz
  /-- Fourth component. -/
  | w
  /-- Left operand. -/
  | left
  /-- Right operand. -/
  | right
  /-- Exponent of a gamma curve. -/
  | gamma
  /-- Matrix of a transform. -/
  | matrix
  /-- Texture to sample. -/
  | texture
  /-- Position of a vertex. -/
  | position
  /-- Model to world space. -/
  | modelMatrix
  /-- Depth textures of the lights. -/
  | depthTextures
  /-- Number of lights. -/
  | lightCount
  /-- Position of a fragment. -/
  | fragPos
  /-- Normal of the surface. -/
  | normal
  /-- Color of the surface. -/
  | albedo
  /-- Depth of a fragment. -/
  | depth
  /-- Position on the screen. -/
  | screenPos
  /-- Texture of random rotations. -/
  | noiseTex
  /-- Texture of depths. -/
  | depthTex
  /-- Position in view space. -/
  | origin
  /-- Input of a scripted node, by its position. -/
  | numbered (index : Nat)
deriving DecidableEq

/-- The socket with the given name; a scripted node's inputs are named by their positions. -/
def Socket.ofName? (name : String) : Option Socket :=
  match name with
  | "input" => some input
  | "tex_coord" => some texCoord
  | "xyz" => some xyz
  | "w" => some w
  | "left" => some left
  | "right" => some right
  | "gamma" => some gamma
  | "matrix" => some matrix
  | "texture" => some texture
  | "position" => some position
  | "model_matrix" => some modelMatrix
  | "depth_textures" => some depthTextures
  | "light_count" => some lightCount
  | "frag_pos" => some fragPos
  | "normal" => some normal
  | "albedo" => some albedo
  | "depth" => some depth
  | "screen_pos" => some screenPos
  | "noise_tex" => some noiseTex
  | "depth_tex" => some depthTex
  | "origin" => some origin
  | other => other.toNat?.map numbered

end ShaderWeave
