import ShaderWeave.Node
import ShaderWeave.Node.Socket

/-!
# Texture Nodes

Plane textures, single or in arrays, and sampling them.
-/

namespace ShaderWeave

/-- A texture node with its inputs. -/
inductive TextureNode where
  /-- Declares a texture, or an array of them. -/
  | binding (name : String) (arrayLen : Option UInt32)
  /-- Samples a texture; `premultiply` multiplies the color by its alpha. -/
  | sample (premultiply : Bool) (texture texCoord : Handle)
deriving DecidableEq

namespace TextureNode

/-- A sample of a texture at a coordinate that nothing is wired to. -/
def newSample (texture : Handle) (premultiply : Bool) : TextureNode :=
  sample premultiply texture { value := .ofVec2 .zero .zero }

/-- Name of the node. -/
def name : TextureNode → String
  | binding .. => "texture2d"
  | sample .. => "texture2dSampler"

/-- The inputs that the node reports. -/
def inputs : TextureNode → List Handle
  | binding .. => []
  | sample _ texture texCoord => [texture, texCoord]

/-- The output of the node. -/
def output (id : NodeId) : TextureNode → Handle
  | binding name arrayLen => .uniform id { name, ty := .sampler .tex2d, arrayLen }
  | sample .. => .computed id "sampleTex" "color" .vec4

/-- What the node registers. -/
def setup : TextureNode → Setup Unit
  | binding name arrayLen => .addSampler name .tex2d arrayLen
  | sample .. => .done ()

/-- The routine that multiplies a color by its alpha. -/
def premultiplyAlpha : String :=
  "vec4 premultiplyAlpha(vec4 color) \x7b\n"
    ++ "    return vec4(color.rgb * color.a, color.a);\n"
    ++ "\x7d"

/-- The code that the node writes. -/
def emit (id : NodeId) : TextureNode → Emit Unit
  | binding .. => .done ()
  | sample premultiply texture texCoord => do
    let coordinate ← Emit.read texCoord .vec2
    let color ← Emit.sample texture.name none [coordinate]
    if premultiply then
      Emit.helper "premultiplyAlpha" premultiplyAlpha
      let declaration ← Emit.declare (.computed id "sampleTex" "color" .vec4)
      Emit.append (declaration :: " = premultiplyAlpha(" :: color ++ [.text ");"])
    else
      let declaration ← Emit.declare (.computed id "sampleTex" "color" .vec4)
      Emit.append (declaration :: " = " :: color ++ [.text ";"])

/-- The node with an input wired; `none` if it has no such input. -/
def wire (socket : Socket) (h : Handle) (node : TextureNode) : Option TextureNode :=
  match socket, node with
  | .texture, sample premultiply _ texCoord => some (sample premultiply h texCoord)
  | .texCoord, sample premultiply texture _ => some (sample premultiply texture h)
  | _, _ => none

end TextureNode

end ShaderWeave
