import ShaderWeave.Lighting.Array

/-!
# Shadows

For each light the position of a vertex is projected into the light's clip space. In the fragment
stage the depths that the light sees around that position are compared with its own depth, which gives
the shadow factor of the light.
-/

namespace ShaderWeave

namespace Shadow

/-- Clip-space positions of the vertex for each light. -/
def interfaceVar (max : UInt32) : Variable :=
  { name := "ifPosLightSpace", ty := .vec4, arrayLen := some max }

/-- World to clip space of each light. -/
def lightMatrices (max : UInt32) : Variable :=
  { name := "lightMvp", ty := .mat4, arrayLen := some max }

/-- Refreshes the matrices of the lights. -/
def update (max : UInt32) : UpdateRoutine := fun draw _ =>
  LightArray.writeEach "lightMvp" (fun light => .mat4 light.clipFromWorld) 0
    (draw.lights.take max.toNat)

/-- The block of the matrices of the lights. -/
def block (max : UInt32) : BlockRequest where
  name := "ShadowLightSpace"
  members := [lightMatrices max]
  update := some (update max)

/-- The statements that project the position for `count` lights, from light `start` on. -/
def projectEach (target : String) (matrix position : Piece) : (count start : Nat) → Emit Unit
  | 0, _ => .done ()
  | count + 1, start => do
    let place := "[" ++ toString start ++ "]"
    Emit.append
      [target, place, " = lightMvp", place, " * (", matrix, " * ", position, ");"]
    projectEach target matrix position count (start + 1)

/-- Offsets at which the depth texture is sampled, spread over a disc. -/
def offsets : List Vec2 := [
  ⟨⟨0xbf7126e9⟩, ⟨0xbecc49ba⟩⟩, ⟨⟨0x3f7212d7⟩, ⟨0xbf44d6a1⟩⟩, ⟨⟨0xbdc0ebee⟩, ⟨0xbf6ded29⟩⟩,
  ⟨⟨0x3eb0a3d7⟩, ⟨0x3e967a10⟩⟩, ⟨⟨0xbf6a786c⟩, ⟨0x3eea57a8⟩⟩, ⟨⟨0xbf50be0e⟩, ⟨0xbf610cb3⟩⟩,
  ⟨⟨0xbec3fe5d⟩, ⟨0x3e8db8bb⟩⟩, ⟨⟨0x3f798c7e⟩, ⟨0x3f41a9fc⟩⟩, ⟨⟨0x3ee2eb1c⟩, ⟨0xbf79a027⟩⟩]

/-- The number of offsets as it is written. -/
def offsetCount : String :=
  (Binary32.ofUInt32 (.ofNat offsets.length)).literal

/-- The statements that declare the shadow factors. -/
def declareFactors (max : UInt32) (textures : Handle) : Emit Unit := do
  let size ← Emit.textureSize textures.name (some 0) "0"
  Emit.append (Code.block 12 [
    ["float shadowFacs[", toString max, "];"],
    .text "ivec2 shadowMapSize = " :: size ++ [.text ";"],
    ["float shadowDx = 1.5 / float(shadowMapSize.x);"],
    ["float shadowDy = 1.5 / float(shadowMapSize.y);"],
    ["vec4 shadowProjPos;"],
    ["vec3 shadowCoord;"]])

/-- The statements that add up whether the light is seen at each of the offsets. -/
def accumulate (textures : Handle) (light : Nat) : List Vec2 → Emit Unit
  | [] => .done ()
  | offset :: rest => do
    let depth ← Emit.sample textures.name (some light.toUInt32)
      ["shadowCoord.xy + vec2(shadowDx * ", offset.x.literal, ", shadowDy * ", offset.y.literal, ")"]
    Emit.append
      (.text ("shadowFacs[" ++ toString light ++ "] += step(shadowCoord.z - 0.001, ")
        :: depth ++ [.text ".x);"])
    accumulate textures light rest

/-- The statements that compute the shadow factor of one light. -/
def factor (textures : Handle) (light : Nat) : Emit Unit := do
  let place := "[" ++ toString light ++ "]"
  Emit.append (Code.block 16 [
    ["shadowProjPos = ifPosLightSpace", place, ";"],
    ["shadowCoord = shadowProjPos.xyz / shadowProjPos.w;"],
    ["shadowFacs", place, " = 0.0;"]])
  accumulate textures light offsets
  Emit.append ["shadowFacs", place, " /= ", offsetCount, ";"]

/-- The statements that compute the shadow factors of `count` lights, from light `start` on. -/
def factorEach (textures : Handle) : (count start : Nat) → Emit Unit
  | 0, _ => .done ()
  | count + 1, start => do
    factor textures start
    factorEach textures count (start + 1)

end Shadow

end ShaderWeave
