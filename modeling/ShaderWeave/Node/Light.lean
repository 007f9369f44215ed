import ShaderWeave.Lighting.Shadow
import ShaderWeave.Node
import ShaderWeave.Node.Socket

/-!
# Light Nodes

Arrays of lights with and without shadows, and diffuse lighting. Lights with shadows have two halves:
the one in the vertex stage hands the projected positions over in one array, and the one in the
fragment stage turns the array into shadow factors.
-/

namespace ShaderWeave

/-- A light node with its inputs. -/
inductive LightNode where
  /-- An array of lights without shadows. -/
  | lights (max : UInt32)
  /-- The half of lights with shadows in the vertex stage. -/
  | shadowVertex (max : UInt32) (channel : Channel) (position : Handle) (matrix : Option Handle)
  /-- The half of lights with shadows in the fragment stage. -/
  | shadowFragment (max : UInt32) (channel : Channel) (depthTextures : Handle)
  /-- Diffuse lighting by all active lights. `inner` is the part of a spot cone that is lit at full
  strength. -/
  | lambert (calls : LightCalls) (inner : Binary32) (lightCount fragPos normal albedo : Handle)
deriving DecidableEq

namespace LightNode

/-- The vertex half of lights with shadows, nothing wired to it. -/
def newShadowVertex (max : UInt32) (channel : Channel) : LightNode :=
  shadowVertex max channel { value := .ofVec3 .zero .zero .zero } none

/-- The part of a spot cone that is lit at full strength, if nothing else is said. -/
def defaultInner : Binary32 := ⟨0x3f4ccccd⟩

/-- Diffuse lighting of a white surface that faces the viewer. -/
def newLambert (calls : LightCalls) (lightCount : Handle) (inner : Binary32) : LightNode :=
  lambert calls inner lightCount
    { value := .ofVec3 .zero .zero .zero }
    { value := .ofVec3 .zero .zero .one }
    { value := .ofVec4 .one .one .one .one }

/-- Name of the node. -/
def name : LightNode → String
  | lights _ => "multiLight"
  | shadowVertex .. => "shadowedLightVertex"
  | shadowFragment .. => "shadowedLightFragment"
  | lambert .. => "lambert"

/-- Stages that the node may stand in. -/
def allowed : LightNode → StageMask
  | lights _ => .all
  | shadowVertex .. => .vertex
  | shadowFragment .. => .fragment
  | lambert .. => .fragment

/-- The inputs that the node reports. -/
def inputs : LightNode → List Handle
  | lights _ => []
  | shadowVertex _ _ position matrix => position :: matrix.toList
  | shadowFragment _ _ depthTextures => [depthTextures]
  | lambert _ _ lightCount fragPos normal albedo => [lightCount, fragPos, normal, albedo]

/-- The color that diffuse lighting computes. -/
def lambertColor (id : NodeId) : Handle := .computed id "lambert" "color" .vec4

/-- The outputs of the node, by name. -/
def outputs (id : NodeId) : LightNode → List (String × Handle)
  | lights _ => [("light_count", .uniform id LightArray.count)]
  | shadowVertex .. => []
  | shadowFragment _ _ depthTextures =>
    [("light_count", .uniform id LightArray.count), ("depth_textures", depthTextures)]
  | lambert .. => [("output", lambertColor id)]

/-- What the node registers. -/
def setup : LightNode → Setup Unit
  | lights max => .addBlock (LightArray.block max)
  | shadowVertex _ _ _ none => .fail (.unconnectedInput "model_matrix")
  | shadowVertex max channel _ (some _) => do
    Setup.allocateChannel channel
    Setup.addBlock (Shadow.block max)
  | shadowFragment max channel _ => do
    Setup.addBlock (LightArray.block max)
    Setup.registerChannelInput channel (Shadow.interfaceVar max)
  | lambert .. => .done ()

/-- The code that diffuse lighting writes. -/
def emitLambert (id : NodeId) (calls : LightCalls) (inner : Binary32)
    (lightCount fragPos normal albedo : Handle) : Emit Unit := do
  let out := Piece.mention (lambertColor id)
  let diffuse : Code := [out, "_diffuse"]
  let toLight : Code := [out, "_toLight"]
  let normal ← Emit.read normal .vec3
  let albedo ← Emit.read albedo .vec4
  let count ← Emit.read lightCount .int
  let position ← Emit.read fragPos .vec3
  let declaration ← Emit.declare (lambertColor id)
  let radiance := calls.radiance [.text "i"] toLight [.text inner.literal]
  Emit.append (Code.block 12 [
    .text "vec3 " :: diffuse ++ [.text " = vec3(0.0);"],
    ["for (int i = 0; i < ", count, "; i++) \x7b"],
    .text "    vec3 " :: toLight ++ .text " = "
      :: LightCalls.fragToLight [.text "i"] [position] ++ [.text ";"],
    .text "    vec3 radiance = " :: radiance ++ [.text ";"],
    .text "    " :: diffuse ++ .text " += radiance * max(dot(" :: normal :: .text ", normalize("
      :: toLight ++ [.text ")), 0.0);"],
    ["\x7d"],
    declaration :: .text " = vec4(" :: albedo :: .text ".rgb * " :: diffuse
      ++ [.text ", ", albedo, .text ".a);"]])

/-- The code that the node writes. -/
def emit (id : NodeId) : LightNode → Emit Unit
  | lights _ => LightArray.addRoutines
  | shadowVertex _ _ _ none => .fail (.refused (.unconnectedInput "model_matrix"))
  | shadowVertex max channel position (some matrix) => do
    let matrix ← Emit.read matrix .mat4
    let position ← Emit.read position .vec4
    Shadow.projectEach channel.var.name matrix position max.toNat 0
  | shadowFragment max _ depthTextures => do
    LightArray.addRoutines
    Shadow.declareFactors max depthTextures
    Shadow.factorEach depthTextures max.toNat 0
  | lambert calls inner lightCount fragPos normal albedo =>
    emitLambert id calls inner lightCount fragPos normal albedo

/-- The node with an input wired; `none` if it has no such input. The light count of the fragment half
is computed from its own block, so wiring it changes nothing. -/
def wire (socket : Socket) (h : Handle) (node : LightNode) : Option LightNode :=
  match socket, node with
  | .position, shadowVertex max channel _ matrix => some (shadowVertex max channel h matrix)
  | .modelMatrix, shadowVertex max channel position _ =>
    some (shadowVertex max channel position (some h))
  | .depthTextures, shadowFragment max channel _ => some (shadowFragment max channel h)
  | .lightCount, shadowFragment .. => some node
  | .lightCount, lambert calls inner _ fragPos normal albedo =>
    some (lambert calls inner h fragPos normal albedo)
  | .fragPos, lambert calls inner lightCount _ normal albedo =>
    some (lambert calls inner lightCount h normal albedo)
  | .normal, lambert calls inner lightCount fragPos _ albedo =>
    some (lambert calls inner lightCount fragPos h albedo)
  | .albedo, lambert calls inner lightCount fragPos normal _ =>
    some (lambert calls inner lightCount fragPos normal h)
  | _, _ => none

end LightNode

end ShaderWeave
