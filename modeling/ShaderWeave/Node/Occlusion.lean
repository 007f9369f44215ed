import ShaderWeave.AmbientOcclusion.Uniforms
import ShaderWeave.Node
import ShaderWeave.Node.Socket

/-!
# Ambient Occlusion Nodes

Registering the uniforms of ambient occlusion, reconstructing view-space positions from depth, and
evaluating the kernel of samples around a position.
-/

namespace ShaderWeave

/-- A node of ambient occlusion with its inputs. -/
inductive OcclusionNode where
  /-- Registers the uniforms; `settings` is the number of the settings in the parameter store. -/
  | uniforms (inverse : Bool) (settings : Nat)
  /-- Reconstructs a view-space position from the position on the screen and the depth. -/
  | unproject (uniforms : OcclusionUniforms) (depth screenPos : Handle)
  /-- Evaluates the kernel around a view-space position. `component` is the channel of the depth
  texture that holds the depth. -/
  | occlusion (uniforms : OcclusionUniforms) (component : String)
      (noiseTex depthTex screenPos origin normal : Handle)
deriving DecidableEq

namespace OcclusionNode

/-- A reconstruction that nothing is wired to. -/
def newUnproject (uniforms : OcclusionUniforms) : OcclusionNode :=
  unproject uniforms { value := .ofFloat .one } { value := .ofVec2 .zero .zero }

/-- An evaluation of the kernel whose position and normal nothing is wired to. -/
def newOcclusion (uniforms : OcclusionUniforms) (noiseTex depthTex : Handle) (component : String) :
    OcclusionNode :=
  occlusion uniforms component noiseTex depthTex
    { value := .ofVec2 .zero .zero }
    { value := .ofVec3 .zero .zero .zero }
    { value := .ofVec3 .zero .one .zero }

/-- Name of the node. -/
def name : OcclusionNode → String
  | uniforms .. => "aoUniforms"
  | unproject .. => "unprojectPos"
  | occlusion .. => "aoNode"

/-- Stages that the node may stand in. -/
def allowed : OcclusionNode → StageMask
  | uniforms .. => .all
  | unproject .. => .fragment
  | occlusion .. => .fragment

/-- The inputs that the node reports. -/
def inputs : OcclusionNode → List Handle
  | uniforms .. => []
  | unproject u depth screenPos => [u.handle OcclusionUniforms.projVar, depth, screenPos]
  | occlusion u _ noiseTex depthTex screenPos origin normal =>
    [u.handle OcclusionUniforms.kernelVar, noiseTex, depthTex, screenPos, origin, normal]

/-- The position that is reconstructed. -/
def position (id : NodeId) : Handle := .computed id "unproject" "position" .vec3

/-- The occlusion that is computed. -/
def color (id : NodeId) : Handle := .computed id "ao" "color" .vec4

/-- The outputs of the node, by name. -/
def outputs (id : NodeId) : OcclusionNode → List (String × Handle)
  | uniforms inverse _ => OcclusionUniforms.outputs { node := id, inverse }
  | unproject .. => [("output", position id)]
  | occlusion .. => [("output", color id)]

/-- What is said where the inverse projection is missing. -/
def missingInverse : GraphError := .unconnectedInput "uInvProj"

/-- What the node registers. -/
def setup : OcclusionNode → Setup Unit
  | uniforms inverse settings => .addBlock (OcclusionUniforms.block inverse settings)
  | unproject u _ _ => if u.inverse then .done () else .fail missingInverse
  | occlusion .. => .done ()

/-- The code of the reconstruction. -/
def emitUnproject (id : NodeId) (u : OcclusionUniforms) (depth screenPos : Handle) : Emit Unit := do
  let out := Piece.mention (position id)
  let screen ← Emit.read screenPos .vec2
  match u.invProj? with
  | none => .fail (.refused missingInverse)
  | some invProj =>
    let declaration ← Emit.declare (position id)
    let depth ← Emit.read depth .float
    Emit.append (Code.block 12 [
      ["vec4 ", out, "_proj = vec4(", screen, " * 2.0 - vec2(1.0), 1.0, 1.0);"],
      ["vec4 ", out, "_view = ", .mention invProj, " * ", out, "_proj;"],
      [declaration, " = ", out, "_view.xyz / ", out, "_view.w;"],
      [out, " *= (", depth, " / ", out, ".z);"]])

/-- The code of the evaluation. -/
def emitOcclusion (id : NodeId) (u : OcclusionUniforms) (component : String)
    (noiseTex depthTex screenPos originInput normalInput : Handle) : Emit Unit := do
  let out := Piece.mention (color id)
  let origin ← Emit.read originInput .vec3
  let normal ← Emit.read normalInput .vec3
  let declaration ← Emit.declare (color id)
  let screen ← Emit.read screenPos .vec2
  let range := Piece.mention (u.handle OcclusionUniforms.kernelRangeVar)
  let radius := Piece.mention (u.handle OcclusionUniforms.radiusVar)
  let noiseScale := Piece.mention (u.handle OcclusionUniforms.noiseScaleVar)
  let bias := Piece.mention (u.handle OcclusionUniforms.biasVar)
  let kernel := Piece.mention (u.handle OcclusionUniforms.kernelVar)
  let proj := Piece.mention (u.handle OcclusionUniforms.projVar)
  let strength := Piece.mention (u.handle OcclusionUniforms.strengthVar)
  let power := Piece.mention (u.handle OcclusionUniforms.powerVar)
  let noise ← Emit.sample noiseTex.name none [out, "_noiseCoord"]
  let depth ← Emit.sample depthTex.name none [.text "sampleProj.xy"]
  let before : List Code := [
    [declaration, " = vec4(1.0, 0.0, 0.0, 1.0);"],
    ["float ", out, "_linDist = -", origin, ".z;"],
    ["if (", out, "_linDist > 0.0) \x7b"],
    ["    float occlFac = 1.0;"],
    ["    float sampleR = ", radius, ";"],
    ["    if (sampleR < 0.0) \x7b"],
    ["        sampleR *= -", out, "_linDist;"],
    ["    \x7d"],
    ["    if (", out, "_linDist < sampleR * 200.0) \x7b"],
    ["        vec2 ", out, "_noiseCoord = ", screen, " * ", noiseScale, ";"],
    .text "        vec3 rotVec = " :: noise ++ [.text ".xyz * 2.0 - 1.0;"],
    ["        vec3 tangent = normalize(rotVec - ", normal, " * dot(rotVec, ", normal, "));"],
    ["        vec3 bitangent = cross(", normal, ", tangent);"],
    ["        mat3 tbn = mat3(tangent, bitangent, ", normal, ");"],
    [],
    ["        float occlusion = 0.0;"],
    ["        float bias = ", bias, " * sampleR;"]]
  let loop : List Code := [
    ["        for (int i = ", range, ".x; i < ", range, ".y; i++) \x7b"],
    ["            vec3 kernel = tbn * ", kernel, "[i];"],
    ["            vec3 samplePos = ", origin, " + kernel * sampleR;"],
    [],
    ["            vec4 sampleProj = ", proj, " * vec4(samplePos, 1.0);"],
    ["            sampleProj.xyz /= sampleProj.w;"],
    ["            sampleProj.xy = sampleProj.xy * 0.5 + 0.5;"],
    [],
    ["            if (sampleProj.x > 0.0 && sampleProj.x < 1.0 && sampleProj.y > 0.0",
      " && sampleProj.y < 1.0 && sampleProj.z > 0.0) \x7b"],
    .text "                float sampleDepth = " :: depth ++ [.text ".", .text component, .text ";"],
    ["                float rangeCheck = 1.0 - smoothstep(0.0, 1.0, abs(", origin,
      ".z - sampleDepth) / (4.0 * sampleR));"],
    ["                float occlusionInc = clamp((sampleDepth - (samplePos.z + bias)) * 10.0,",
      " 0.0, 1.0);"],
    ["                occlusion += occlusionInc * rangeCheck;"],
    ["            \x7d"],
    ["        \x7d"]]
  let after : List Code := [
    ["        occlusion /= float(max(", range, ".y - ", range, ".x, 1));"],
    ["        float distFac = 1.0 - smoothstep(sampleR * 150.0, sampleR * 200.0, ", out,
      "_linDist);"],
    ["        occlFac = pow(clamp(1.0 - occlusion * distFac * ", strength, ", 0.0, 1.0), ", power,
      ");"],
    ["    \x7d"],
    ["    ", out, " = vec4(occlFac, 0.0, 0.0, 0.0);"],
    ["\x7d"]]
  Emit.append (Code.block 12 (before ++ loop ++ after))

/-- The code that the node writes. -/
def emit (id : NodeId) : OcclusionNode → Emit Unit
  | uniforms .. => .done ()
  | unproject u depth screenPos => emitUnproject id u depth screenPos
  | occlusion u component noiseTex depthTex screenPos origin normal =>
    emitOcclusion id u component noiseTex depthTex screenPos origin normal

/-- The node with an input wired; `none` if it has no such input. -/
def wire (socket : Socket) (h : Handle) (node : OcclusionNode) : Option OcclusionNode :=
  match socket, node with
  | .depth, unproject u _ screenPos => some (unproject u h screenPos)
  | .screenPos, unproject u depth _ => some (unproject u depth h)
  | .noiseTex, occlusion u component _ depthTex screenPos origin normal =>
    some (occlusion u component h depthTex screenPos origin normal)
  | .depthTex, occlusion u component noiseTex _ screenPos origin normal =>
    some (occlusion u component noiseTex h screenPos origin normal)
  | .screenPos, occlusion u component noiseTex depthTex _ origin normal =>
    some (occlusion u component noiseTex depthTex h origin normal)
  | .origin, occlusion u component noiseTex depthTex screenPos _ normal =>
    some (occlusion u component noiseTex depthTex screenPos h normal)
  | .normal, occlusion u component noiseTex depthTex screenPos origin _ =>
    some (occlusion u component noiseTex depthTex screenPos origin h)
  | _, _ => none

end OcclusionNode

end ShaderWeave
