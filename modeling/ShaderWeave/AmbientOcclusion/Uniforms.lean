import ShaderWeave.Handle
import ShaderWeave.Resource.Binding

/-!
# Uniforms of Ambient Occlusion

The uniform block of ambient occlusion, and the handles by which nodes read it. The inverse projection
is a member only where positions are reconstructed from depth.
-/

namespace ShaderWeave

/-- The uniforms of ambient occlusion as other nodes read them: they belong to the node that registers
the block. -/
structure OcclusionUniforms where
  /-- The node that registers the block. -/
  node : NodeId
  /-- Whether the block holds the inverse projection. -/
  inverse : Bool
deriving DecidableEq, Inhabited

namespace OcclusionUniforms

/-- The samples. -/
def kernelVar : Variable := { name := "uKernel", ty := .vec3, arrayLen := some 64 }

/-- View to clip space. -/
def projVar : Variable := { name := "uProj", ty := .mat4 }

/-- Clip to view space. -/
def invProjVar : Variable := { name := "uInvProj", ty := .mat4 }

/-- How often the noise texture is repeated over the viewport. -/
def noiseScaleVar : Variable := { name := "uNoiseScale", ty := .vec2 }

/-- Radius of the samples. -/
def radiusVar : Variable := { name := "uRadius", ty := .float }

/-- Factor of the occlusion. -/
def strengthVar : Variable := { name := "uStrength", ty := .float }

/-- Exponent of the result. -/
def powerVar : Variable := { name := "uPower", ty := .float }

/-- Depth by which a sample has to be behind. -/
def biasVar : Variable := { name := "uBias", ty := .float }

/-- The range of samples that are evaluated. -/
def kernelRangeVar : Variable := { name := "uKernelRange", ty := .ivec2 }

/-- The members of the block. -/
def members (inverse : Bool) : List Variable :=
  kernelVar :: projVar :: (if inverse then [invProjVar] else [])
    ++ [noiseScaleVar, radiusVar, strengthVar, powerVar, biasVar, kernelRangeVar]

/-- The kernel samples that the block holds. -/
def samples : List Vec3 := AmbientOcclusion.generateKernel AmbientOcclusion.kernelSize

/-- Write kernel samples, from entry `start` on. -/
def writeSamples : (start : UInt32) → List Vec3 → Updating Unit
  | _, [] => .done ()
  | start, sample :: rest => do
    Updating.write { member := kernelVar.name, value := .vec3 sample, index := some start }
    writeSamples (start + 1) rest

/-- Refreshes the block; `settings` is the number of the settings in the parameter store. -/
def update (inverse : Bool) (settings : Nat) : UpdateRoutine := fun draw parameters => do
  let tuned := parameters.settings settings
  let noise := Binary32.ofUInt32 4
  writeSamples 0 samples
  Updating.write { member := projVar.name, value := .mat4 draw.camera.proj }
  if inverse then
    Updating.write { member := invProjVar.name, value := .mat4 draw.camera.invProj }
  Updating.write
    { member := noiseScaleVar.name
      value := .vec2 ⟨.ofUInt32 draw.width / noise, .ofUInt32 draw.height / noise⟩ }
  Updating.write { member := radiusVar.name, value := .float tuned.radius }
  Updating.write { member := strengthVar.name, value := .float tuned.strength }
  Updating.write { member := powerVar.name, value := .float tuned.power }
  Updating.write { member := biasVar.name, value := .float tuned.bias }
  Updating.write { member := kernelRangeVar.name, value := .ivec2 tuned.rangeFrom tuned.rangeTo }

/-- The block of the uniforms. -/
def block (inverse : Bool) (settings : Nat) : BlockRequest where
  name := "AoUniforms"
  members := members inverse
  update := some (update inverse settings)

/-- The handle of a uniform of the block. -/
def handle (uniforms : OcclusionUniforms) (var : Variable) : Handle := .uniform uniforms.node var

/-- The handle of the inverse projection, if the block holds it. -/
def invProj? (uniforms : OcclusionUniforms) : Option Handle :=
  if uniforms.inverse then some (uniforms.handle invProjVar) else none

/-- All handles, by name. -/
def outputs (uniforms : OcclusionUniforms) : List (String × Handle) :=
  [("kernel", uniforms.handle kernelVar), ("proj", uniforms.handle projVar),
    ("noise_scale", uniforms.handle noiseScaleVar), ("radius", uniforms.handle radiusVar),
    ("strength", uniforms.handle strengthVar), ("power", uniforms.handle powerVar),
    ("bias", uniforms.handle biasVar), ("kernel_range", uniforms.handle kernelRangeVar)]
    ++ (uniforms.invProj?.map fun h => ("inv_proj", h)).toList

end OcclusionUniforms

end ShaderWeave
