import ShaderWeave.Design

/-!
# Ambient Occlusion

A pass over the whole screen that computes ambient occlusion, either from a texture of normals and
depths or from textures of positions and normals.
-/

namespace ShaderWeave.Designing

/-- What the evaluation of the kernel reads. -/
structure OcclusionInputs where
  /-- The texture of depths. -/
  depthTex : Handle
  /-- Its channel that holds the depth. -/
  component : String
  /-- The position in view space. -/
  origin : Handle
  /-- The normal in view space. -/
  normal : Handle

/-- Add a texture to the fragment stage. -/
def addTexture (name : String) : Designing Handle :=
  addForOutput .fragment (.texture (.binding name none))

/-- Add a sample of a texture to the fragment stage. -/
def addSample (texture coordinate : Handle) : Designing Handle :=
  addForOutput .fragment (.texture (.sample false texture coordinate))

/-- Add a selection of components to the fragment stage. -/
def addSplit (input : Handle) (channels : String) : Designing Handle :=
  addForOutput .fragment (.arithmetic (.newSplit input channels))

/-- The inputs from one texture of normals and depths; positions are reconstructed. -/
def forwardInputs (uniforms : OcclusionUniforms) (screenPos : Handle) :
    Designing OcclusionInputs := do
  let normalDepth ← addTexture "normalDepthTex"
  let sample ← addSample normalDepth screenPos
  let normal ← addSplit sample "xyz"
  let depth ← addSplit sample "a"
  let origin ← addForOutput .fragment (.occlusion (.unproject uniforms depth screenPos))
  return { depthTex := normalDepth, component := "a", origin, normal }

/-- The inputs from textures of positions and normals. -/
def deferredInputs (screenPos : Handle) : Designing OcclusionInputs := do
  let positions ← addTexture "positionTex"
  let normals ← addTexture "normalTex"
  let positionSample ← addSample positions screenPos
  let normalSample ← addSample normals screenPos
  let origin ← addSplit positionSample "xyz"
  let normal ← addSplit normalSample "xyz"
  return { depthTex := positions, component := "z", origin, normal }

/-- The design of ambient occlusion; `settings` is the number of the settings in the parameter
store. -/
def ambientOcclusion (setup : AmbientOcclusion.Setup) (settings : Nat) : Designing Unit := do
  let texCoords ← addForOutput .vertex (.endpoint (.meshAttribute .textureCoords))
  let quad ← addForOutput .vertex (.arithmetic (.screenQuad texCoords))
  let _ ← addLibrary .vertex (.endpoint (.positionOutput quad))
  let screenPos ← stageInterface { name := "ifScreenPos", ty := .vec2 } texCoords
  let inverse := setup.needsInverseProjection
  let node ← addLibrary .fragment (.occlusion (.uniforms inverse settings))
  let uniforms : OcclusionUniforms := { node, inverse }
  let noise ← addTexture "noiseTex"
  let inputs ←
    match setup with
    | .forward => forwardInputs uniforms screenPos
    | .deferred => deferredInputs screenPos
  let color ← addForOutput .fragment
    (.occlusion (.occlusion uniforms inputs.component noise inputs.depthTex screenPos inputs.origin
      inputs.normal))
  let _ ← addLibrary .fragment (.endpoint (.colorOutput "outColor" color))

end ShaderWeave.Designing
