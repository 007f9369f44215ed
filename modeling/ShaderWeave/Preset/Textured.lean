import ShaderWeave.Design

/-!
# Textured Meshes

One texture coordinate is carried from the vertex to the fragment stage, where a texture is sampled.
-/

namespace ShaderWeave.Designing

/-- The design of a textured mesh. -/
def texturedMesh : Designing Unit := do
  let positions ← addForOutput .vertex (.endpoint (.meshAttribute .positions))
  let texCoords ← addForOutput .vertex (.endpoint (.meshAttribute .textureCoords))
  let camera ← addLibrary .vertex .camera
  let clip ← addForOutput .vertex
    (.arithmetic (.transform .clip positions (.uniform camera CameraNode.mvpMatrix)))
  let _ ← addLibrary .vertex (.endpoint (.positionOutput clip))
  let coordinate ← stageInterface { name := "ifTexCoords", ty := .vec2 } texCoords
  let texture ← addForOutput .fragment (.texture (.binding "tColor" none))
  let color ← addForOutput .fragment (.texture (.sample false texture coordinate))
  let _ ← addLibrary .fragment (.endpoint (.colorOutput "outColor" color))

end ShaderWeave.Designing
