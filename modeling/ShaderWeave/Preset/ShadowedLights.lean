import ShaderWeave.Design

/-!
# Meshes with Shadowed Lights

Diffuse lighting of a mesh with one depth texture for each light. The positions in the clip spaces of
the lights are the only array between the stages.
-/

namespace ShaderWeave.Designing

/-- The color of the mesh. -/
def meshColor : Handle := { value := .ofVec4 ⟨0x3f4ccccd⟩ ⟨0x3f4ccccd⟩ ⟨0x3f4ccccd⟩ .one }

/-- The design of a mesh lit by up to `max` lights with shadows. -/
def shadowedMesh (max : UInt32) : Designing Unit := do
  let positions ← addForOutput .vertex (.endpoint (.meshAttribute .positions))
  let normals ← addForOutput .vertex (.endpoint (.meshAttribute .normals))
  let camera ← addLibrary .vertex .camera
  let modelMatrix := Handle.uniform camera CameraNode.modelMatrix
  let clip ← addForOutput .vertex
    (.arithmetic (.transform .clip positions (.uniform camera CameraNode.mvpMatrix)))
  let _ ← addLibrary .vertex (.endpoint (.positionOutput clip))
  let worldPosition ← addForOutput .vertex (.arithmetic (.transform .point positions modelMatrix))
  let worldNormal ← addForOutput .vertex (.arithmetic (.transform .direction normals modelMatrix))
  let fragPos ← stageInterface { name := "ifFragPos", ty := .vec3 } worldPosition
  let fragNormal ← stageInterface { name := "ifNormal", ty := .vec3 } worldNormal
  let lights ← addShadowedLights max
  let _ ← wire .vertex lights.vertex.index .position positions
  let _ ← wire .vertex lights.vertex.index .modelMatrix modelMatrix
  let normal ← addForOutput .fragment (.arithmetic (.normalize fragNormal))
  let color ← addForOutput .fragment
    (.light (.lambert { shadowed := true } LightNode.defaultInner lights.lightCount fragPos normal
      meshColor))
  let _ ← addLibrary .fragment (.endpoint (.colorOutput "outColor" color))

end ShaderWeave.Designing
