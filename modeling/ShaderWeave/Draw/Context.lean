import ShaderWeave.Draw.Light

/-!
# Draws

Everything that update routines may read for one draw: camera, model matrix, viewport and lights.
-/

namespace ShaderWeave

/-- The camera of a draw. -/
structure Camera where
  /-- World to view space. -/
  view : Mat4
  /-- View to clip space. -/
  proj : Mat4
  /-- Clip to view space. -/
  invProj : Mat4
  /-- Where the camera stands. -/
  position : Vec3
deriving DecidableEq, Inhabited

namespace Camera

/-- The camera with the given matrices; what follows from them is computed. -/
def ofMatrices (view proj : Mat4) : Camera where
  view := view
  proj := proj
  invProj := proj.inverse
  position := view.inverse.w.truncate

/-- World to clip space. -/
def viewProj (camera : Camera) : Mat4 := camera.proj.mul camera.view

end Camera

/-- One draw. -/
structure DrawContext where
  /-- The camera. -/
  camera : Camera
  /-- Model to world space. -/
  model : Mat4
  /-- Width of the viewport in pixels. -/
  width : UInt32
  /-- Height of the viewport in pixels. -/
  height : UInt32
  /-- The lights. -/
  lights : List Light
deriving DecidableEq, Inhabited

namespace DrawContext

/-- A draw with identity matrices, a viewport of one pixel and no lights. -/
def plain : DrawContext where
  camera := .ofMatrices .identity .identity
  model := .identity
  width := 1
  height := 1
  lights := []

/-- The draw that update routines are tried on when a model is compiled: a real camera and one light
of each kind. -/
def dryRun : DrawContext where
  camera := .ofMatrices
    (.lookAt ⟨.zero, ⟨0x40000000⟩, ⟨0x40a00000⟩⟩ .zero .unitY)
    (.perspective (Binary32.toRadians ⟨0x42700000⟩) ⟨0x3fe38e39⟩ ⟨0x3dcccccd⟩ ⟨0x42c80000⟩)
  model := .identity
  width := 1280
  height := 720
  lights :=
    [.directional ⟨-.one, -.one, -.one⟩ ⟨.one, .one, .one, ⟨0x40400000⟩⟩,
      .point ⟨⟨0x40000000⟩, ⟨0x40400000⟩, .one⟩ ⟨.one, ⟨0x3f4ccccd⟩, ⟨0x3f19999a⟩, ⟨0x41200000⟩⟩,
      .spot ⟨.zero, ⟨0x40800000⟩, .zero⟩ .down ⟨0x41f00000⟩ ⟨.one, .one, .one, .one⟩]

/-- Model to clip space. -/
def mvp (draw : DrawContext) : Mat4 := draw.camera.viewProj.mul draw.model

end DrawContext

end ShaderWeave
