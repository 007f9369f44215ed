import ShaderWeave.Node

/-!
# The Camera

The node that registers the matrices of the camera as a uniform block.
-/

namespace ShaderWeave.CameraNode

/-- Model to world space. -/
def modelMatrix : Variable := { name := "uModel", ty := .mat4 }

/-- World to view space. -/
def viewMatrix : Variable := { name := "uView", ty := .mat4 }

/-- View to clip space. -/
def projMatrix : Variable := { name := "uProj", ty := .mat4 }

/-- Model to clip space. -/
def mvpMatrix : Variable := { name := "uMvp", ty := .mat4 }

/-- Refreshes the matrices. -/
def update : UpdateRoutine := fun draw _ => do
  Updating.write { member := modelMatrix.name, value := .mat4 draw.model }
  Updating.write { member := viewMatrix.name, value := .mat4 draw.camera.view }
  Updating.write { member := projMatrix.name, value := .mat4 draw.camera.proj }
  Updating.write { member := mvpMatrix.name, value := .mat4 draw.mvp }

/-- The block of the matrices. -/
def block : BlockRequest where
  name := "CameraUniforms"
  members := [modelMatrix, viewMatrix, projMatrix, mvpMatrix]
  update := some update

/-- The matrices, by name. -/
def outputs (id : NodeId) : List (String × Handle) :=
  [("model_matrix", .uniform id modelMatrix), ("view_matrix", .uniform id viewMatrix),
    ("proj_matrix", .uniform id projMatrix), ("mvp_matrix", .uniform id mvpMatrix)]

end ShaderWeave.CameraNode
