import ShaderWeave.Config
import ShaderWeave.Preset.AmbientOcclusion
import ShaderWeave.Preset.ShadowedLights
import ShaderWeave.Preset.Textured

/-!
# Presets

The models that come with the project.
-/

namespace ShaderWeave

/-- A model that comes with the project. -/
inductive Preset where
  /-- A textured mesh. -/
  | textured
  /-- A mesh lit by lights with shadows. -/
  | shadowedLights
  /-- Ambient occlusion with positions from depth. -/
  | aoForward
  /-- Ambient occlusion with positions from a texture. -/
  | aoDeferred
deriving DecidableEq, Inhabited

namespace Preset

/-- All presets. -/
def all : List Preset := [textured, shadowedLights, aoForward, aoDeferred]

/-- Name of the preset and of its model. -/
def label : Preset → String
  | textured => "textured"
  | shadowedLights => "shadowed-lights"
  | aoForward => "ao-forward"
  | aoDeferred => "ao-deferred"

/-- The preset with the given name. -/
def ofName? (name : String) : Option Preset := all.find? (·.label == name)

@[simp]
theorem ofName?_label (preset : Preset) : ofName? preset.label = some preset := by
  cases preset <;> rfl

/-- What is said of a text that names no preset. -/
def unknownName (text : String) : String :=
  "unknown model '" ++ text ++ "' (supported: " ++ String.intercalate ", " (all.map (·.label)) ++ ")"

/-- The preset of ambient occlusion with the given setup. -/
def ofSetup : AmbientOcclusion.Setup → Preset
  | .forward => aoForward
  | .deferred => aoDeferred

end Preset

/-- A workspace with an empty design. -/
def Workspace.blank (name : String) (graph : Nat) : Workspace :=
  { design := { name, graph } }

namespace Preset

/-- The workspace of ambient occlusion with the given settings, which are number zero. -/
def occlusionWorkspace (setup : AmbientOcclusion.Setup) (settings : AmbientOcclusion.Settings) :
    Workspace :=
  let design : Designing Unit := do
    let number ← Designing.newSettings settings
    Designing.ambientOcclusion setup number
  (design.run (.blank (ofSetup setup).label 0)).2

/-- The workspace of a preset. -/
def build (preset : Preset) (config : Config) : Workspace :=
  let settings := AmbientOcclusion.Settings.initial.setKernelSize config.occlusion.kernelSize
  match preset with
  | textured => (Designing.texturedMesh.run (.blank preset.label 0)).2
  | shadowedLights => ((Designing.shadowedMesh config.maxLights).run (.blank preset.label 0)).2
  | aoForward => occlusionWorkspace .forward settings
  | aoDeferred => occlusionWorkspace .deferred settings

end Preset

end ShaderWeave
