import ShaderWeave.AmbientOcclusion.Kernel
import ShaderWeave.Number.Word

/-!
# Settings of Ambient Occlusion

The tunables of ambient occlusion, and where view-space positions come from. The range of kernel
samples that are evaluated always stays inside the kernel. Its end is a sum of signed words, and a range
whose end does not fit one cannot be set.
-/

namespace ShaderWeave.AmbientOcclusion

/-- Where view-space positions come from. -/
inductive Setup where
  /-- From a depth pass, by the inverse projection. -/
  | forward
  /-- From textures that hold positions. -/
  | deferred
deriving DecidableEq, Inhabited

namespace Setup

/-- Name of the setup. -/
def label : Setup → String
  | forward => "forward"
  | deferred => "deferred"

/-- The setup with the given name. -/
def ofLabel? (text : String) : Option Setup :=
  [forward, deferred].find? (·.label == text)

@[simp]
theorem ofLabel?_label (setup : Setup) : ofLabel? setup.label = some setup := by
  cases setup <;> rfl

/-- Whether positions are reconstructed by the inverse projection. -/
def needsInverseProjection : Setup → Bool
  | forward => true
  | deferred => false

end Setup

/-- The tunables. -/
structure Settings where
  /-- Radius around a point in which it is occluded; a negative one grows with the distance. -/
  radius : Binary32
  /-- Factor of the occlusion. -/
  strength : Binary32
  /-- Exponent of the result. -/
  power : Binary32
  /-- Depth by which a sample has to be behind to occlude. -/
  bias : Binary32
  /-- First kernel sample that is evaluated. -/
  rangeFrom : Int32
  /-- First kernel sample after those that are evaluated. -/
  rangeTo : Int32
deriving DecidableEq, Inhabited

namespace Settings

/-- The size of the kernel as a signed word. -/
def sizeLimit : Int32 := 64

/-- Evaluate `count` samples from `start` on, as far as there are such samples. -/
def setKernelRange? (s : Settings) (start count : Int32) : Option Settings := do
  let first := min (max start 0) sizeLimit
  let last ← SignedWord.add? first (max count 0)
  return { s with rangeFrom := first, rangeTo := min last sizeLimit }

/-- Evaluate the first `count` samples, or all if there are fewer. The range that is set always fits. -/
def setKernelSize (s : Settings) (count : UInt32) : Settings :=
  (s.setKernelRange? 0 (min count 64).toInt32).getD s

/-- Number of samples that are evaluated. -/
def kernelCount (s : Settings) : UInt32 :=
  (max (s.rangeTo - s.rangeFrom) 0).toUInt32

/-- The settings before anything is set. -/
def initial : Settings :=
  { radius := .one, strength := ⟨0x3fa00000⟩, power := ⟨0x3fc00000⟩, bias := ⟨0x3d4ccccd⟩,
    rangeFrom := 0, rangeTo := 16 }

end Settings

/-- A change of one setting. -/
inductive Change where
  /-- Set the radius. -/
  | radius (value : Binary32)
  /-- Set the strength. -/
  | strength (value : Binary32)
  /-- Set the power. -/
  | power (value : Binary32)
  /-- Set the bias. -/
  | bias (value : Binary32)
  /-- Set the range of samples by its start and length. -/
  | kernelRange (start count : Int32)
  /-- Set the number of samples. -/
  | kernelSize (count : UInt32)
deriving DecidableEq

/-- The settings after a change, if it can be made. -/
def Settings.change? (s : Settings) : Change → Option Settings
  | .radius value => some { s with radius := value }
  | .strength value => some { s with strength := value }
  | .power value => some { s with power := value }
  | .bias value => some { s with bias := value }
  | .kernelRange start count => s.setKernelRange? start count
  | .kernelSize count => some (s.setKernelSize count)

/-- The settings after a sequence of changes, if all can be made. -/
def Settings.changeAll? (s : Settings) (changes : List Change) : Option Settings :=
  changes.foldlM Settings.change? s

end ShaderWeave.AmbientOcclusion
