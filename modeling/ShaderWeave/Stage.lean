/-!
# Stages

A model has two stages, vertex and fragment. Nodes say where they may stand by a mask of stages; the
mask is a 32-bit word of which only the two lowest bits have a meaning.
-/

namespace ShaderWeave

/-- A set of stages as a bit mask. Bits without a meaning are kept. -/
structure StageMask where
  /-- Bit 0 stands for the vertex stage, bit 1 for the fragment stage. -/
  bits : UInt32
deriving DecidableEq, Inhabited

namespace StageMask

/-- The vertex stage alone. -/
def vertex : StageMask := ⟨1⟩

/-- The fragment stage alone. -/
def fragment : StageMask := ⟨2⟩

/-- Both stages. -/
def all : StageMask := ⟨3⟩

/-- No stage. -/
def none : StageMask := ⟨0⟩

/-- Name of the mask; a mask that is not exactly one of the named ones is `none`. -/
def label (mask : StageMask) : String :=
  if mask = vertex then "vertex"
  else if mask = fragment then "fragment"
  else if mask = all then "all"
  else "none"

/-- Whether the two masks have a bit in common. -/
def intersects (a b : StageMask) : Bool :=
  a.bits &&& b.bits != 0

/-- The mask with the given name. -/
def ofLabel? (text : String) : Option StageMask :=
  [vertex, fragment, all, none].find? (·.label == text)

/-- What is said of a mask that cannot be checked as the source of one shader. -/
def notOneShader (mask : StageMask) : String :=
  "cannot validate a " ++ mask.label ++ " stage mask as one shader"

end StageMask

/-- One of the two stages of a model. -/
inductive Stage where
  /-- Runs for each vertex and feeds the interface. -/
  | vertex
  /-- Runs for each fragment and reads the interface. -/
  | fragment
deriving DecidableEq, Inhabited

namespace Stage

/-- The mask that holds this stage alone. -/
def mask : Stage → StageMask
  | vertex => .vertex
  | fragment => .fragment

/-- Name of the stage in messages. -/
def label : Stage → String
  | vertex => "vertex"
  | fragment => "fragment"

/-- The stage with the given name. -/
def ofLabel? (text : String) : Option Stage :=
  [vertex, fragment].find? (·.label == text)

@[simp]
theorem ofLabel?_label (stage : Stage) : ofLabel? stage.label = some stage := by
  cases stage <;> rfl

/-- Name of the stage in a manifest. -/
def manifestLabel : Stage → String
  | vertex => "VERTEX"
  | fragment => "FRAGMENT"

@[simp]
theorem label_mask (stage : Stage) : stage.mask.label = stage.label := by
  cases stage <;> rfl

end Stage

end ShaderWeave
