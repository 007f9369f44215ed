import ShaderWeave.AmbientOcclusion.Settings
import ShaderWeave.Json.Reader
import ShaderWeave.Target

/-!
# Configuration

What is chosen before a model is built, as a document in JSON. Every field has a default. A record may
be written as an object, whose unknown fields are skipped, or as an array of its first fields. A name
may be written as a string, or as an object with that one key and nothing under it.
-/

namespace ShaderWeave

/-- Choices for ambient occlusion. -/
structure OcclusionConfig where
  /-- Where view-space positions come from. -/
  setup : AmbientOcclusion.Setup := .forward
  /-- Number of kernel samples that are evaluated. -/
  kernelSize : UInt32 := 16
deriving DecidableEq, Inhabited

/-- What is chosen before a model is built. -/
structure Config where
  /-- The target. -/
  target : Target := .vulkan
  /-- Length of the light arrays. -/
  maxLights : UInt32 := 4
  /-- Choices for ambient occlusion. -/
  occlusion : OcclusionConfig := {}
  /-- Whether a validator is to check the sources. The sources do not depend on it. -/
  validate : Bool := false
deriving DecidableEq, Inhabited

namespace Config

/-- The value of a decimal digit. -/
def digit? (c : Char) : Option Nat :=
  if '0' ≤ c ∧ c ≤ '9' then some (c.toNat - '0'.toNat) else none

/-- The value of a string of decimal digits. -/
def natural? (digits : List Char) : Option Nat :=
  digits.foldlM (fun n c => (digit? c).map (10 * n + ·)) 0

/-- A number without sign, fraction and exponent that fits 32 bits. -/
def word? : Json → Option UInt32
  | .number lexeme =>
    match natural? lexeme.toList with
    | some n => if n < 0x100000000 then some n.toUInt32 else none
    | none => none
  | _ => none

/-- A truth value. -/
def bool? : Json → Option Bool
  | .bool b => some b
  | _ => none

/-- A name, as a string or as an object with that one key. -/
def name? : Json → Option String
  | .string (some name) => some name
  | .object [(some name, .null)] => some name
  | _ => none

/-- A target by its name. -/
def target? (json : Json) : Option Target := do
  let name ← name? json
  [Target.vulkan, .opengl, .webgl2].find? (·.label == name)

/-- A setup by its name. -/
def setup? (json : Json) : Option AmbientOcclusion.Setup := do
  AmbientOcclusion.Setup.ofLabel? (← name? json)

/-- The fields of a record, in the order of `keys`: `none` for those that are absent. Fails if a known
field is written twice or an array is too long. -/
def fields? (keys : List String) : Json → Option (List (Option Json))
  | .array items =>
    if items.length ≤ keys.length then
      some (items.map some ++ List.replicate (keys.length - items.length) none)
    else
      none
  | .object entries => do
    let named ← entries.mapM fun (key, value) => key.map (·, value)
    keys.mapM fun key =>
      match named.filter (·.1 == key) with
      | [] => some none
      | [(_, value)] => some (some value)
      | _ => none
  | _ => none

/-- A field that may be absent. -/
def field? {α : Type} (decode : Json → Option α) (default : α) : Option Json → Option α
  | none => some default
  | some json => decode json

/-- Choices for ambient occlusion. -/
def occlusion? (json : Json) : Option OcclusionConfig := do
  match ← fields? ["setup", "kernelSize"] json with
  | [setup, kernelSize] =>
    let initial : OcclusionConfig := {}
    return {
      setup := ← field? setup? initial.setup setup
      kernelSize := ← field? word? initial.kernelSize kernelSize }
  | _ => none

/-- A configuration. -/
def ofJson? (json : Json) : Option Config := do
  match ← fields? ["backend", "maxLights", "ao", "validate"] json with
  | [target, maxLights, occlusion, validate] =>
    let initial : Config := {}
    return {
      target := ← field? target? initial.target target
      maxLights := ← field? word? initial.maxLights maxLights
      occlusion := ← field? occlusion? initial.occlusion occlusion
      validate := ← field? bool? initial.validate validate }
  | _ => none

/-- The configuration in a document. -/
def ofText? (text : String) : Option Config := do
  let json ← Json.ofText? text
  ofJson? json

end Config

end ShaderWeave
