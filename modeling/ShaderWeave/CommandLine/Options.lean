import ShaderWeave.Preset

/-!
# Options

The options of the command line. A list of arguments is a sequence of groups: `--validate` alone, or a
flag with the argument after it as its value, whatever that looks like. Of several groups of one flag
the last one counts.
-/

namespace ShaderWeave.CommandLine

/-- A flag that takes a value. -/
inductive Flag where
  /-- Names the preset. -/
  | model
  /-- Names the target. -/
  | target
  /-- Path of the configuration. -/
  | config
  /-- Directory for the outputs. -/
  | outputDir
deriving DecidableEq, Inhabited

namespace Flag

/-- The name of the flag in messages. -/
def label : Flag → String
  | model => "--model"
  | target => "--backend"
  | config => "--config"
  | outputDir => "--output-dir"

/-- The flag that an argument stands for. The output directory has a second name. -/
def ofArgument? (argument : String) : Option Flag :=
  if argument = "--outputdir" then some outputDir
  else [model, target, config, outputDir].find? (·.label == argument)

end Flag

/-- What is wrong with the arguments. -/
inductive UsageError where
  /-- A flag without its value. -/
  | missingValue (flag : Flag)
  /-- A text that names no preset. -/
  | unknownModel (text : String)
  /-- A text that names no target. -/
  | unknownTarget (text : String)
  /-- An argument that is no flag. -/
  | unknownArgument (argument : String)
deriving DecidableEq

/-- The text of an error. -/
def UsageError.message : UsageError → String
  | missingValue flag => "missing value for " ++ flag.label
  | unknownModel text => Preset.unknownName text
  | unknownTarget text => Target.unknownName text
  | unknownArgument argument =>
    "unknown argument: " ++ argument ++ " (supported: --model <name>, "
      ++ "--backend <vulkan|opengl|webgl2>, --config <file.json>, --output-dir <dir>, --validate)"

/-- The options. -/
structure Options where
  /-- The preset. -/
  model : Option Preset := none
  /-- The target, in place of the one in the configuration. -/
  target : Option Target := none
  /-- Path of the configuration. -/
  config : Option String := none
  /-- Directory for the outputs; without one they are printed. -/
  outputDir : Option String := none
  /-- Whether a validator is to check the sources. The sources do not depend on it. -/
  validate : Bool := false
deriving DecidableEq, Inhabited

namespace Options

/-- The options with the value of a flag. -/
def set (options : Options) (flag : Flag) (value : String) : Except UsageError Options :=
  match flag with
  | .model =>
    match Preset.ofName? value with
    | some preset => .ok { options with model := some preset }
    | none => .error (.unknownModel value)
  | .target =>
    match Target.ofName? value with
    | some target => .ok { options with target := some target }
    | none => .error (.unknownTarget value)
  | .config => .ok { options with config := some value }
  | .outputDir => .ok { options with outputDir := some value }

/-- The options with those that arguments give. The first group that is malformed ends the reading. -/
def extend (options : Options) : List String → Except UsageError Options
  | [] => .ok options
  | argument :: rest =>
    if argument = "--validate" then extend { options with validate := true } rest
    else
      match Flag.ofArgument? argument, rest with
      | none, _ => .error (.unknownArgument argument)
      | some flag, [] => .error (.missingValue flag)
      | some flag, value :: rest =>
        match options.set flag value with
        | .ok options => extend options rest
        | .error error => .error error

/-- The options that arguments give. -/
def parse (arguments : List String) : Except UsageError Options := extend {} arguments

end Options

end ShaderWeave.CommandLine
