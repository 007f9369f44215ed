import ShaderWeave.CommandLine.Options
import ShaderWeave.CommandLine.Path
import ShaderWeave.Model.Compile
import ShaderWeave.Model.Manifest

/-!
# Running the Command Line

The command compiles a preset and prints its sources, or writes them to a directory together with the
manifest. It is a routine of calls to files, so that it can be run on real files as well as on files in
memory.
-/

namespace ShaderWeave.CommandLine

/-- What comes of making a directory. -/
inductive MakeOutcome where
  /-- The directory was made. -/
  | made
  /-- There is a directory already. -/
  | present
  /-- The directory that it would be in is missing. -/
  | missing
  /-- It cannot be made. -/
  | refused
deriving DecidableEq, Inhabited

/-- What the command asks of its surroundings. -/
inductive FileCall where
  /-- Read a file. -/
  | read (path : String)
  /-- Make a directory in one that is there. -/
  | makeDirectory (path : String)
  /-- Write a file. -/
  | write (path content : String)
  /-- Print a text. -/
  | print (text : String)
deriving DecidableEq

/-- What the command gets as an answer: the content of the file that is read, what came of making a
directory, and whether a file was written. -/
def FileCall.Answer : FileCall → Type
  | read _ => Option String
  | makeDirectory _ => MakeOutcome
  | write .. => Bool
  | print _ => Unit

/-- Why the command fails. -/
inductive CommandError where
  /-- The arguments are wrong. -/
  | usage (error : UsageError)
  /-- The configuration cannot be read. -/
  | unreadableConfig (path : String)
  /-- The configuration is malformed. -/
  | malformedConfig
  /-- No preset is named. -/
  | modelRequired
  /-- The preset does not compile. -/
  | compilation (preset : Preset)
  /-- The directory for the outputs cannot be created. -/
  | uncreatedDirectory (path : String)
  /-- An output cannot be written. -/
  | unwrittenFile (path : String)
deriving DecidableEq

/-- The text of an error. -/
def CommandError.message : CommandError → String
  | usage error => error.message
  | unreadableConfig path => "failed to read config json at " ++ path
  | malformedConfig => "failed to parse config json"
  | modelRequired => "--model is required (e.g. --model textured)"
  | compilation preset => "failed to compile model '" ++ preset.label ++ "'"
  | uncreatedDirectory path => "failed to create output dir " ++ path
  | unwrittenFile path => "failed to write " ++ path

/-- What is printed for an error. -/
def CommandError.report (error : CommandError) : String :=
  "Error: " ++ error.message ++ "\n"

/-- The first line of what is printed for an error. -/
def CommandError.headline (error : CommandError) : String :=
  String.ofList ((Text.lines error.report.toList).headD [])

/-- A routine of the command. -/
abbrev Command := Routine FileCall FileCall.Answer CommandError

namespace Command

/-- Print a text. -/
def print (text : String) : Command Unit := .call (.print text) .done

/-- The configuration at a path. -/
def loadConfig (path : String) : Command Config :=
  .call (.read path) fun
    | none => .fail (.unreadableConfig path)
    | some text =>
      match Config.ofText? text with
      | some config => .done config
      | none => .fail .malformedConfig

/-- Make the first of some directories, each of which is in the next one. If the next one is missing,
that one is made before. -/
def makeFirst : List String → Command Bool
  | [] => .done true
  | path :: above =>
    .call (.makeDirectory path) fun
      | .made | .present => .done true
      | .refused => .done false
      | .missing => do
        match ← makeFirst above with
        | false => .done false
        | true =>
          .call (.makeDirectory path) fun
            | .made | .present => .done true
            | .missing | .refused => .done false

/-- Create a directory and those above it that are missing. The empty path asks for nothing. -/
def createDirectory (path : String) : Command Bool :=
  if path.isEmpty then .done true else makeFirst (path :: Path.ancestors path)

/-- Write a file and say so. -/
def writeOutput (path content : String) : Command Unit :=
  .call (.write path content) fun
    | true => print ("[shaderc] wrote: " ++ path ++ "\n")
    | false => .fail (.unwrittenFile path)

/-- Write the sources and the manifest to a directory. -/
def writeOutputs (shader : Shader) (directory : String) : Command Unit := do
  match ← createDirectory directory with
  | true =>
    let path (suffix : String) := Path.join directory (shader.name ++ suffix)
    writeOutput (path ".vert") (shader.source .vertex)
    writeOutput (path ".frag") (shader.source .fragment)
    writeOutput (path ".layout.json") shader.manifest.pretty
  | false => .fail (.uncreatedDirectory directory)

/-- Print the sources. -/
def printSources (shader : Shader) : Command Unit := do
  print ("// " ++ shader.name ++ ".vert\n" ++ shader.source .vertex ++ "\n")
  print ("// " ++ shader.name ++ ".frag\n" ++ shader.source .fragment ++ "\n")

/-- The configuration with the options that stand above it. -/
def configure (options : Options) : Command Config := do
  let config ← match options.config with
    | some path => loadConfig path
    | none => .done {}
  return {
    config with
    target := options.target.getD config.target
    validate := config.validate || options.validate }

/-- Compile a preset. -/
def compile (preset : Preset) (config : Config) : Command Shader :=
  let ws := preset.build config
  let input : CompileInput := { target := config.target, parameters := ws.parameters }
  match (ws.design.model.compile input).outcome with
  | .ok shader => .done shader
  | .error _ => .fail (.compilation preset)

/-- The command with the given options. -/
def ofOptions (options : Options) : Command Unit := do
  let config ← configure options
  match options.model with
  | none => .fail .modelRequired
  | some preset =>
    let shader ← compile preset config
    match options.outputDir with
    | some directory => writeOutputs shader directory
    | none => printSources shader

/-- The command with the given arguments. -/
def ofArguments (arguments : List String) : Command Unit :=
  match Options.parse arguments with
  | .ok options => ofOptions options
  | .error error => .fail (.usage error)

end Command

end ShaderWeave.CommandLine
