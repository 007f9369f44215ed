import ShaderWeave.CommandLine.FileTree

/-!
# Sessions

The command line run on files in memory: what it prints, which files it writes, and the error that it
ends with.
-/

namespace ShaderWeave.CommandLine

/-- What running a command leaves behind. -/
structure Session where
  /-- The files. -/
  files : FileSystem
  /-- What was printed. -/
  output : String := ""
  /-- The places of the files that were written. -/
  written : List Place := []

namespace Session

/-- Answer one call of the command. -/
def answer (request : FileCall) : EStateM CommandError Session request.Answer :=
  match request with
  | .read path => fun s => .ok (s.files.read? path) s
  | .makeDirectory path => fun s =>
    let (outcome, files) := s.files.makeDirectory path
    .ok outcome { s with files }
  | .write path content => fun s =>
    match s.files.write? path content with
    | some (place, files) =>
      .ok true { s with files, written := s.written.filter (· != place) ++ [place] }
    | none => .ok false s
  | .print text => fun s => .ok () { s with output := s.output ++ text }

/-- Run the command line on some files: the error that it ends with and what it leaves behind. -/
def run (arguments : List String) (files : FileSystem) : Option CommandError × Session :=
  match (Routine.run throw answer (Command.ofArguments arguments)).run { files } with
  | .ok () s => (none, s)
  | .error error s => (some error, s)

/-- The files that were written below the directory in which relative paths start, by their path from
there. -/
def writtenFiles (s : Session) : List (String × String) :=
  s.written.filterMap fun place =>
    match s.files.root.find? place with
    | some (.file content) =>
      if s.files.work.isPrefixOf place then
        some (Path.ofSteps (place.drop s.files.work.length), content)
      else none
    | _ => none

end Session

end ShaderWeave.CommandLine
