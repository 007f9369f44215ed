import ShaderWeave.CommandLine.Run

/-!
# The Command

Runs the command line on real files.
-/

namespace ShaderWeave.CommandLine

/-- Try to make a directory. What is there already may be a file. -/
def tryMake (path : String) : IO MakeOutcome := do
  try
    IO.FS.createDir path
    return .made
  catch
    | .noFileOrDirectory .. => return .missing
    | .alreadyExists .. => return .present
    | _ => return .refused

/-- Make a directory in one that is there. A dot is present in directories only. -/
def makeDirectory (path : String) : IO MakeOutcome := do
  match ← tryMake path with
  | .present => if (← tryMake (path ++ "/.")) = .present then return .present else return .refused
  | outcome => return outcome

/-- Whether an action succeeds. -/
def succeeds (action : IO Unit) : IO Bool := do
  try
    action
    return true
  catch _ =>
    return false

/-- The result of an action, if it succeeds. -/
def result? {α : Type} (action : IO α) : IO (Option α) := do
  try
    return some (← action)
  catch _ =>
    return none

/-- Answer a call of the command. -/
def serve : (request : FileCall) → IO request.Answer
  | .read path => result? (IO.FS.readFile path)
  | .makeDirectory path => makeDirectory path
  | .write path content => succeeds (IO.FS.writeFile path content)
  | .print text => IO.print text

/-- Perform a command; its error is the result. -/
def perform (command : Command Unit) : ExceptT CommandError IO Unit :=
  Routine.run throw (fun request => ExceptT.lift (serve request)) command

end ShaderWeave.CommandLine

open ShaderWeave.CommandLine in
/-- Run the command with the arguments of the process. -/
def main (arguments : List String) : IO UInt32 := do
  match ← (perform (Command.ofArguments arguments)).run with
  | .ok () => return 0
  | .error error =>
    IO.eprint error.report
    return 1
