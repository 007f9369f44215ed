/-!
# Paths

A path is a text that slashes divide into steps. An empty step and a step of one dot stay where they
are, two dots lead to the directory above, and any other step to what has its name. A path that starts
with a slash starts from the root.
-/

namespace ShaderWeave.CommandLine.Path

/-- The steps of a path. -/
def steps (path : String) : List String :=
  path.splitOn "/"

/-- The path with the given steps. -/
def ofSteps (steps : List String) : String :=
  String.intercalate "/" steps

/-- Whether a step stays where it is. -/
def isIdle (step : String) : Bool :=
  step == "" || step == "."

/-- Whether a path starts from the root. -/
def isRooted (path : String) : Bool :=
  path.startsWith "/"

/-- The beginnings of some steps that do not end in an idle one, longest first. The steps are given
last first, and so are those of each beginning. -/
def beginnings : List String → List (List String)
  | [] => []
  | step :: earlier =>
    if isIdle step then beginnings earlier else (step :: earlier) :: beginnings earlier

/-- The paths of the directories above what a path names, nearest first, without the root and without
the place where the path starts. Idle steps at the end of the path name nothing of their own. -/
def ancestors (path : String) : List String :=
  ((beginnings (steps path).reverse).drop 1).map fun beginning => ofSteps beginning.reverse

/-- The path of a file in a directory. -/
def join (directory file : String) : String :=
  if directory.isEmpty || directory.endsWith "/" then directory ++ file
  else directory ++ "/" ++ file

end ShaderWeave.CommandLine.Path
