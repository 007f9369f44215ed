import ShaderWeave.CommandLine.Path
import ShaderWeave.CommandLine.Run

/-!
# File Trees

Files and directories in memory, on which the command line can be run. A path is walked step by step:
each step has to start from a directory, and its name and the whole path have a limited length. The
directories on the way are kept, so that two dots lead back to the last of them.
-/

namespace ShaderWeave.CommandLine

/-- The names from the root to a file or directory. -/
abbrev Place := List String

/-- What stands under a name. -/
inductive FileTree where
  /-- A file. -/
  | file (content : String)
  /-- A directory with its entries. -/
  | folder (entries : List (String × FileTree))

namespace FileTree

instance : Inhabited FileTree := ⟨folder []⟩

/-- The entries of a directory; a file has none. -/
def entries : FileTree → List (String × FileTree)
  | file _ => []
  | folder entries => entries

/-- Whether it is a directory. -/
def isFolder : FileTree → Bool
  | file _ => false
  | folder _ => true

/-- What is at a place. -/
def find? (tree : FileTree) : Place → Option FileTree
  | [] => some tree
  | name :: rest =>
    match tree.entries.lookup name with
    | some entry => entry.find? rest
    | none => none

/-- The tree with an entry at a place, in directories that are added where they are missing. -/
def insert (tree : FileTree) : Place → FileTree → FileTree
  | [], entry => entry
  | name :: rest, entry =>
    let old := (tree.entries.lookup name).getD default
    folder (tree.entries.filter (·.1 != name) ++ [(name, old.insert rest entry)])

end FileTree

/-- Why a walk ends early. -/
inductive Obstacle where
  /-- Nothing has the name. -/
  | missing
  /-- A file is in the way, or a name or the path is too long. -/
  | refused
deriving DecidableEq, Inhabited

/-- Where a walk has come to in a tree. -/
structure Walk where
  /-- The tree. -/
  root : FileTree
  /-- What was passed below the root, with its name, last first. -/
  trail : List (String × FileTree) := []

namespace Walk

/-- The most bytes that a name can have. -/
def nameLimit : Nat := 255

/-- The most bytes that a path can have. -/
def pathLimit : Nat := 4095

/-- What is at the end of the walk. -/
def here (walk : Walk) : FileTree :=
  match walk.trail with
  | [] => walk.root
  | (_, entry) :: _ => entry

/-- The place at the end of the walk. -/
def place (walk : Walk) : Place :=
  (walk.trail.map (·.1)).reverse

/-- The walk with one more step. The directory above the root is the root. -/
def step (walk : Walk) (name : String) : Except Obstacle Walk :=
  if !walk.here.isFolder then .error .refused
  else if Path.isIdle name then .ok walk
  else if name = ".." then .ok { walk with trail := walk.trail.tail }
  else if nameLimit < name.utf8ByteSize then .error .refused
  else
    match walk.here.entries.lookup name with
    | some entry => .ok { walk with trail := (name, entry) :: walk.trail }
    | none => .error .missing

/-- The walk with several more steps. -/
def steps (walk : Walk) : List String → Except Obstacle Walk
  | [] => .ok walk
  | name :: rest =>
    match walk.step name with
    | .ok walk => walk.steps rest
    | .error obstacle => .error obstacle

end Walk

/-- A tree of files with a directory in it, in which relative paths start. -/
structure FileSystem where
  /-- The files and directories. -/
  root : FileTree
  /-- Where relative paths start. -/
  work : Place

namespace FileSystem

/-- The walk along the first steps of a path, or along all of them. The empty path leads nowhere. -/
def walk (fs : FileSystem) (path : String) (steps : List String) : Except Obstacle Walk :=
  if path.isEmpty then .error .missing
  else if Walk.pathLimit < path.utf8ByteSize then .error .refused
  else Walk.steps { root := fs.root } (if Path.isRooted path then steps else fs.work ++ steps)

/-- The content of the file at a path. -/
def read? (fs : FileSystem) (path : String) : Option String :=
  match fs.walk path (Path.steps path) with
  | .ok walk =>
    match walk.here with
    | .file content => some content
    | .folder _ => none
  | .error _ => none

/-- The system with an entry at a place. -/
def insert (fs : FileSystem) (place : Place) (entry : FileTree) : FileSystem :=
  { fs with root := fs.root.insert place entry }

/-- Make the directory that a path names, in one that is there. Slashes at the end of the path do not
count, but a dot does: it names the directory itself, which then has to be there. -/
def makeDirectory (fs : FileSystem) (path : String) : MakeOutcome × FileSystem :=
  match (Path.steps path).reverse.dropWhile (· == "") with
  | [] => (if path.isEmpty then .missing else .present, fs)
  | name :: earlier =>
    match fs.walk path earlier.reverse with
    | .error .missing => (.missing, fs)
    | .error .refused => (.refused, fs)
    | .ok parent =>
      match parent.step name with
      | .ok walk => (if walk.here.isFolder then .present else .refused, fs)
      | .error .refused => (.refused, fs)
      | .error .missing => (.made, fs.insert (parent.place ++ [name]) default)

/-- Write a file in a directory that is there; returns the place of the file. -/
def write? (fs : FileSystem) (path content : String) : Option (Place × FileSystem) :=
  let steps := Path.steps path
  match fs.walk path steps.dropLast with
  | .error _ => none
  | .ok parent =>
    let name := steps.getLastD ""
    let place := parent.place ++ [name]
    match parent.step name with
    | .ok walk => if walk.here.isFolder then none else some (place, fs.insert place (.file content))
    | .error .refused => none
    | .error .missing => some (place, fs.insert place (.file content))

/-- A system with the null device, which reads as an empty file, and with a new directory for
temporary files that holds the given files. Relative paths start in that directory. -/
def ofFiles (files : List (String × String)) : FileSystem :=
  let work : Place := ["tmp", "work"]
  let bare : FileTree := ((default : FileTree).insert ["dev", "null"] (.file "")).insert work default
  { work
    root := files.foldl
      (fun root (path, content) =>
        root.insert (work ++ (Path.steps path).filter (!Path.isIdle ·)) (.file content))
      bare }

end FileSystem

end ShaderWeave.CommandLine
