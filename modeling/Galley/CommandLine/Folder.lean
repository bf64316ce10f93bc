import Galley.CommandLine.Run

/-! # Runs in a folder

A folder holds files, each under its name, and no other folders. Around it lie other folders, one
inside the other up to the root. A run in it reads files and the standard input, makes or changes
at most one file, and prints a text.
-/

namespace Galley.CommandLine

/-- Where a file is: how many folders up from the folder of the run, and its name there. -/
structure Location where
  up : Nat
  name : String
deriving DecidableEq

/-- A folder and its surroundings, with the standard input and what has been printed. -/
structure Folder where
  /-- How many folders lie around this one. -/
  depth : Nat
  files : List (Location × ByteArray)
  input : ByteArray
  printed : ByteArray

/-- What a path leads to. -/
inductive Place where
  | directory
  /-- A place where a file is or can be made. -/
  | entry (location : Location)
deriving DecidableEq

/-- A file name has at most this many bytes. -/
def maxNameBytes : Nat :=
  255

/-- A path has at most this many bytes. -/
def maxPathBytes : Nat :=
  4095

/-- The parts of a path between its slashes. -/
def pathParts (path : String) : List (List Char) :=
  (path.toList.splitOn '/').filter (· ≠ [])

/-- Whether a path starts at the root. -/
def isAbsolute (path : String) : Bool :=
  path.toList.head? = some '/'

/-- Whether a path ends as only that of a directory can. -/
def endsInSlash (path : String) : Bool :=
  path.toList.getLast? = some '/'

namespace Folder

/-- The content of the file at a location. -/
def content? (folder : Folder) (location : Location) : Option ByteArray :=
  folder.files.lookup location

/-- Look for a file at a location, whose name has to be one that a file can have. -/
def find (folder : Folder) (location : Location) : Except FileFault (Option ByteArray) :=
  if maxNameBytes < location.name.utf8ByteSize then .error .nameTooLong
  else .ok (folder.content? location)

/-- Why a path cannot go on after a name, under which there is no folder. -/
def barrier (folder : Folder) (location : Location) : FileFault :=
  match folder.find location with
  | .error fault => fault
  | .ok (some _) => .notDirectory
  | .ok none => .missing

/-- Follow the parts of a path, starting `up` folders up. Nothing lies above the root. -/
def walk (folder : Folder) (up : Nat) : (parts : List (List Char)) → Except FileFault Place
  | [] => .ok .directory
  | ['.'] :: rest => folder.walk up rest
  | ['.', '.'] :: rest => folder.walk (min (up + 1) folder.depth) rest
  | [name] => .ok (.entry ⟨up, String.ofList name⟩)
  | name :: _ => .error (folder.barrier ⟨up, String.ofList name⟩)

/-- The place that a path leads to. -/
def place (folder : Folder) (path : String) : Except FileFault Place :=
  if maxPathBytes < path.utf8ByteSize then .error .nameTooLong
  else folder.walk (if isAbsolute path then folder.depth else 0) (pathParts path)

/-- The content of the file at a path. -/
def read (folder : Folder) (path : String) : Except FileFault ByteArray := do
  match ← folder.place path with
  | .directory => .error .isDirectory
  | .entry location =>
      match ← folder.find location with
      | none => .error .missing
      | some content => if endsInSlash path then .error .notDirectory else .ok content

/-- Put a content at a location. -/
def put (folder : Folder) (location : Location) (content : ByteArray) : Folder :=
  { folder with files := (location, content) :: folder.files.filter (·.1 ≠ location) }

/-- Make the file at a path hold a content. -/
def write (folder : Folder) (path : String) (content : ByteArray) : Except FileFault Folder := do
  match ← folder.place path with
  | .directory => .error .isDirectory
  | .entry location =>
      if endsInSlash path then .error .isDirectory
      else do
        let _ ← folder.find location
        .ok (folder.put location content)

instance : Host (StateM Folder) where
  load path := return (← get).read path
  loadInput := return .ok (← get).input
  store path content := do
    match (← get).write path content with
    | .error fault => return .error fault
    | .ok folder =>
        set folder
        return .ok ()
  print content := do
    modify fun folder => { folder with printed := folder.printed ++ content }
    return .ok ()

/-- Run the program with given options in a folder. -/
def run (folder : Folder) (options : Options) : Outcome × Folder :=
  (CommandLine.run options : StateM Folder Outcome).run folder

end Folder
end Galley.CommandLine
