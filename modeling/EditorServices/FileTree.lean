import EditorServices.Failure
import EditorServices.Named
import EditorServices.Path
import EditorServices.Text.Utf8

/-!
# `FileTree` — the files that can be read

Some files and directories the host refuses to open. Such a file can be seen but not read; through such a
directory nothing can be looked up.

## Contents
- `FileTree`: what stands under normal absolute paths, and directories.
- What is found under a path, where a path leads to, what is in the way of a new directory, and
  changes of the tree.
-/

namespace EditorServices

/-- What stands under a path of a tree. -/
inductive Content where
  | file (bytes : Bytes)
  | lockedFile
  | lockedDirectory
deriving DecidableEq

/-- A file can be read, unless something else is said of it. -/
instance : Coe Bytes Content := ⟨.file⟩

instance : Coe (Named Bytes) (Named Content) := ⟨fun files => files.map fun f => (f.1, .file f.2)⟩

/-- Files and locked directories by normal absolute path, and the other directories. -/
structure FileTree where
  entries : Named Content
  directories : List String
deriving DecidableEq

namespace FileTree

def empty : FileTree := ⟨[], []⟩

/-- Why the host refuses to look a path up. -/
inductive Hindrance where
  /-- A name in the path, or the path itself, is too long. -/
  | longName
  /-- A directory on the way is locked. -/
  | locked
deriving DecidableEq, Repr

def Hindrance.failure : Hindrance → Failure
  | .longName => .longName
  | .locked => .permission

/-- What is found under a path. -/
inductive Found where
  | nothing
  | directory
  | file (bytes : Bytes)
  | lockedFile
  | lockedDirectory
  | refused (why : Hindrance)
deriving DecidableEq

/-- The directories of a tree: those given and those above its files. -/
def hasDirectory (t : FileTree) (path : String) : Bool :=
  path = "/" || t.directories.any (fun d => (Path.ancestors d).contains path) ||
    t.entries.any fun f => (Path.ancestors (Path.parent f.1)).contains path

/-- What is found under a normal absolute path. -/
def find (t : FileTree) (path : String) : Found :=
  match t.entries.get? path with
  | some (.file bytes) => .file bytes
  | some .lockedFile => .lockedFile
  | some .lockedDirectory => .lockedDirectory
  | none => if t.hasDirectory path then .directory else .nothing

/-- The directory or file that a component leads to. -/
def enter (path : String) (part : List Char) : String :=
  if part = [] ∨ part = ['.'] then path
  else if part = ['.', '.'] then Path.parent path
  else Path.child path (String.ofList part)

/-- Where components lead to from a path; every one needs a directory to start from. -/
def walk (t : FileTree) (path : String) : List (List Char) → Option String
  | [] => some path
  | part :: rest => if t.find path = .directory then t.walk (enter path part) rest else none

/-- The normal absolute path that a path seen from a working directory leads to, if all directories
on the way are there. -/
def locate? (t : FileTree) (cwd path : String) : Option String :=
  if path.isEmpty then none
  else t.walk "/" (splitAt1 '/' (Path.join cwd.toList path.toList))

/-- The most bytes that a name and a whole path may have. -/
def maxNameBytes : Nat := 255
def maxPathBytes : Nat := 4095

/-- Whether a name is too long. -/
def isLongName (part : List Char) : Bool := maxNameBytes < (utf8Encode part).length

/-- What the host refuses first when components are looked up from a path. -/
def hindrance? (t : FileTree) (path : String) : List (List Char) → Option Hindrance
  | [] => none
  | part :: rest =>
    match t.find path with
    | .directory => if isLongName part then some .longName else t.hindrance? (enter path part) rest
    | .lockedDirectory => some .locked
    | _ => none

/-- What a path seen from a working directory leads to. -/
def findFrom (t : FileTree) (cwd path : String) : Found :=
  if maxPathBytes < path.utf8ByteSize then .refused .longName
  else match t.hindrance? "/" (splitAt1 '/' (Path.join cwd.toList path.toList)) with
    | some why => .refused why
    | none => match t.locate? cwd path with
      | some p => t.find p
      | none => .nothing

/-- What is in the way of a directory. -/
inductive Obstacle where
  /-- A file where a directory above it is needed. -/
  | above
  /-- A file of the same name. -/
  | itself
  /-- The host refuses to go on. -/
  | refused (why : Hindrance)
deriving DecidableEq, Repr

/-- What is in the way of going along components from a path, where missing directories are made. -/
def obstacleOn (t : FileTree) (path : String) (parts : List (List Char)) : Option Obstacle :=
  match t.find path, parts with
  | .file _, [] | .lockedFile, [] => some .itself
  | .file _, _ :: _ | .lockedFile, _ :: _ => some .above
  | .lockedDirectory, _ :: _ => some (.refused .locked)
  | _, [] => none
  | _, part :: rest =>
    if isLongName part then some (.refused .longName) else t.obstacleOn (enter path part) rest

/-- What is in the way of a directory, seen from a working directory, that is made with all above
it. -/
def obstacle? (t : FileTree) (cwd path : String) : Option Obstacle :=
  t.obstacleOn "/" (splitAt1 '/' (Path.join cwd.toList path.toList))

/-- Whether there is a file under a path; a locked one counts. -/
def isFile (t : FileTree) (path : String) : Bool :=
  match t.entries.get? path with
  | some (.file _) | some .lockedFile => true
  | _ => false

/-- Writes a file. -/
def write (t : FileTree) (path : String) (bytes : Bytes) : FileTree :=
  { t with entries := t.entries.put path bytes }

/-- Removes a file; its directory stays. -/
def remove (t : FileTree) (path : String) : FileTree :=
  ⟨t.entries.erase path, t.directories ++ [Path.parent path]⟩

end FileTree

end EditorServices
