import EditorServices.Text.Split

/-!
# `Path` — slash-separated file paths

## Contents
- **Normal form.** `normalize` resolves empty, `.` and `..` components of an absolute path;
  `absolute` first joins a relative path to a working directory, and `resolve?` also refuses what
  cannot be looked up.
- **Parts.** Directory, name and extension of a path.
- **Ancestors.** The directories from a path up to the root.
-/

namespace EditorServices.Path

/-! ## Normal form -/

/-- The leading slashes that a normal path keeps: exactly two stay two, any other number becomes
one. -/
def root : List Char → List Char
  | '/' :: '/' :: '/' :: _ => ['/']
  | '/' :: '/' :: _ => ['/', '/']
  | '/' :: _ => ['/']
  | _ => []

/-- Adds one component to the components so far, latest first. Above the root `..` is dropped. -/
def pushComponent (stack : List (List Char)) (part : List Char) : List (List Char) :=
  if part = [] ∨ part = ['.'] then stack
  else if part = ['.', '.'] then stack.tail
  else part :: stack

/-- The components of an absolute path after `.` and `..` are resolved. -/
def components (s : List Char) : List (List Char) :=
  ((splitAt1 '/' s).foldl pushComponent []).reverse

/-- The normal form of an absolute path. -/
def normalize (s : List Char) : List Char := root s ++ joinWith ['/'] (components s)

/-- A path seen from a directory. An absolute path stays what it is. -/
def join (directory path : List Char) : List Char :=
  match path with
  | '/' :: _ => path
  | _ =>
    if directory = [] ∨ directory.getLast? = some '/' then directory ++ path
    else directory ++ '/' :: path

/-- The normal absolute path of a path seen from a working directory. -/
def absolute (cwd path : String) : String :=
  String.ofList (normalize (join cwd.toList path.toList))

/-- A path with one leading slash in place of two. -/
def collapsed : List Char → List Char
  | '/' :: '/' :: rest => '/' :: rest
  | s => s

/-- Whether a path holds the character that no name of a file can hold. -/
def isBroken (path : String) : Bool := path.toList.contains '\x00'

/-- The path that a file or directory seen from a working directory really has, unless the path is
broken. -/
def resolve? (cwd path : String) : Option String :=
  if isBroken path then none else some (String.ofList (collapsed (absolute cwd path).toList))

/-! ## Parts -/

/-- The last component. -/
def name (s : List Char) : List Char := (s.reverse.takeWhile (· ≠ '/')).reverse

/-- The part before the last component, without its trailing slashes unless it has nothing else. -/
def directory (s : List Char) : List Char :=
  let head := (s.reverse.dropWhile (· ≠ '/')).reverse
  let stem := (head.reverse.dropWhile (· = '/')).reverse
  if stem.isEmpty then head else stem

/-- The extension with its dot: from the last dot of the name, leading dots of the name apart. -/
def extension (s : List Char) : List Char :=
  let stem := (name s).dropWhile (· = '.')
  if stem.contains '.' then '.' :: (stem.reverse.takeWhile (· ≠ '.')).reverse else []

/-- A path with repeated slashes and `.` components removed; `..` is kept. -/
def tidy (s : List Char) : List Char :=
  let parts := (splitAt1 '/' s).filter fun p => p ≠ [] ∧ p ≠ ['.']
  let body := root s ++ joinWith ['/'] parts
  if body = [] then ['.'] else body

/-- A name inside a directory. -/
def child (dir file : String) : String := String.ofList (join dir.toList file.toList)

/-- The directory that holds a normal absolute path; the root holds itself. -/
def parent (path : String) : String :=
  let s := path.toList
  let r := root s
  let parts := components s
  String.ofList (r ++ joinWith ['/'] parts.dropLast)

/-! ## Ancestors -/

/-- A normal absolute directory and its ancestors, the directory first and the root last. -/
def ancestors (dir : String) : List String :=
  let s := dir.toList
  let parts := components s
  (List.range (parts.length + 1)).map fun k =>
    String.ofList (root s ++ joinWith ['/'] (parts.take (parts.length - k)))

end EditorServices.Path
