import EditorServices.Environment
import EditorServices.FileTree
import EditorServices.Json.Commented
import EditorServices.Reporting
import EditorServices.Text.Utf8Fault

/-!
# `Config.File` — the object that a configuration file holds

A file that cannot be read counts as an empty object, and so does one that holds another kind of
value; both are reported. Only a path that the host refuses to look up, a token in the wrong place and
arrays and objects that are nested too deeply are failures of the load itself.
-/

namespace EditorServices.Config

/-- The service under which files are reported. -/
def fileService : String := "config.loader"

/-- Why a file could not be read. -/
inductive Unreadable where
  | directory (path : String)
  /-- The host refuses to open it. -/
  | locked (path : String)
  | malformedText (detail : String)
  | noToken (text : List Char)
  | notPlain (message : String)
deriving DecidableEq

/-- What is reported of a file that could not be read. -/
def Unreadable.message : Unreadable → String
  | .directory path => "[Errno 21] Is a directory: " ++ String.ofList (quoted path.toList)
  | .locked path => "[Errno 13] Permission denied: " ++ String.ofList (quoted path.toList)
  | .malformedText detail => detail
  | .noToken text =>
    "('Unable to parse text', " ++ String.ofList (quoted text) ++ ")"
  | .notPlain m => m

/-- How reading a file ended. -/
inductive FileResult where
  | object (ms : Members)
  | otherValue
  | unreadable (why : Unreadable)
  | misplacedToken
  | tooDeep
deriving DecidableEq

/-- Reads the text of a file, after variables are put in place of their references. -/
def readText (env : Environment) (text : List Char) (limits : Commented.Limits := .usual) : FileResult :=
  let text := env.substitute text
  match Json.readCommented text limits with
  | .ok (.obj ms) => .object ms
  | .ok _ => .otherValue
  | .error .noToken => .unreadable (.noToken text)
  | .error .misplaced => .misplacedToken
  | .error .tooDeep => .tooDeep
  | .error (.plain e tokens) => .unreadable (.notPlain (e.message tokens))

/-- Reads the bytes of a file. -/
def readBytes (env : Environment) (bytes : Bytes) (limits : Commented.Limits := .usual) : FileResult :=
  match readFileText bytes with
  | .ok text => readText env text limits
  | .error detail => .unreadable (.malformedText detail)

/-- The object that the file under a path holds, the empty object if there is none. -/
def loadFile (env : Environment) (path : String) (found : FileTree.Found)
    (limits : Commented.Limits := .usual) : Reporting Members :=
  match found with
  | .nothing => pure []
  | .refused why => .fail why.failure
  | .directory => unreadable (.directory path)
  | .lockedFile | .lockedDirectory => unreadable (.locked path)
  | .file bytes =>
    match readBytes env bytes limits with
    | .object ms => pure ms
    | .otherValue => do
      report .error fileService "config file is not an object" [("path", .str path)]
      pure []
    | .unreadable why => unreadable why
    | .misplacedToken => .fail .unexpectedToken
    | .tooDeep => .fail .tooDeep
where
  unreadable (why : Unreadable) : Reporting Members := do
    report .error fileService "failed to load config file"
      [("path", .str path), ("error", .str why.message)]
    pure []

end EditorServices.Config
