import EditorServices.Config.Settings
import EditorServices.Host
import EditorServices.Language
import EditorServices.Schema.Checked
import EditorServices.Uri

/-!
# `Session.Profile` — what a session is about

A session is about one document in one workspace. Both are named by normal absolute paths and,
towards the server, by their URIs. A path is a text of characters: one with a half of a surrogate pair
has no URI, and no session here is about it.

## Contents
- `Profile` with its URIs.
- `Profile.new`, `Profile.read` and `Profile.ofConfig`, which fill in what is not given.
-/

namespace EditorServices.Session

/-- What a session is about. -/
structure Profile where
  /-- The path of the document. -/
  path : String
  /-- The language of the document; a text unless something else was given. -/
  languageId : Json
  /-- The directory of the workspace. -/
  workspace : String
  /-- The number of seconds that a server gets after the document was opened. -/
  settleDelay : Json
  /-- Warnings of the server are left out. -/
  hidesWarnings : Bool
  /-- Errors of the server are left out. -/
  hidesErrors : Bool
  /-- The id of this process, as the server is told. -/
  processId : Int
deriving DecidableEq

namespace Profile

/-- The delay when none is given. -/
def defaultDelay : Json := .float (Binary64.ofRatio false 3 10)

def uriOf (path : String) : String := Uri.ofPath .slash "/" path

/-- The URI of the document. -/
def uri (p : Profile) : String := uriOf p.path

/-- The language that the server is told, which has to be a text. -/
def language (p : Profile) : Except Failure String :=
  ((Schema.string p.languageId).under (.key "language_id")).outcome "DocumentHandle"

/-- The URI of the workspace. -/
def workspaceUri (p : Profile) : String := uriOf p.workspace

/-- The profile of a file seen from a working directory. A language that counts as nothing is taken
from the path of the file, and so is a workspace that is not given or empty. -/
def new (host : Host) (cwd file : String) (languageId : Json) (workspace : Option String)
    (settleDelay : Json) (hidesWarnings hidesErrors : Bool) : Profile :=
  let path := Path.absolute cwd file
  let beside := String.ofList (Path.directory path.toList)
  { path
    languageId :=
      if languageId.isFalsy then .str (Language.ofPath path Language.plainText) else languageId
    workspace := Path.absolute cwd (match workspace with
      | some s => if s.isEmpty then beside else s
      | none => beside)
    settleDelay, hidesWarnings, hidesErrors
    processId := host.processId }

/-- A path given by a value of any kind. -/
def pathOf (j : Json) : Except Failure String :=
  match j with
  | .str s => .ok s
  | _ => .error .wrongKind

/-- The profile that values of any kind describe. Paths have to be texts; whether a severity is
hidden is told by whether its value counts as nothing. -/
def read (host : Host) (cwd : String)
    (file languageId workspace settleDelay hidesWarnings hidesErrors : Json) :
    Except Failure Profile := do
  let path ← pathOf file
  let root ← if workspace.isFalsy then .ok none else (pathOf workspace).map some
  return new host cwd path languageId root settleDelay (!hidesWarnings.isFalsy)
    (!hidesErrors.isFalsy)

/-- The profile of a file under a configuration. -/
def ofConfig (host : Host) (cwd file : String) (c : LspConfig) : Except Failure Profile := do
  let delay ← c.settleDelay
  return new host cwd file (.ofText? c.languageId) none (.float delay) c.disableWarning
    c.disableError

end Profile

end EditorServices.Session
