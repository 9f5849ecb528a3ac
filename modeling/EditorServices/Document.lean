import EditorServices.Schema.Checked

/-!
# `Document` — the document that a session is about
-/

namespace EditorServices

open Schema

/-- What is known of a document that was opened. -/
structure DocumentHandle where
  path : String
  uri : String
  languageId : String
  workspaceRoot : String
  version : Int
  isOpen : Bool
deriving DecidableEq

namespace DocumentHandle

def checkMembers (ms : Members) : Checked DocumentHandle :=
  DocumentHandle.mk
    <$> required ms (.plain "path") string
    <*> required ms (.plain "uri") string
    <*> required ms (.plain "language_id") string
    <*> required ms (.plain "workspace_root") string
    <*> optional ms (.plain "version") 0 integer
    <*> optional ms (.plain "is_open") false boolean

def check : Json → Checked DocumentHandle := record "DocumentHandle" checkMembers

def toJson (d : DocumentHandle) : Json :=
  .obj [("path", .str d.path), ("uri", .str d.uri), ("language_id", .str d.languageId),
    ("workspace_root", .str d.workspaceRoot), ("version", .int d.version),
    ("is_open", .bool d.isOpen)]

end DocumentHandle

end EditorServices
