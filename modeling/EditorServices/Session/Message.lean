import EditorServices.Session.Profile
import EditorServices.Session.Query

/-!
# `Session.Message` — the messages between a session and its server

## Contents
- **Envelopes.** `request`, `notification` and `response`.
- **Handshake.** What the server is told at first.
- **Documents.** The messages on the life of a document.
- **Questions.** The parameters of a question about a position.
- **Answers to the server.** What the server's own requests are answered with.
- **Messages of the server.** `Notification`, what the server sent without being asked.
-/

namespace EditorServices.Session

/-! ## Envelopes -/

/-- The version of the protocol. -/
def protocolMember : String × Json := ("jsonrpc", .str "2.0")

def request (id : Nat) (method : String) (params : Json) : Json :=
  .obj [protocolMember, ("id", .int id), ("method", .str method), ("params", params)]

def notification (method : String) (params : Json) : Json :=
  .obj [protocolMember, ("method", .str method), ("params", params)]

/-- The answer to a request of the server, under the id that the server chose. -/
def response (id result : Json) : Json :=
  .obj [protocolMember, ("id", id), ("result", result)]

/-! ## Handshake -/

def handshakeMethod : String := "initialize"

/-- The workspace as a list of one folder. -/
def workspaceFolders (p : Profile) : Json :=
  .arr [.obj [("uri", .str p.workspaceUri), ("name", .str "workspace")]]

/-- What this side can do. -/
def capabilities : Json :=
  .obj [("textDocument", .obj [
    ("completion", .obj [("completionItem", .obj [("snippetSupport", .bool false)])]),
    ("hover", .obj [("contentFormat", .arr [.str "markdown"])]),
    ("publishDiagnostics", .obj [("relatedInformation", .bool false)])])]

def handshakeParams (p : Profile) : Json :=
  .obj [("processId", .int p.processId), ("rootUri", .str p.workspaceUri),
    ("workspaceFolders", workspaceFolders p), ("capabilities", capabilities)]

/-- The notification that ends the handshake. -/
def handshakeDone : Json := notification "initialized" (.obj [])

/-! ## Documents -/

def opened (uri languageId : String) (version : Int) (text : String) : Json :=
  notification "textDocument/didOpen" (.obj [("textDocument", .obj [("uri", .str uri),
    ("languageId", .str languageId), ("version", .int version), ("text", .str text)])])

/-- The whole new text under a new version. -/
def changed (uri : String) (version : Int) (text : Json) : Json :=
  notification "textDocument/didChange" (.obj [
    ("textDocument", .obj [("uri", .str uri), ("version", .int version)]),
    ("contentChanges", .arr [.obj [("text", text)]])])

def closed (uri : String) : Json :=
  notification "textDocument/didClose" (.obj [("textDocument", .obj [("uri", .str uri)])])

/-! ## Questions -/

/-- The parameters of a question about a position. -/
def Query.params (q : Query) (uri : String) (line character : Json) : Json :=
  .obj ([("textDocument", .obj [("uri", .str uri)]),
    ("position", .obj [("line", line), ("character", character)])] ++
    if q = .references then [("context", .obj [("includeDeclaration", .bool true)])] else [])

/-! ## Answers to the server -/

/-- An empty section of configuration for each one that a request asks for. -/
def configurationAnswer (params : Json) : Except Failure Json :=
  let asked := match params with
    | .obj ms => (Named.get? ms "items").getD (.arr [])
    | _ => .arr []
  match asked.parts? with
  | some xs => .ok (.arr (xs.map fun _ => .obj []))
  | none => .error .wrongKind

/-- What a request of the server is answered with. -/
def answerTo (p : Profile) (method params : Json) : Except Failure Json :=
  if method = .str "workspace/configuration" then configurationAnswer params
  else if method = .str "workspace/workspaceFolders" then .ok (workspaceFolders p)
  else .ok .null

/-! ## Messages of the server -/

section

open Schema

/-- A message that a server sent without being asked. -/
structure Notification where
  method : String
  params : Json
  /-- The id of a request of the server; null for a notification proper. -/
  id : Json
deriving DecidableEq

namespace Notification

/-- The event type under which such messages are published. -/
def eventType : String := "lsp.server.notification"

def checkMembers (ms : Members) : Checked Notification :=
  Notification.mk
    <$> required ms (.plain "method") string
    <*> optional ms (.plain "params") .null .valid
    <*> optional ms (.plain "id") .null .valid

def check : Json → Checked Notification := record "ServerNotificationProps" checkMembers

def toMembers (n : Notification) : Members :=
  [("method", .str n.method), ("params", n.params), ("id", n.id)]

def toJson (n : Notification) : Json := .obj n.toMembers

end Notification

end

end EditorServices.Session
