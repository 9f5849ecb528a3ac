import EditorServices.Failure
import EditorServices.Host
import EditorServices.Named

/-!
# `Transport.Scripted` — a server that answers from a table

The channel to such a server behaves like any other: it is opened once, written to while it is open
and closed once. A request whose method is in the table is answered at once; everything else that
the server sends is put in from the outside.

## Contents
- `ScriptedServer` and its channel: `start`, `write`, `close`.
- `replyTo`, the answer to a message.
-/

namespace EditorServices.Transport

/-- A server that answers from a table, behind its channel. -/
structure ScriptedServer where
  /-- The members of responses by method; methods under null get none. -/
  responses : Named Json
  /-- Why the channel cannot be opened. -/
  startError : Option String
  /-- Why nothing can be written. -/
  writeError : Option String
  /-- Why the inbound stream ends, when it does. -/
  exitReason : String
  /-- A request without an answer ends the stream. -/
  endsUnanswered : Bool
  started : Bool
  closed : Bool
deriving DecidableEq

namespace ScriptedServer

def new (responses : Named Json) (startError : Option String) (exitReason : String) :
    ScriptedServer := ⟨responses, startError, none, exitReason, false, false, false⟩

/-- Opens the channel unless it is open. -/
def start (v : ScriptedServer) : ScriptedServer × Except Failure Unit :=
  if v.closed then (v, .error (.channelClosed "transport already closed" none))
  else match v.startError with
    | some reason => (v, .error (.channelClosed reason none))
    | none => ({ v with started := true }, .ok ())

/-- Whether a message can be written. -/
def canWrite (v : ScriptedServer) : Except Failure Unit :=
  if v.closed || !v.started then .error (.channelClosed "transport is not open" none)
  else match v.writeError with
    | some reason => .error (.runtime reason)
    | none => .ok ()

def close (v : ScriptedServer) : ScriptedServer := { v with closed := true }

/-- The method that is answered though it is not in the table, and its answer. -/
def greeting : String × Json :=
  ("initialize", .obj [("result", .obj [("capabilities", .obj [])])])

/-- What the table holds for a method. -/
def entry? (v : ScriptedServer) (method : String) : Option Json :=
  match v.responses.get? method with
  | some spec => some spec
  | none => if method = greeting.1 then some greeting.2 else none

/-- Whether a message asks for an answer. -/
def isRequest (message : Json) : Bool :=
  (message.get? "method").isSome && (message.get? "id").isSome

/-- The answer to a message, if it is a request that is answered. Members of the table take the
place of those that every response has; an entry of the table that has no members is refused. -/
def replyTo (v : ScriptedServer) (message : Json) : Except Failure (Option Json) :=
  match message.get? "method", message.get? "id" with
  | some (.str method), some id =>
    match v.entry? method with
    | some (.obj ms) =>
      .ok (some (.obj (Named.overlay [("jsonrpc", .str "2.0"), ("id", id)] ms)))
    | some .null | none => .ok none
    | some _ => .error .wrongKind
  | _, _ => .ok none

end ScriptedServer

end EditorServices.Transport
