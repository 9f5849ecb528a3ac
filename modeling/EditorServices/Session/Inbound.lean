import EditorServices.Session.Basic

/-!
# `Session.Inbound` — what a message of the server does to a session

A message with a method is the server's own: a request, which is answered, or a notification.
Subscribers are told of both. Every other message is a response and goes to the request that has its
id.

## Contents
- **Replies.** `reply` and `failPending`, after which no request is pending.
- **Responses.** `receiveResponse`.
- **Diagnostics.** `receiveDiagnostics`, by which the last report about the document holds.
- **Messages.** `receive`.
-/

namespace EditorServices.Session

/-! ## Replies -/

/-- Gives a reply to the task that waits for it, unless it has one. The task runs again if its
request was written; otherwise it finds the reply when it has written it. -/
def reply (s : Session) (t : Nat) (r : Reply) : Turned :=
  match (s.tasks[t]?).map Task.progress with
  | some (.requesting purpose id written none) =>
    ⟨s.moveTask t (.requesting purpose id written (some r)), if written then [.wake t] else []⟩
  | _ => ⟨s, []⟩

/-- Gives the same reply to tasks in turn. -/
def replyAll (r : Reply) : List Nat → Session → Turned
  | [], s => ⟨s, []⟩
  | t :: rest, s => (s.reply t r).andThen (replyAll r rest)

/-- Fails every pending request. -/
def failPending (s : Session) (reason : String) : Turned :=
  replyAll (.error (closedFailure reason)) (s.pending.map (·.2)) { s with pending := [] }

/-! ## Responses -/

/-- The pending request that a message id is about. Numbers are compared by value. -/
def pendingFor? (s : Session) (id : Json) : Option (Nat × Nat) :=
  match id.wholeNumber? with
  | some n => s.pending.find? fun p => (p.1 : Int) = n
  | none => none

/-- Whether a value can name a request at all. -/
def isRequestId : Json → Bool
  | .arr _ | .obj _ => false
  | _ => true

/-- Gives a response to the request with its id. An id that cannot name a request is refused once
there are requests to look for. -/
def receiveResponse (s : Session) (ms : Members) : Turned :=
  let id := Json.field (.obj ms) "id"
  if isRequestId id || s.pending.isEmpty then
    match s.pendingFor? id with
    | some (request, task) => (s.dropRequest request).reply task (.ok (.obj ms))
    | none => ⟨s, [logged .debug "response for unknown request" [("id", id)]]⟩
  else ⟨s, [.refused]⟩

/-! ## Diagnostics -/

def diagnosticsMethod : String := "textDocument/publishDiagnostics"

/-- Whether a diagnostic is left out. -/
def Profile.hides (p : Profile) (d : Diagnostic) : Bool :=
  (p.hidesWarnings && d.severity == Diagnostic.warningSeverity) ||
    (p.hidesErrors && d.severity == Diagnostic.errorSeverity)

/-- The well-formed diagnostics of a report. -/
def wellFormed (entries : List Json) : List Diagnostic :=
  entries.filterMap fun e => (Diagnostic.check e).toOption

/-- One line for each malformed diagnostic of a report. -/
def malformedLines (entries : List Json) : List Effect :=
  entries.filterMap fun e =>
    match Diagnostic.check e with
    | .valid _ => none
    | .invalid issues => some (logged .warn "skipping malformed diagnostic"
        [("error", .str (Failure.invalid "LSPDiagnostic" issues).text)])

/-- Takes over a report if it is about the document; none if it cannot be run through. -/
def receiveDiagnostics (s : Session) (params : Members) : Option Turned :=
  if Named.get? params "uri" = some (.str s.profile.uri) then
    match (Json.field (.obj params) "diagnostics").partsOrNone? with
    | none => none
    | some entries =>
      let kept := (wellFormed entries).filter fun d => !s.profile.hides d
      some ⟨{ s with diagnostics := kept }, malformedLines entries ++
        [logged .info diagnosticsMethod
          [("path", .str s.profile.path), ("count", .int kept.length)]]⟩
  else some ⟨s, []⟩

/-- Takes over what a message says about diagnostics, if anything. -/
def noticeDiagnostics (s : Session) (method params : Json) : Option Turned :=
  match method, params with
  | .str m, .obj ps => if m = diagnosticsMethod then s.receiveDiagnostics ps else some ⟨s, []⟩
  | _, _ => some ⟨s, []⟩

/-! ## Messages -/

/-- Starts a task that nobody waits for. -/
def spawn (s : Session) (job : Job) : Turned :=
  let (s, t) := s.addTask job
  ⟨{ s with background := s.background ++ [t] }, [.start t]⟩

/-- Answers a message if it is a request. -/
def answerRequest (s : Session) (id : Option Json) (method params : Json) : Turned :=
  match id with
  | some id => s.spawn (.answer id method params)
  | none => ⟨s, []⟩

/-- Tells subscribers of a message; its method has to be a text. -/
def tellOf (s : Session) (id : Option Json) (method params : Json) : Turned :=
  match method with
  | .str m => s.spawn (.publish ⟨m, params, id.getD .null⟩)
  | _ => ⟨s, [.refused]⟩

/-- Handles a message of the server's own. -/
def receiveMethod (s : Session) (ms : Members) (method : Json) : Turned :=
  let params := Json.field (.obj ms) "params"
  let id := Named.get? ms "id"
  match s.noticeDiagnostics method params with
  | none => ⟨s, [.refused]⟩
  | some noticed =>
    (noticed.andThen fun s => s.answerRequest id method params).andThen fun s =>
      s.tellOf id method params

/-- Handles a message. -/
def receive (s : Session) : Json → Turned
  | .obj ms =>
    match Named.get? ms "method" with
    | some method => s.receiveMethod ms method
    | none => s.receiveResponse ms
  | _ => ⟨s, [.refused]⟩

end EditorServices.Session
