import EditorServices.Session.Inbound

/-!
# `Session.Turn` — the turns of a session's tasks

A turn starts when something happened that a task, or the session, has to deal with, and ends when
there is nothing left to do before something else happens. Any order of turns is possible, since the
outside decides when an operation returns and when a message arrives.

## Contents
- **Ends.** `finish`, with which a task is over, `transmit` and `ask`, with which it goes on.
- **Beginnings.** `begin`, the first turn of each kind of task.
- **Continuations.** One for each thing that a task can wait for.
- **Turns.** `resume`, `step`, and `run` for a history.
-/

namespace EditorServices.Session

/-! ## Ends -/

/-- The tasks that wait for a reader. -/
def waitingFor (s : Session) (reader : Nat) : List Nat :=
  (List.range s.tasks.length).filter fun t =>
    match (s.tasks[t]?).map Task.progress with
    | some (.awaitingReader r) => r == reader
    | _ => false

/-- The failure of a task that nobody waits for, as it is accounted for. -/
def accountedFailure : Except Failure Answer → Option Failure
  | .ok _ => none
  | .error f => some f

/-- Ends a task. -/
def finish (s : Session) (t : Nat) (outcome : Except Failure Answer) : Turned :=
  match (s.tasks[t]?).map Task.job with
  | none => ⟨s, []⟩
  | some (.call _) => ⟨s.moveTask t .finished, [.completed t outcome]⟩
  | some .listen => ⟨s.moveTask t .finished, (s.waitingFor t).map .rejoin⟩
  | some (.answer _ _ _) | some (.publish _) =>
    ⟨s.moveTask t .finished, [.account t (accountedFailure outcome)]⟩

/-- Ends a task that did what it was for. -/
def succeed (s : Session) (t : Nat) : Turned := s.finish t (.ok .done)

/-- Ends a task that failed. -/
def giveUp (s : Session) (t : Nat) (f : Failure) : Turned := s.finish t (.error f)

/-- Sends a message if the session is open; the task goes on when it is written. -/
def transmit (s : Session) (t : Nat) (message : Json) (next : Progress) : Turned :=
  match s.refusal? with
  | some f => s.giveUp t f
  | none => ⟨s.moveTask t next, [.perform t (.send message)]⟩

/-- Sends a request under a new id; the task goes on when it has the reply. -/
def ask (s : Session) (t : Nat) (purpose : Purpose) (method : String) (params : Json) : Turned :=
  match s.refusal? with
  -- a writer that was stopped never takes a message again, so an id spent on it is not missed
  | some f => s.giveUp t f
  | none =>
    let id := s.lastRequest + 1
    let s := { s with lastRequest := id, pending := s.pending ++ [(id, t)] }
    ⟨s.moveTask t (.requesting purpose id false none),
      [.perform t (.send (request id method params))]⟩

/-- The line about a message that was written. -/
def written (method id : Json) : Effect := logged .debug "LSP ->" [("method", method), ("id", id)]

/-! ## Beginnings -/

/-- The line about a document or a session. -/
def aboutDocument (s : Session) (message : String) (name : String) (value : Json) : Effect :=
  logged .info message [("path", .str s.profile.path), (name, value)]

/-- Ends the session: pending requests fail, the document is forgotten, the channel is closed. -/
def beginDispose (s : Session) (t : Nat) : Turned :=
  if s.phase = .disposed then s.succeed t
  else
    let line := s.aboutDocument "disposing LSP session" "pending" (.int s.pending.length)
    (({ s with phase := .disposed }.failPending "session disposed").andThen fun s =>
      ⟨{ s with document := none }.moveTask t .closingChannel, [.perform t .closeChannel]⟩).after
      [line]

/-- Sends a new text of the document, if it is open, under the next version. -/
def beginUpdate (s : Session) (t : Nat) (text : Json) : Turned :=
  match s.document with
  | none => s.succeed t
  | some d =>
    let d := { d with version := d.version + 1 }
    { s with document := some d }.transmit t (changed d.uri d.version text) .updating

/-- Closes the document, if it is open. -/
def beginClose (s : Session) (t : Nat) : Turned :=
  match s.document with
  | none => s.succeed t
  | some d => s.transmit t (closed d.uri) .closing

/-- The first turn of a call. -/
def beginCall (s : Session) (t : Nat) : Call → Turned
  | .handshake =>
    ⟨{ s with phase := .initializing }.moveTask t .openingChannel, [.perform t .openChannel]⟩
  | .openDocument => ⟨s.moveTask t .reading, [.perform t (.readFile s.profile.path)]⟩
  | .updateDocument text => s.beginUpdate t text
  | .closeDocument => s.beginClose t
  | .ask q line character =>
    s.ask t (.ask q) q.method (q.params s.profile.uri line character)
  | .dispose => s.beginDispose t

/-- The first turn of an answer to the server. -/
def beginAnswer (s : Session) (t : Nat) (id method params : Json) : Turned :=
  match s.whyClosed? with
  | some reason => s.giveUp t (closedFailure reason)
  | none =>
    match answerTo s.profile method params with
    | .error f => s.giveUp t f
    | .ok result => s.transmit t (response id result) .answering

/-- The report on a subscriber that fails. -/
def subscriberFailed : Effect :=
  .log ⟨.error, "bus", "subscription callback failed",
    [("error", .str "boom"), ("type", .str Notification.eventType)]⟩

/-- Tells subscribers in turn, up to one that lets others run. -/
def tell (s : Session) (t : Nat) (n : Notification) : List Bus.Subscription → Turned
  | [] => s.succeed t
  | r :: rest =>
    match s.subscribers[r.callee.listenerId]? with
    | none => s.tell t n rest
    | some who =>
      match who.behaviour with
      | .notes => (s.tell t n rest).after [.told who.name false n]
      | .fails => (s.tell t n rest).after [.told who.name false n, subscriberFailed]
      | .pauses => ⟨s.moveTask t (.telling who rest), [.told who.name true n, .pause t]⟩

/-- The first turn of telling subscribers; those of this moment are told. -/
def beginPublish (s : Session) (t : Nat) (n : Notification) : Turned :=
  if s.bus.closed then s.succeed t
  else s.tell t n (s.bus.recipients Notification.eventType)

/-- The first turn of a task. -/
def begin (s : Session) (t : Nat) : Job → Turned
  | .call c => s.beginCall t c
  | .listen => ⟨s.moveTask t .listening, [.listen t]⟩
  | .answer id method params => s.beginAnswer t id method params
  | .publish n => s.beginPublish t n

/-! ## Continuations -/

/-- Reads the inbound stream from now on, and sends the first request. -/
def channelOpened (s : Session) (t : Nat) : Turned :=
  let (s, reader) := s.addTask .listen
  ({ s with reader := some reader }.ask t .handshake handshakeMethod
    (handshakeParams s.profile)).after [.start reader]

/-- Deals with the reply to a request. -/
def conclude (s : Session) (t : Nat) (purpose : Purpose) (id : Nat) (reply : Reply) : Turned :=
  let s := s.dropRequest id
  match reply, purpose with
  | .error f, _ => s.giveUp t f
  | .ok response, .handshake =>
    match errorOf? response with
    | some detail =>
      (s.giveUp t (.handshakeRejected detail)).after
        [logged .error "LSP initialize rejected" [("error", detail)]]
    | none => s.transmit t handshakeDone .announcing
  | .ok response, .ask q =>
    let lines := match errorOf? response with
      | some detail =>
        [logged .debug "LSP query failed" [("method", .str q.method), ("error", detail)]]
      | none => []
    (s.finish t (q.answer response)).after lines

/-- The method of a request. -/
def Purpose.method : Purpose → String
  | .handshake => handshakeMethod
  | .ask q => q.method

/-- Goes on after a request was written: the reply may be there. -/
def requestWritten (s : Session) (t : Nat) (purpose : Purpose) (id : Nat) (reply : Option Reply) :
    Turned :=
  (match reply with
    | some r => s.conclude t purpose id r
    | none => ⟨s.moveTask t (.requesting purpose id true none), []⟩).after
    [written (.str purpose.method) (.int id)]

/-- The handshake is over. -/
def announced (s : Session) (t : Nat) : Turned :=
  ({ s with phase := .ready }.succeed t).after
    [written (.str "initialized") .null,
      s.aboutDocument "LSP session initialized" "language" s.profile.languageId]

/-- Opens the document with a text under the version after the last one. Without a language that is
a text there is nothing to open it as. -/
def openWith (s : Session) (t : Nat) (text : String) : Turned :=
  let p := s.profile
  let version := (s.document.map DocumentHandle.version).getD 0 + 1
  match p.language with
  | .error f => s.giveUp t f
  | .ok language =>
    { s with document := some ⟨p.path, p.uri, language, p.workspace, version, true⟩ }.transmit t
      (opened p.uri language version text) .opening

/-- Stops the writer, and refuses further subscribers. -/
def shutDown (s : Session) : Session := { s with writer := s.writer.stop, bus := s.bus.close }

/-- Ends what the session still runs, and shuts the session down. -/
def wrapUp (s : Session) (t : Nat) : Turned :=
  (s.shutDown.succeed t).after (s.background.map .cancel)

/-- Whether a task is over. -/
def isFinished (s : Session) (t : Nat) : Bool :=
  match (s.tasks[t]?).map Task.progress with
  | some .finished | none => true
  | _ => false

/-- Stops the reader, if there is one, and waits for its end. -/
def channelClosed (s : Session) (t : Nat) : Turned :=
  match s.reader with
  | none => s.wrapUp t
  | some reader =>
    ⟨s.moveTask t (.awaitingReader reader),
      if s.isFinished reader then [.rejoin t] else [.cancel reader]⟩

/-- Why the stream ended, in words. -/
def endReason (reason : String) : Option String → String
  | some error => reason ++ ": " ++ error
  | none => if reason.isEmpty then "transport closed" else reason

/-- Notes why the inbound stream ended, and fails what is pending. -/
def noteEnd (s : Session) (reason : String) : Turned :=
  ({ s with ended := some reason }.failPending reason).after
    [logged .warn "LSP transport closed"
      [("reason", .str reason), ("pending", .int s.pending.length)]]

/-- Ends the reader; a session that was disposed of does not care why the stream ended. -/
def streamEnded (s : Session) (t : Nat) (reason : String) (error : Option String) : Turned :=
  let lines := match error with
    | some e => [logged .error "Error reading LSP messages" [("error", .str e)]]
    | none => []
  let noted := if s.phase = .disposed then ⟨s, []⟩ else s.noteEnd (endReason reason error)
  (noted.andThen fun s => s.succeed t).after lines

/-- Ends a task that has to give up. A request is no longer pending then; disposing goes on. -/
def abandon (s : Session) (t : Nat) : Progress → Turned
  | .finished => ⟨s, []⟩
  | .requesting _ id _ _ => (s.dropRequest id).giveUp t .cancelled
  | .awaitingReader _ => s.wrapUp t
  | _ => s.giveUp t .cancelled

/-- Goes on after an operation that succeeded. -/
def continueWith (s : Session) (t : Nat) (job : Job) (text : String) : Progress → Turned
  | .openingChannel => s.channelOpened t
  | .requesting purpose id false reply => s.requestWritten t purpose id reply
  | .announcing => s.announced t
  | .reading => s.openWith t text
  | .opening =>
    ⟨s.moveTask t .settling,
      [written (.str "textDocument/didOpen") .null, .sleep t s.profile.settleDelay]⟩
  | .updating => (s.succeed t).after [written (.str "textDocument/didChange") .null]
  | .closing =>
    ({ s with document := none }.succeed t).after [written (.str "textDocument/didClose") .null]
  | .answering =>
    let id := match job with
      | .answer id _ _ => id
      | _ => .null
    (s.succeed t).after [written .null id]
  | .closingChannel => s.channelClosed t
  | _ => ⟨s, []⟩

/-- Goes on after an operation that failed. -/
def continueWithout (s : Session) (t : Nat) (f : Failure) : Progress → Turned
  | .requesting _ id false _ => (s.dropRequest id).giveUp t f
  | .openingChannel | .announcing | .reading | .opening | .updating | .closing | .answering
  | .closingChannel => s.giveUp t f
  | _ => ⟨s, []⟩

/-! ## Turns -/

/-- Resumes a task. What it does not wait for is passed over. -/
def resume (s : Session) (t : Nat) (r : Resumption) : Turned :=
  match s.tasks[t]? with
  | none => ⟨s, []⟩
  | some ⟨job, progress⟩ =>
    match r, progress with
    | .begins, .created => s.begin t job
    | .returned (.ok text), p => s.continueWith t job text p
    | .returned (.error f), p => s.continueWithout t f p
    | .replied, .requesting purpose id true (some reply) => s.conclude t purpose id reply
    | .rested, .settling => s.succeed t
    | .rested, .telling who rest =>
      match job with
      | .publish n => (s.tell t n rest).after [.told who.name false n]
      | _ => ⟨s, []⟩
    | .streamEnded reason error, .listening => s.streamEnded t reason error
    | .readerFinished, .awaitingReader _ => s.wrapUp t
    | .cancelled, p => s.abandon t p
    | _, _ => ⟨s, []⟩

/-- Accounts for a task that nobody waits for. The end of the channel is no news, nor is giving
up. -/
def account (s : Session) (t : Nat) (f : Option Failure) : Turned :=
  ⟨{ s with background := s.background.erase t },
    match f with
    | none | some (.channelClosed _ _) | some .cancelled => []
    | some f => [logged .error "Error handling LSP message" [("error", .str f.text)]]⟩

/-- What a session has to deal with. -/
inductive Turn where
  /-- Someone makes a call. -/
  | call (c : Call)
  | resume (task : Nat) (r : Resumption)
  | receive (message : Json)
  | account (task : Nat) (failure : Option Failure)
deriving DecidableEq

/-- One turn. -/
def step (s : Session) : Turn → Turned
  | .call c =>
    let (s, t) := s.addTask (.call c)
    ⟨s, [.start t]⟩
  | .resume t r => s.resume t r
  | .receive m => s.receive m
  | .account t f => s.account t f

/-- A history of turns. -/
def run (s : Session) : List Turn → Turned
  | [] => ⟨s, []⟩
  | t :: rest => (s.step t).andThen fun s => s.run rest

theorem run_append (s : Session) (first second : List Turn) :
    s.run (first ++ second) = (s.run first).andThen fun s => s.run second := by
  induction first generalizing s with
  | nil => simp [run, Turned.andThen, Turned.after]
  | cons t rest ih => simp [run, ih, Turned.andThen, Turned.after]

end EditorServices.Session
