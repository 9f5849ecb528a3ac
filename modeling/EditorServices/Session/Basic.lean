import EditorServices.Bus.Basic
import EditorServices.Diagnostic
import EditorServices.Document
import EditorServices.Log.Line
import EditorServices.Session.Message

/-!
# `Session.Basic` — a session with a language server, and what it wants from the outside

A session holds one conversation with a server about one document. Everything that happens in it
belongs to a task: a call of the editor, the reader of the inbound stream, an answer to a request of
the server, or the telling of subscribers. A task runs until it has to wait; what it waits for is
its progress. Tasks never wait inside the session, so that what the outside does between two turns
is free.

## Contents
- **Phases.** `Phase`, in the order in which a session goes through them.
- **Tasks.** `Call`, `Job`, `Progress` and `Task`.
- **Subscribers.** What they do when they are told.
- **Writers.** `Writer`, which a session stops when it is disposed of.
- **The session.** `Session`, its tasks, its pending requests, whether it is open.
- **Towards the outside.** `Resumption`, how a wait ends, and `Effect`, what a turn asks for.
-/

namespace EditorServices

namespace Session

/-! ## Phases -/

/-- How far a session has come. -/
inductive Phase where
  | uninitialized
  | initializing
  | ready
  | disposed
deriving DecidableEq, Repr

namespace Phase

def rank : Phase → Nat
  | .uninitialized => 0
  | .initializing => 1
  | .ready => 2
  | .disposed => 3

def name : Phase → String
  | .uninitialized => "uninitialized"
  | .initializing => "initializing"
  | .ready => "ready"
  | .disposed => "disposed"

end Phase

/-! ## Tasks -/

/-- What an editor asks a session to do. -/
inductive Call where
  | handshake
  | openDocument
  /-- Sends a new text, as it is given. -/
  | updateDocument (text : Json)
  | closeDocument
  /-- Asks about a position, which the server is told as it is given. -/
  | ask (q : Query) (line character : Json)
  | dispose
deriving DecidableEq

/-- What a task is for. -/
inductive Job where
  | call (c : Call)
  /-- Reads the inbound stream to its end. -/
  | listen
  /-- Answers a request of the server. -/
  | answer (id method params : Json)
  /-- Tells subscribers of a message of the server. -/
  | publish (n : Notification)
deriving DecidableEq

/-- What a request is for. -/
inductive Purpose where
  | handshake
  | ask (q : Query)
deriving DecidableEq

/-- What becomes of a request: a response of the server, or why there is none. -/
abbrev Reply := Except Failure Json

/-! ## Subscribers -/

/-- What a subscriber does when it is told. -/
inductive Behaviour where
  | notes
  /-- Notes and then fails. -/
  | fails
  /-- Notes that it begins, lets others run, and notes then. -/
  | pauses
deriving DecidableEq, Repr

/-- Someone who may be told of messages of the server. -/
structure Subscriber where
  name : String
  behaviour : Behaviour
deriving DecidableEq, Repr

/-- How far a task has come: what it waits for. -/
inductive Progress where
  /-- For its first turn. -/
  | created
  /-- For the channel to be open. -/
  | openingChannel
  /-- For a request to be written, and then for its reply, which may come before. -/
  | requesting (purpose : Purpose) (id : Nat) (written : Bool) (reply : Option Reply)
  /-- For the end of the handshake to be written. -/
  | announcing
  /-- For the text of the document. -/
  | reading
  /-- For the opening of the document to be written. -/
  | opening
  /-- For the server to look at the opened document. -/
  | settling
  /-- For a change of the document to be written. -/
  | updating
  /-- For the closing of the document to be written. -/
  | closing
  /-- For an answer to the server to be written. -/
  | answering
  /-- For a subscriber that lets others run; the subscribers after it are told later. -/
  | telling (current : Subscriber) (rest : List Bus.Subscription)
  /-- For the end of the inbound stream. -/
  | listening
  /-- For the channel to be closed. -/
  | closingChannel
  /-- For a reader to be finished. -/
  | awaitingReader (reader : Nat)
  | finished
deriving DecidableEq

/-- A task with its progress. -/
structure Task where
  job : Job
  progress : Progress
deriving DecidableEq

/-! ## Writers -/

/-- What writes the messages of a session, in the order in which it is given them. -/
inductive Writer where
  /-- A thread. -/
  | running
  /-- A thread that takes no more messages. What it was given before is still written. -/
  | stopped
  /-- No thread: messages are written where they are given, and there is nothing to stop. -/
  | inPlace
deriving DecidableEq, Repr

/-- A writer that is not needed any longer. -/
def Writer.stop : Writer → Writer
  | .running | .stopped => .stopped
  | .inPlace => .inPlace

end Session

/-! ## The session -/

/-- A session with a server about one document. Tasks are known by their place in the list. -/
structure Session where
  profile : Session.Profile
  phase : Session.Phase
  /-- The document while it is open. -/
  document : Option DocumentHandle
  /-- What the server last reported about the document. -/
  diagnostics : List Diagnostic
  /-- The id of the latest request that was given to the writer. -/
  lastRequest : Nat
  /-- The requests without a reply, each with the task that waits for it. -/
  pending : List (Nat × Nat)
  /-- Why the inbound stream has ended, if it has. -/
  ended : Option String
  bus : Bus
  subscribers : List Session.Subscriber
  tasks : List Session.Task
  /-- The tasks that nobody waits for and that are not accounted for yet. -/
  background : List Nat
  /-- The latest reader. -/
  reader : Option Nat
  writer : Session.Writer

namespace Session

/-- A session before its first call. -/
def new (p : Profile) : Session :=
  ⟨p, .uninitialized, none, [], 0, [], none, .empty, [], [], [], none, .running⟩

/-- The ids of the requests without a reply, in rising order. -/
def pendingIds (s : Session) : List Nat := (s.pending.map (·.1)).mergeSort

/-- Sets the progress of a task. -/
def moveTask (s : Session) (t : Nat) (p : Progress) : Session :=
  { s with tasks := s.tasks.modify t fun task => { task with progress := p } }

/-- Adds a task that waits for its first turn. -/
def addTask (s : Session) (job : Job) : Session × Nat :=
  ({ s with tasks := s.tasks ++ [⟨job, .created⟩] }, s.tasks.length)

/-- Takes a request from the pending ones. -/
def dropRequest (s : Session) (id : Nat) : Session :=
  { s with pending := s.pending.filter (·.1 != id) }

/-- Why a session is closed, if it is. -/
def whyClosed? (s : Session) : Option String :=
  if s.phase = .disposed then some "session disposed" else s.ended

/-- The failure of what is tried after the end. -/
def closedFailure (reason : String) : Failure := .channelClosed reason none

/-- The failure of what is given to a writer that was stopped. -/
def writerStopped : Failure := .runtime "cannot schedule new futures after shutdown"

/-- Why a message is not given to the writer, if so. -/
def refusal? (s : Session) : Option Failure :=
  match s.whyClosed? with
  | some reason => some (closedFailure reason)
  | none => if s.writer = .stopped then some writerStopped else none

/-! ## Subscribing -/

/-- Subscribes someone to the messages of the server; no ticket once the bus is closed. -/
def subscribe (s : Session) (who : Subscriber) : Session × Option Bus.Ticket :=
  let (bus, ticket) := s.bus.subscribe Notification.eventType s.subscribers.length
  ({ s with bus := bus, subscribers := s.subscribers ++ [who] }, ticket)

def unsubscribe (s : Session) (ticket : Option Bus.Ticket) : Session :=
  match ticket with
  | some t => { s with bus := s.bus.unsubscribe t }
  | none => s

/-! ## Towards the outside -/

/-- How a wait of a task ends. -/
inductive Resumption where
  /-- The task has its first turn. -/
  | begins
  /-- An operation is over; a file that was read gives its text. -/
  | returned (r : Except Failure String)
  /-- A request has its reply. -/
  | replied
  /-- A pause is over. -/
  | rested
  /-- The inbound stream is over: why, and the error of reading it if there was one. -/
  | streamEnded (reason : String) (error : Option String)
  /-- The reader is finished. -/
  | readerFinished
  /-- The task has to give up. -/
  | cancelled
deriving DecidableEq

/-- What the outside is asked to do for a task. -/
inductive Operation where
  | openChannel
  | closeChannel
  | send (message : Json)
  | readFile (path : String)
deriving DecidableEq

/-- What a turn asks for and what it lets be known. -/
inductive Effect where
  /-- Does an operation and then resumes the task. -/
  | perform (task : Nat) (o : Operation)
  /-- Listens to the inbound stream for a task. -/
  | listen (task : Nat)
  /-- Gives a new task its first turn. -/
  | start (task : Nat)
  /-- Resumes a task whose request has its reply. -/
  | wake (task : Nat)
  /-- Lets others run. -/
  | pause (task : Nat)
  /-- Waits for some seconds. -/
  | sleep (task : Nat) (seconds : Json)
  /-- Resumes a task that waits for a finished reader. -/
  | rejoin (task : Nat)
  /-- Makes a task give up. -/
  | cancel (task : Nat)
  /-- Accounts for a task that nobody waits for. -/
  | account (task : Nat) (failure : Option Failure)
  /-- A call is over. -/
  | completed (task : Nat) (outcome : Except Failure Answer)
  /-- A subscriber is told of a message; one that pauses is told at its beginning also. -/
  | told (who : String) (beginning : Bool) (n : Notification)
  /-- A message could not be handled. -/
  | refused
  | log (e : Log.Entry)

/-- A session after a turn, and the effects of the turn in order. -/
structure Turned where
  session : Session
  effects : List Effect

/-- A turn with effects before those that it has. -/
def Turned.after (effects : List Effect) (r : Turned) : Turned :=
  { r with effects := effects ++ r.effects }

/-- A turn and what is done next in it. -/
def Turned.andThen (r : Turned) (f : Session → Turned) : Turned := (f r.session).after r.effects

/-- The service under which sessions report. -/
def service : String := "lsp.client"

def logged (level : Log.Level) (message : String) (extra : Members) : Effect :=
  .log ⟨level, service, message, extra⟩

end Session

end EditorServices
