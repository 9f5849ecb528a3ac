import EditorServices.Session.Turn
import EditorServices.Text.Utf8Fault
import EditorServices.Transport.Scripted

/-!
# `Session.Play` — a session with a scripted server, turn after turn

Turns are taken in the order in which they were asked for. An operation is done at once, and its
result reaches the task two places later; everything else takes one place. A play goes on until
there is nothing left to do.

## Contents
- **What is seen.** `Note`.
- **Plays.** `Play` and its queue.
- **Effects.** What each effect of a turn does.
- **From the outside.** Calls, messages of the server, the end of the stream, subscribers.
- **Running.** `Play.run`.
-/

namespace EditorServices.Session

open Transport (ScriptedServer)

/-! ## What is seen -/

/-- Something that can be seen of a play. -/
inductive Note where
  | sent (message : Json)
  | read (path : String)
  | told (who : String) (beginning : Bool) (n : Notification)
  | slept (seconds : Json)
  | completed (task : Nat) (outcome : Except Failure Answer)
  | refused
  | log (e : Log.Entry)

/-! ## Plays -/

/-- What waits in the queue. -/
inductive Queued where
  | turn (t : Turn)
  /-- A result on its way to a task. -/
  | landing (task : Nat) (r : Resumption)

/-- The task that something in the queue resumes. -/
def Queued.task? : Queued → Option Nat
  | .turn (.resume t _) | .landing t _ => some t
  | .turn _ => none

/-- The end of the inbound stream: the error of reading it, if there is one. -/
abbrev StreamEnd := Option String

/-- A session with a scripted server. -/
structure Play where
  session : Session
  server : ScriptedServer
  /-- What is found under the path of the document. -/
  file : Option Bytes
  queue : List Queued
  /-- The task that reads the inbound stream, once there is one. -/
  listener : Option Nat
  /-- The messages that came before anyone listened. -/
  held : List Json
  streamEnd : Option StreamEnd
  notes : List Note

namespace Play

/-- A play before anything happened. Nothing is written by a thread in it. -/
def new (p : Profile) (server : ScriptedServer) (file : Option Bytes) : Play :=
  ⟨{ Session.new p with writer := .inPlace }, server, file, [], none, [], none, []⟩

/-- Puts something at the end of the queue. -/
def enqueue (y : Play) (q : Queued) : Play := { y with queue := y.queue ++ [q] }

def note (y : Play) (n : Note) : Play := { y with notes := y.notes ++ [n] }

/-- Lets a turn be taken. -/
def schedule (y : Play) (t : Turn) : Play := y.enqueue (.turn t)

/-! ## From the outside -/

/-- A message arrives from the server. It is kept until someone listens, and lost after the end. -/
def push (y : Play) (message : Json) : Play :=
  if y.streamEnd.isSome then y
  else if y.listener.isSome then y.schedule (.receive message)
  else { y with held := y.held ++ [message] }

/-- How a stream that has ended looks to its reader. -/
def endTurn (y : Play) (reader : Nat) (e : StreamEnd) : Turn :=
  .resume reader (.streamEnded y.server.exitReason e)

/-- The inbound stream ends. -/
def endStream (y : Play) (e : StreamEnd) : Play :=
  if y.streamEnd.isSome then y
  else
    let y := { y with streamEnd := some e }
    match y.listener with
    | some reader => y.schedule (y.endTurn reader e)
    | none => y

/-! ## Effects -/

/-- The result of an operation, which is done at once. Closing the channel ends the inbound
stream. -/
def perform (y : Play) : Operation → Play × Except Failure String
  | .openChannel =>
    let (server, r) := y.server.start
    ({ y with server := server }, r.map fun _ => "")
  | .closeChannel => ({ y with server := y.server.close }.endStream none, .ok "")
  | .readFile path =>
    (y.note (.read path),
      match y.file with
      | none => .error .missingFile
      | some bytes =>
        match readFileText bytes with
        | .ok text => .ok (String.ofList text)
        | .error detail => .error (.malformedText detail))
  | .send message =>
    match y.server.canWrite with
    | .error f => (y, .error f)
    | .ok () =>
      let y := y.note (.sent message)
      match y.server.replyTo message with
      | .error f => (y, .error f)
      | .ok (some answer) => (y.push answer, .ok "")
      | .ok none =>
        (if y.server.endsUnanswered && ScriptedServer.isRequest message then y.endStream none
          else y, .ok "")

/-- Starts to listen: messages that were kept arrive, and an end that came before takes effect. -/
def listen (y : Play) (reader : Nat) : Play :=
  let y := { y with
    listener := some reader
    held := []
    queue := y.queue ++ y.held.map fun m => Queued.turn (.receive m) }
  match y.streamEnd with
  | some e => y.schedule (y.endTurn reader e)
  | none => y

/-- Whether a task is to be resumed at its place in the queue. -/
def isDue (y : Play) (t : Nat) : Bool :=
  y.queue.any fun
    | .turn (.resume u _) => u == t
    | _ => false

/-- Makes a task give up: where it is to be resumed, or else after all others. Results on their way
to it are lost. -/
def cancel (y : Play) (t : Nat) : Play :=
  if y.isDue t then
    { y with queue := y.queue.map fun
        | .turn (.resume u r) => .turn (.resume u (if u == t then .cancelled else r))
        | q => q }
  else
    { y with queue := y.queue.filter fun q => q.task? != some t }.schedule (.resume t .cancelled)

/-- What an effect does. -/
def apply (y : Play) : Effect → Play
  | .perform t o =>
    let (y, r) := y.perform o
    y.enqueue (.landing t (.returned r))
  | .listen t => y.listen t
  | .start t => y.schedule (.resume t .begins)
  | .wake t => y.schedule (.resume t .replied)
  | .pause t => y.schedule (.resume t .rested)
  | .sleep t seconds => (y.note (.slept seconds)).schedule (.resume t .rested)
  | .rejoin t => y.enqueue (.landing t .readerFinished)
  | .cancel t => y.cancel t
  | .account t f => y.schedule (.account t f)
  | .completed t r => y.note (.completed t r)
  | .told who beginning n => y.note (.told who beginning n)
  | .refused => y.note .refused
  | .log e => y.note (.log e)

/-- Takes a turn. -/
def take (y : Play) (t : Turn) : Play :=
  let r := y.session.step t
  r.effects.foldl apply { y with session := r.session }

/-- Makes a call, and tells the task that it is. -/
def call (y : Play) (c : Call) : Play × Nat := (y.take (.call c), y.session.tasks.length)

/-! ## Running -/

/-- Deals with the first in the queue. -/
def advance (y : Play) : Queued → Play
  | .turn t => y.take t
  | .landing t r => y.schedule (.resume t r)

/-- Runs for at most `fuel` places of the queue. -/
def runFor : Nat → Play → Play
  | 0, y => y
  | fuel + 1, y =>
    match y.queue with
    | [] => y
    | q :: rest => runFor fuel ({ y with queue := rest }.advance q)

/-- A number of places that no play goes beyond. A call takes at most some thirty, a message of the
server those of an answer and of one pause for each subscriber, and each call makes at most one
request. -/
def placesLeft (y : Play) : Nat :=
  64 * (y.queue.length + y.held.length + y.session.tasks.length + 1) * (y.session.bus.count + 2)

/-- Runs until there is nothing left to do. -/
def run (y : Play) : Play := runFor y.placesLeft y

/-- What came of a call, if it is over. -/
def outcome? (y : Play) (task : Nat) : Option (Except Failure Answer) :=
  y.notes.findSome? fun
    | .completed t r => if t = task then some r else none
    | _ => none

/-- Makes a call and runs until there is nothing left to do. A call that is not over then counts as
cancelled. -/
def complete (y : Play) (c : Call) : Play × Except Failure Answer :=
  let (y, task) := y.call c
  let y := y.run
  (y, (y.outcome? task).getD (.error .cancelled))

end Play

end EditorServices.Session
