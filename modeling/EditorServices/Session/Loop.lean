import EditorServices.Session.Turn
import EditorServices.Transport.Channel

/-!
# `Session.Loop` — a session on its channel, in every order of events

What the turns of a session ask for is done by an event loop and by threads beside it: turns are taken,
operations are done on the channel, messages come out of the inbound stream. In between, callers make
calls and give up. Nothing is said here about the order in which the loop serves what it was asked for;
a run is any row of occurrences, so that what holds of every run holds of every order.

An operation is done at one moment, and its result reaches its task at a later one. Messages are handed
to the session in the order in which they arrived, and the end of the stream after all of them.

## Contents
- **Demands.** `Demand`, what a turn asks for.
- **The loop.** `Loop`, with the turns that it took and the effects that they had.
- **Occurrences.** `Occurrence`, and what each does: `serve`, `step`, `run`.
-/

namespace EditorServices.Session

/-! ## Demands -/

/-- Something that is to be done for a session. -/
inductive Demand where
  /-- A turn is to be taken. -/
  | turn (u : Turn)
  /-- An operation is to be done for a task. -/
  | operation (task : Nat) (o : Operation)
  /-- The inbound stream is to be listened to for a task. -/
  | listening (task : Nat)
deriving DecidableEq

/-- What an effect asks for, if anything. -/
def Demand.of? : Effect → Option Demand
  | .perform t o => some (.operation t o)
  | .listen t => some (.listening t)
  | .start t => some (.turn (.resume t .begins))
  | .wake t => some (.turn (.resume t .replied))
  | .pause t | .sleep t _ => some (.turn (.resume t .rested))
  | .rejoin t => some (.turn (.resume t .readerFinished))
  | .cancel t => some (.turn (.resume t .cancelled))
  | .account t f => some (.turn (.account t f))
  | .completed _ _ | .told _ _ _ | .refused | .log _ => none

/-! ## The loop -/

/-- A session in an event loop, on its channel. -/
structure Loop where
  session : Session
  channel : Channel
  /-- What is still to be done. -/
  demands : List Demand
  /-- The messages that arrived and were not handed over yet. -/
  arrived : List Json
  /-- Why the inbound stream ended, and the error of reading it, if there was one. -/
  streamEnd : Option (String × Option String)
  /-- The turns that were taken. -/
  taken : List Turn
  /-- The effects that they had. -/
  effects : List Effect

/-- Something that happens. -/
inductive Occurrence where
  /-- Someone makes a call. -/
  | call (c : Call)
  /-- The demand at a place is served; a file that is read gives this. -/
  | serve (place : Nat) (text : Except Failure String)
  /-- The server sends a message. -/
  | arrive (m : Json)
  /-- The inbound stream ends. -/
  | endStream (reason : String) (error : Option String)
  /-- The caller of a call gives up. -/
  | giveUp (task : Nat)

namespace Loop

/-- A loop before anything happened, on a channel that was not opened yet. -/
def new (p : Profile) (peer : Channel.Peer) (surroundings : Channel.Surroundings) : Loop :=
  ⟨.new p, .new peer surroundings [], [], [], none, [], []⟩

/-! ## Occurrences -/

/-- Takes a turn. -/
def take (l : Loop) (u : Turn) : Loop :=
  let r := l.session.step u
  { l with
    session := r.session
    demands := l.demands ++ r.effects.filterMap Demand.of?
    taken := l.taken ++ [u]
    effects := l.effects ++ r.effects }

/-- Does an operation on a channel. -/
def perform (c : Channel) (text : Except Failure String) : Operation → Channel × Except Failure String
  | .openChannel => (c.start.channel, c.start.result.map fun _ => "")
  | .closeChannel => (c.close.1, .ok "")
  | .send m => ((c.write m).channel, (c.write m).result.map fun _ => "")
  | .readFile _ => (c, text)

/-- Serves what is listened for: the next message, or the end of the stream after the last. -/
def listen (l : Loop) (place task : Nat) : Loop :=
  match l.arrived, l.streamEnd with
  | m :: rest, _ => { l with arrived := rest }.take (.receive m)
  | [], some (reason, error) =>
    { l with demands := l.demands.eraseIdx place }.take (.resume task (.streamEnded reason error))
  | [], none => l

/-- Serves the demand at a place. An operation that is done leaves its result to be taken. -/
def serve (l : Loop) (place : Nat) (text : Except Failure String) : Loop :=
  match l.demands[place]? with
  | some (.turn u) => { l with demands := l.demands.eraseIdx place }.take u
  | some (.operation t o) =>
    { l with
      channel := (perform l.channel text o).1
      demands := l.demands.set place (.turn (.resume t (.returned (perform l.channel text o).2))) }
  | some (.listening t) => l.listen place t
  | none => l

/-- What came of a call, if it is over. -/
def outcome? (l : Loop) (task : Nat) : Option (Except Failure Answer) :=
  l.effects.findSome? fun
    | .completed t r => if t = task then some r else none
    | _ => none

/-- Whether a task is a call. -/
def isCall (s : Session) (t : Nat) : Bool :=
  match (s.tasks[t]?).map Task.job with
  | some (.call _) => true
  | _ => false

/-- What an occurrence does. A stream that has ended gives no more messages. -/
def step (l : Loop) : Occurrence → Loop
  | .call c => l.take (.call c)
  | .serve place text => l.serve place text
  | .arrive m => if l.streamEnd.isSome then l else { l with arrived := l.arrived ++ [m] }
  | .endStream reason error =>
    if l.streamEnd.isSome then l else { l with streamEnd := some (reason, error) }
  | .giveUp t => if isCall l.session t then l.take (.resume t .cancelled) else l

/-- A row of occurrences. -/
def run (l : Loop) : List Occurrence → Loop
  | [] => l
  | x :: rest => (l.step x).run rest

end Loop

end EditorServices.Session
