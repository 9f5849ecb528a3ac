import EditorServices.Session.Loop

/-!
# `Cli.Errand` — calls that are made in turn, and the disposal after them

Who asks a server one question makes a few calls of a session, each when the one before it is over. The
first call that fails is the last one. The session is disposed of in any case, and what the calls gave is
the outcome then, unless the disposal fails itself.

## Contents
- **Errands.** `Errand`: the call that is under way, `call?`, and what its outcome leads to, `next`.
- **In a loop.** `Conversation`, an errand on a session in its event loop; `run` takes any row of
  happenings, so that what holds of every run holds of every order in which the loop serves.
-/

namespace EditorServices

namespace Cli

open Session (Call Answer Query Profile Loop)

/-! ## Errands -/

/-- How far someone has come with a few calls and the disposal after them. -/
inductive Errand where
  /-- A call is under way, and these come after it. -/
  | making (c : Call) (rest : List Call)
  /-- The session is being disposed of; the calls gave this. -/
  | disposing (outcome : Except Failure Answer)
  | ended (outcome : Except Failure Answer)
deriving DecidableEq

namespace Errand

/-- The calls of a question: the handshake, the document and the question itself. -/
def calls (q : Query) (line character : Nat) : List Call :=
  [.handshake, .openDocument, .ask q (.int line) (.int character)]

/-- An errand before its first call is over. Without calls there is nothing but the disposal. -/
def of : List Call → Errand
  | [] => .disposing (.ok .done)
  | c :: rest => .making c rest

/-- The call that is under way. -/
def call? : Errand → Option Call
  | .making c _ => some c
  | .disposing _ => some .dispose
  | .ended _ => none

/-- What the calls gave that are over. -/
def gave : Errand → Except Failure Answer
  | .making _ _ => .ok .done
  | .disposing outcome | .ended outcome => outcome

/-- What the outcome of the call under way leads to. -/
def next : Errand → Except Failure Answer → Errand
  | .making _ _, .error f => .disposing (.error f)
  | .making _ [], .ok a => .disposing (.ok a)
  | .making _ (c :: rest), .ok _ => .making c rest
  | .disposing _, .error f => .ended (.error f)
  | .disposing outcome, .ok _ => .ended outcome
  | .ended outcome, _ => .ended outcome

/-- The number of calls that an errand can still come to, the one under way among them. -/
def left : Errand → Nat
  | .making _ rest => rest.length + 2
  | .disposing _ => 1
  | .ended _ => 0

theorem left_next {e : Errand} {c : Call} (h : e.call? = some c) (r : Except Failure Answer) :
    (e.next r).left < e.left := by
  cases e with
  | ended outcome => cases h
  | disposing outcome => cases r <;> exact Nat.zero_lt_one
  | making d rest =>
    cases r with
    | error f => simp [next, left]
    | ok a => cases rest <;> simp [next, left]

end Errand

/-! ## In a loop -/

/-- An errand on a session in its event loop. -/
structure Conversation where
  loop : Loop
  errand : Errand
  /-- The task of the latest call. -/
  task : Nat

/-- Something that happens in a conversation. -/
inductive Happening where
  /-- The demand at a place is served; a file that is read gives this. -/
  | serve (place : Nat) (text : Except Failure String)
  /-- The server sends a message. -/
  | arrive (m : Json)
  /-- The inbound stream ends. -/
  | endStream (reason : String) (error : Option String)
  /-- The operation at a place fails in a way of its own. -/
  | fail (place : Nat) (f : Failure)
  /-- The errand goes on, if the call under way is over. -/
  | goOn

/-- Nothing is done for the demand at a place if that is an operation, and its task gets a failure. Closing a
channel does not fail. -/
def failAt (l : Loop) (place : Nat) (f : Failure) : Loop :=
  match l.demands[place]? with
  | some (.operation _ .closeChannel) => l
  | some (.operation t _) =>
    { l with demands := l.demands.set place (.turn (.resume t (.returned (.error f)))) }
  | _ => l

namespace Conversation

/-- A call is made in a loop for an errand. -/
def make (l : Loop) (e : Errand) (c : Call) : Conversation :=
  ⟨l.step (.call c), e, l.session.tasks.length⟩

/-- A conversation whose first call was just made, on a channel that was not opened yet. -/
def new (p : Profile) (peer : Channel.Peer) (surroundings : Channel.Surroundings) (q : Query)
    (line character : Nat) : Conversation :=
  make (.new p peer surroundings) (.of (Errand.calls q line character)) .handshake

/-- Makes the next call when the call under way is over. -/
def goOn (x : Conversation) : Conversation :=
  match x.loop.outcome? x.task with
  | none => x
  | some r =>
    match (x.errand.next r).call? with
    | some c => make x.loop (x.errand.next r) c
    | none => { x with errand := x.errand.next r }

/-- What happens next. -/
def step (x : Conversation) : Happening → Conversation
  | .serve place text => { x with loop := x.loop.step (.serve place text) }
  | .arrive m => { x with loop := x.loop.step (.arrive m) }
  | .endStream reason error => { x with loop := x.loop.step (.endStream reason error) }
  | .fail place f => { x with loop := failAt x.loop place f }
  | .goOn => x.goOn

/-- A row of happenings. -/
def run (x : Conversation) : List Happening → Conversation
  | [] => x
  | h :: rest => (x.step h).run rest

end Conversation

end Cli

end EditorServices
