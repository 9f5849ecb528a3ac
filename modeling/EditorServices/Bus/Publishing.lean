import EditorServices.Bus.Basic
import EditorServices.Log.Line
import EditorServices.Schema.Checked

/-!
# `Bus.Publishing` — an event reaches its subscribers

Whoever is told of an event may do with the bus what it likes, and may fail. What it does is a program: one
call to the bus after the other, where each may depend on what came of those before and on what all callbacks
share. Who is told of an event is settled when the event is published, so that what callbacks do to the bus
meanwhile changes only later deliveries.

## Contents
- **Events.** `EventKind`, and the properties that fit one.
- **Programs.** `Program`, what someone does with a bus.
- **The floor.** The bus with the payloads of its publications, and the `History` of all that happened.
- **Publishing.** `publishTo`, which calls each recipient in turn; one that fails is reported.
-/

namespace EditorServices.Bus

open Schema

/-! ## Events -/

/-- A kind of event: its type, and the record that its properties have to be. -/
structure EventKind where
  type : String
  model : String
  read : Members → Checked Members

/-- Properties as they are given: as a value to be read, or as a record of a model. -/
inductive Properties where
  | plain (value : Json)
  | record (model : String) (members : Members)

/-- The properties that an event of a kind carries. -/
def EventKind.accept (k : EventKind) : Properties → Except Failure Members
  | .record model ms => if model = k.model then .ok ms else .error (.wrongProperties k.model)
  | .plain (.obj ms) => (k.read ms).outcome k.model
  | .plain _ => .error (.wrongProperties k.model)

/-! ## Programs -/

/-- How a listener subscribes. -/
inductive Mode where
  | event
  | all
  | once
deriving DecidableEq

/-- Subscribes a listener in a mode. -/
def enter (b : Bus) (mode : Mode) (type : String) (id : Nat) : Bus × Option Ticket :=
  match mode with
  | .event => b.subscribe type id
  | .all => b.subscribeAll id
  | .once => b.subscribeOnce type id

/-- What someone does with a bus, call by call. A call goes on with what came of it. Payloads are known by the
numbers of their publications, and `σ` is what all who use the bus share. -/
inductive Program (σ : Type) where
  | done
  | fail (text : String)
  | consult (next : σ → Program σ)
  | keep (change : σ → σ) (next : Program σ)
  | subscribe (mode : Mode) (type : String) (listener : Nat) (next : Option Ticket → Program σ)
  | unsubscribe (t : Ticket) (next : Program σ)
  | close (next : Program σ)
  /-- Asks whether the bus is closed and how many subscriptions there are. -/
  | survey (next : Bool → Nat → Program σ)
  | look (number : Nat) (next : Option Payload → Program σ)
  /-- Changes what a payload says. -/
  | amend (number : Nat) (p : Payload) (next : Program σ)
  | publish (kind : EventKind) (properties : Properties) (next : Except Failure Unit → Program σ)

/-! ## The floor -/

/-- What comes of the wish to publish. -/
inductive Start where
  /-- Too many publications are under way that wait for each other. -/
  | tooDeep
  | dropped
  | refused (f : Failure)
  | begun (number : Nat) (p : Payload)

/-- What happens on a bus. -/
inductive Event where
  | subscribed (s : Subscription)
  | unsubscribed (t : Ticket)
  | closed
  | amended (number : Nat) (p : Payload)
  | publishing (kind : EventKind) (properties : Properties) (start : Start)
  /-- A callback is called for a publication, with its payload as it is then. -/
  | called (number : Nat) (callee : Callee) (p : Payload)
  | delivered (number : Nat)

/-- What happened, the latest last. -/
abbrev History := List Event

/-- A bus with the payloads of its publications, and what its users share. -/
structure Floor (σ : Type) where
  bus : Bus
  payloads : List Payload
  entries : List Log.Entry
  shared : σ
  history : History

namespace Floor

variable {σ : Type}

/-- A bus that was not used yet. -/
def new (shared : σ) : Floor σ := ⟨.empty, [], [], shared, []⟩

/-- The service under which failing callbacks are reported. -/
def service : String := "bus"

/-- Something happened. -/
def happened (f : Floor σ) (es : History) : Floor σ := { f with history := f.history ++ es }

@[simp] theorem bus_happened (f : Floor σ) (es : History) : (f.happened es).bus = f.bus := rfl

@[simp] theorem payloads_happened (f : Floor σ) (es : History) :
    (f.happened es).payloads = f.payloads := rfl

@[simp] theorem history_happened (f : Floor σ) (es : History) :
    (f.happened es).history = f.history ++ es := rfl

def subscribe (f : Floor σ) (mode : Mode) (type : String) (listener : Nat) : Floor σ × Option Ticket :=
  let (bus, ticket) := enter f.bus mode type listener
  ({ f with bus := bus }.happened (ticket.map Event.subscribed).toList, ticket)

def unsubscribe (f : Floor σ) (t : Ticket) : Floor σ :=
  { f with bus := f.bus.unsubscribe t }.happened [.unsubscribed t]

def close (f : Floor σ) : Floor σ := { f with bus := f.bus.close }.happened [.closed]

def amend (f : Floor σ) (number : Nat) (p : Payload) : Floor σ :=
  { f with payloads := f.payloads.set number p }.happened [.amended number p]

/-- Reports that a callback failed. -/
def report (f : Floor σ) (type text : String) : Floor σ :=
  { f with entries := f.entries ++ [⟨.error, service, "subscription callback failed",
      [("error", .str text), ("type", .str type)]⟩] }

/-! ## Publishing -/

/-- Publishing, as programs ask for it. -/
abbrev Publisher (σ : Type) := Floor σ → EventKind → Properties → Floor σ × Except Failure Unit

/-- Carries out a program, up to its end or its failure. -/
def run (publish : Publisher σ) : Program σ → Floor σ → Floor σ × Option String
  | .done, f => (f, none)
  | .fail text, f => (f, some text)
  | .consult next, f => run publish (next f.shared) f
  | .keep change next, f => run publish next { f with shared := change f.shared }
  | .subscribe mode type listener next, f =>
    let (f, ticket) := f.subscribe mode type listener
    run publish (next ticket) f
  | .unsubscribe t next, f => run publish next (f.unsubscribe t)
  | .close next, f => run publish next f.close
  | .survey next, f => run publish (next f.bus.closed f.bus.count) f
  | .look number next, f => run publish (next f.payloads[number]?) f
  | .amend number p next, f => run publish next (f.amend number p)
  | .publish kind properties next, f =>
    let (f, result) := publish f kind properties
    run publish (next result) f

/-- A wrapper for a single delivery ends its subscription before its listener is told. -/
def release (f : Floor σ) (s : Subscription) : Floor σ :=
  match s.callee with
  | .once _ _ => f.unsubscribe s
  | .listener _ => f

/-- What listeners do when they are told of a publication. -/
abbrev Behaviour (σ : Type) := Nat → Nat → Program σ

/-- Calls one recipient of a publication. A failure is reported and goes no further. -/
def call (publish : Publisher σ) (behave : Behaviour σ) (type : String) (number : Nat) (f : Floor σ)
    (s : Subscription) : Floor σ :=
  match f.payloads[number]? with
  | none => f
  | some p =>
    let f := (f.happened [.called number s.callee p]).release s
    match run publish (behave s.callee.listenerId number) f with
    | (f, none) => f
    | (f, some text) => f.report type text

/-- Publishes an event to those who are subscribed now; a closed bus drops it unread. -/
def publishWith (nested : Publisher σ) (behave : Behaviour σ) : Publisher σ := fun f kind properties =>
  if f.bus.closed then (f.happened [.publishing kind properties .dropped], .ok ())
  else match kind.accept properties with
    | .error e => (f.happened [.publishing kind properties (.refused e)], .error e)
    | .ok ms =>
      let p : Payload := ⟨kind.type, ms⟩
      let number := f.payloads.length
      let begun := { f with payloads := f.payloads ++ [p] }.happened
        [.publishing kind properties (.begun number p)]
      let told := (f.bus.recipients kind.type).foldl (call nested behave kind.type number) begun
      (told.happened [.delivered number], .ok ())

/-- Publishes an event whose listeners may publish in turn, to the given depth. -/
def publishTo (behave : Behaviour σ) : Nat → Publisher σ
  | 0 => fun f kind properties =>
    (f.happened [.publishing kind properties .tooDeep],
      .error (.runtime "maximum depth of nested events exceeded"))
  | depth + 1 => publishWith (publishTo behave depth) behave

/-- How deep events may be nested. -/
def maxDepth : Nat := 300

end Floor

end EditorServices.Bus
