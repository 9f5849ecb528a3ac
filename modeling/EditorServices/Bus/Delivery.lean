import EditorServices.Bus.Publishing

/-!
# `Bus.Delivery` — listeners that follow scripts

A listener follows a script: it notes that it was told and then acts, also on the bus itself. A script is
carried out as a program.

## Contents
- **Listeners.** `Action`, `Listener`, and what they share, `Backstage`.
- **Scripts.** `Action.program` and `Listener.program`.
- **The stage.** `Stage`, a bus on which scripted listeners act: subscribing by name, with a ticket kept under
  the name, and publishing.
-/

namespace EditorServices.Bus

/-! ## Listeners -/

/-- What a listener does after it was told. -/
inductive Action where
  /-- Lets others run first; such a listener notes the start and the end of its turn. -/
  | pause
  | unsubscribe (name : String)
  | subscribe (name event : String)
  | close
  | fail (message : String)
  /-- Sets a member of the properties, which later recipients see, to its own name. A listener that
  lets others run leaves the properties alone. -/
  | mutate (key : String)
  /-- Publishes an event and waits for its delivery, which only a listener that lets others run
  can. -/
  | publish (event : String) (properties : Json)
deriving Inhabited

/-- A listener with its script. -/
structure Listener where
  name : String
  actions : List Action
deriving Inhabited

/-- A listener that only notes what it is told. -/
def Listener.quiet (name : String) : Listener := ⟨name, []⟩

/-- Whether a listener lets others run before it acts. -/
def Listener.pauses (l : Listener) : Bool :=
  l.actions.any fun
    | .pause => true
    | _ => false

/-- What a listener notes: under which name, and the event. -/
structure Sighting where
  name : String
  type : String
  properties : Members
deriving DecidableEq

/-- What scripted listeners share. -/
structure Backstage where
  kinds : Named EventKind
  listeners : List Listener
  /-- The listener that was last subscribed under a name. -/
  numbers : Named Nat
  /-- The ticket last obtained under a name; none if the bus was closed. -/
  tickets : Named (Option Ticket)
  seen : List Sighting

namespace Backstage

/-- Makes a listener known. -/
def addListener (b : Backstage) (l : Listener) : Backstage × Nat :=
  ({ b with listeners := b.listeners ++ [l] }, b.listeners.length)

/-- Keeps a listener and its ticket under a name. -/
def keepTicket (b : Backstage) (name : String) (id : Nat) (ticket : Option Ticket) : Backstage :=
  { b with numbers := b.numbers.put name id, tickets := b.tickets.put name ticket }

/-- Notes that a listener was told. -/
def note (b : Backstage) (name : String) (p : Payload) : Backstage :=
  { b with seen := b.seen ++ [⟨name, p.type, p.properties⟩] }

end Backstage

/-! ## Scripts -/

/-- Fails as something else failed. -/
def Program.failAs {σ : Type} (f : Failure) : Program σ := .fail f.text

/-- Carries out an action, and then goes on. -/
def Action.program (l : Listener) (number : Nat) (next : Program Backstage) :
    Action → Program Backstage
  | .pause => next
  | .unsubscribe other => .consult fun b => match b.tickets.get? other with
    | some (some t) => .unsubscribe t next
    | some none => next
    | none => .failAs .unknownName
  | .subscribe other event => .consult fun b => match b.kinds.get? event with
    | some kind =>
      let (b, id) := b.addListener (.quiet other)
      .keep (fun _ => b) (.subscribe .event kind.type id fun ticket =>
        .keep (fun b => b.keepTicket other id ticket) next)
    | none => .failAs .unknownName
  | .close => .close next
  | .fail message => .failAs (.runtime message)
  | .mutate key =>
    if l.pauses then next
    else .look number fun
      | some p => .amend number { p with properties := Named.put p.properties key (.str l.name) } next
      | none => next
  | .publish event properties =>
    if !l.pauses then next
    else .consult fun b => match b.kinds.get? event with
      | some kind => .publish kind (.plain properties) fun
        | .ok () => next
        | .error f => .failAs f
      | none => .failAs .unknownName

/-- Notes the payload of a publication. -/
def noting (name : String) (number : Nat) (next : Program Backstage) : Program Backstage :=
  .look number fun
    | some p => .keep (fun b => b.note name p) next
    | none => next

/-- A listener's turn. -/
def Listener.program (l : Listener) (number : Nat) : Program Backstage :=
  let acting (last : Program Backstage) := l.actions.foldr (fun a next => a.program l number next) last
  if l.pauses then noting (l.name ++ ":start") number (acting (noting (l.name ++ ":end") number .done))
  else noting l.name number (acting .done)

/-- A listener that is known follows its script. -/
def behaviour : Floor.Behaviour Backstage := fun id number => .consult fun b =>
  match b.listeners[id]? with
  | some l => l.program number
  | none => .done

/-! ## The stage -/

/-- A bus on which scripted listeners act. -/
structure Stage extends Backstage where
  bus : Bus
  entries : List Log.Entry

namespace Stage

/-- How a listener subscribes. -/
abbrev Mode := Bus.Mode

/-- A stage with an empty bus. -/
def new (kinds : Named EventKind) : Stage := ⟨⟨kinds, [], [], [], []⟩, .empty, []⟩

/-- Makes a listener known. -/
def addListener (s : Stage) (l : Listener) : Stage × Nat :=
  let (b, id) := s.toBackstage.addListener l
  ({ s with toBackstage := b }, id)

/-- Subscribes a listener and keeps its ticket under a name. -/
def subscribe (s : Stage) (mode : Mode) (name type : String) (id : Nat) : Stage :=
  let (bus, ticket) := enter s.bus mode type id
  { s with toBackstage := s.toBackstage.keepTicket name id ticket, bus := bus }

/-- Gives back the ticket kept under a name. -/
def unsubscribe (s : Stage) (name : String) : Except Failure Stage :=
  match s.tickets.get? name with
  | some (some t) => .ok { s with bus := s.bus.unsubscribe t }
  | some none => .ok s
  | none => .error .unknownName

/-- Publishes an event. -/
def publish (s : Stage) (kind : EventKind) (properties : Properties) : Stage × Except Failure Unit :=
  let f : Floor Backstage := ⟨s.bus, [], s.entries, s.toBackstage, []⟩
  let (f, result) := Floor.publishTo behaviour Floor.maxDepth f kind properties
  (⟨f.shared, f.bus, f.entries⟩, result)

end Stage

end EditorServices.Bus
