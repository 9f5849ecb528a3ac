import EditorServices.Schema.Checked

/-!
# `Bus.Basic` — who is told of which event

Listeners are known by number. A subscription is to one type of event or to all; the callee of a
subscription is what a ticket names when the subscription is given back.

## Contents
- **Payloads.** `Payload`, what subscribers get.
- **Subscriptions.** `Callee`, `Subscription`, `Ticket`.
- **The bus.** `Bus` with subscribing, giving back, closing, and the recipients of an event.
-/

namespace EditorServices

namespace Bus

/-! ## Payloads -/

/-- An event as subscribers see it. -/
structure Payload where
  type : String
  properties : Members
deriving DecidableEq

namespace Payload

open Schema

def checkMembers (ms : Members) : Checked Payload :=
  Payload.mk <$> required ms (.plain "type") string <*> required ms (.plain "properties") dict

def check : Json → Checked Payload := record "EventPayload" checkMembers

def toJson (p : Payload) : Json := .obj [("type", .str p.type), ("properties", .obj p.properties)]

end Payload

/-! ## Subscriptions -/

/-- What a subscription calls: a listener itself, or a wrapper of its own around one, which is used
for a single delivery. -/
inductive Callee where
  | listener (id : Nat)
  | once (number id : Nat)
deriving DecidableEq, Repr

/-- The listener that is reached in the end. -/
def Callee.listenerId : Callee → Nat
  | .listener id => id
  | .once _ id => id

/-- A callee that is told of the events under a key. -/
structure Subscription where
  key : String
  callee : Callee
deriving DecidableEq, Repr

/-- What a subscriber keeps in order to end the subscription. -/
abbrev Ticket := Subscription

/-- The key under which all events are told. -/
def allEvents : String := "*"

end Bus

/-! ## The bus -/

/-- Subscriptions in the order in which they were made. -/
structure Bus where
  subscriptions : List Bus.Subscription
  closed : Bool
  /-- The number of the next wrapper. -/
  next : Nat
deriving DecidableEq, Repr

namespace Bus

/-- A bus without subscriptions. -/
def empty : Bus := ⟨[], false, 0⟩

/-- Adds a subscription; a closed bus takes none and gives no ticket. -/
def add (b : Bus) (s : Subscription) : Bus × Option Ticket :=
  if b.closed then (b, none)
  else ({ b with subscriptions := b.subscriptions ++ [s] }, some s)

/-- Subscribes a listener to a type of event. -/
def subscribe (b : Bus) (type : String) (listener : Nat) : Bus × Option Ticket :=
  b.add ⟨type, .listener listener⟩

/-- Subscribes a listener to every event. -/
def subscribeAll (b : Bus) (listener : Nat) : Bus × Option Ticket := b.subscribe allEvents listener

/-- Subscribes a listener for a single delivery. -/
def subscribeOnce (b : Bus) (type : String) (listener : Nat) : Bus × Option Ticket :=
  { b with next := b.next + 1 }.add ⟨type, .once b.next listener⟩

/-- Ends a subscription: the earliest one with the key and the callee of the ticket, if any is
left. -/
def unsubscribe (b : Bus) (t : Ticket) : Bus :=
  { b with subscriptions := b.subscriptions.erase t }

/-- Ends every subscription and refuses further ones. -/
def close (b : Bus) : Bus := { b with subscriptions := [], closed := true }

/-- The subscriptions under a key. -/
def under (b : Bus) (key : String) : List Subscription := b.subscriptions.filter (·.key == key)

/-- Who is told of an event, in order: the subscriptions to its type, then those to all events. -/
def recipients (b : Bus) (type : String) : List Subscription :=
  b.under type ++ b.under allEvents

/-- The number of subscriptions. -/
def count (b : Bus) : Nat := b.subscriptions.length

end Bus

end EditorServices
