import EditorServices.Completion.Provider
import EditorServices.Log.Line
import EditorServices.Reporting
import EditorServices.Text.LowerCase

/-!
# `Completion.Registry` — the providers of the editor

## Contents
- **Registry.** Providers by id, in the order in which their ids were first registered.
- **Selection.** The providers that are asked for a trigger character.
- **Working together.** The order in which selected providers start and end.
- **Gathering.** What has come of each provider so far, whichever ended first.
- **Merging.** `complete`, which puts the items of all providers in one order.
-/

namespace EditorServices.Completion

/-! ## Registry -/

/-- Providers by id. -/
structure Registry where
  providers : Named Provider

namespace Registry

def empty : Registry := ⟨[]⟩

/-- The service under which the registry reports. -/
def service : String := "lsp.completion"

/-- Registers a provider in place of one with the same id. -/
def register (r : Registry) (p : Provider) : Registry := ⟨r.providers.put p.id p⟩

/-- Removes the provider of an id; tells whether there was one. -/
def unregister (r : Registry) (id : String) : Registry × Bool :=
  (⟨r.providers.erase id⟩, r.providers.has id)

/-- Removes the provider of an id of any kind. Only texts are ids; a list or record cannot even be
looked for once there are providers. -/
def remove (r : Registry) (id : Json) : Registry × Except Failure Bool :=
  match id with
  | .str name =>
    let (r, found) := r.unregister name
    (r, .ok found)
  | .arr _ | .obj _ => (r, if r.providers.isEmpty then .ok false else .error .wrongKind)
  | _ => (r, .ok false)

/-! ## Selection -/

/-- All providers in order. -/
def all (r : Registry) : List Provider := r.providers.map (·.2)

/-- Adds a text to a list unless it is there. -/
def addNew (seen : List String) (c : String) : List String :=
  if seen.contains c then seen else seen ++ [c]

/-- Every character that some provider is asked for, each once, in order. -/
def triggerCharacters (r : Registry) : List String :=
  (r.all.flatMap (·.triggers)).foldl addNew []

/-- The providers that are asked: all of them, or those with the given trigger character. -/
def providersFor (r : Registry) (trigger : Option String) : List Provider :=
  match trigger with
  | none => r.all
  | some c => r.all.filter fun p => p.triggers.contains c

/-- The providers that are asked for a trigger of any kind: null is no trigger, and what is no text
triggers nothing. -/
def providersAsked (r : Registry) (trigger : Json) : List Provider :=
  match trigger with
  | .null => r.providersFor none
  | .str c => r.providersFor (some c)
  | _ => []

/-! ## Working together -/

/-- The beginning or the end of a provider's work. -/
inductive Phase where
  | start
  | stop
deriving DecidableEq, Repr

/-- A provider's work begins or ends. -/
structure Call where
  id : String
  phase : Phase
deriving DecidableEq, Repr

/-- How many turns a provider lets pass. -/
def turnsOf (p : Provider) : Nat :=
  match p.behaviour with
  | .works n _ => n
  | .refuses _ | .breaks _ => 0

/-- Whether a provider comes to an end of its own. -/
def ends (p : Provider) : Bool :=
  match p.behaviour with
  | .works _ _ => true
  | .refuses _ | .breaks _ => false

/-- What happens in one turn: in the first all start, and in each those end whose time has come. -/
def turnCalls (selected : List Provider) (turn : Nat) : List Call :=
  selected.flatMap fun p =>
    (if turn = 0 then [⟨p.id, .start⟩] else []) ++
      (if ends p && turnsOf p == turn then [⟨p.id, .stop⟩] else [])

/-- The turn in which the last provider ends. -/
def lastTurn (selected : List Provider) : Nat := (selected.map turnsOf).max?.getD 0

/-- What happens until all providers have ended. -/
def calls (selected : List Provider) : List Call :=
  (List.range (lastTurn selected + 1)).flatMap (turnCalls selected)

/-- What comes of a provider: its items, or why there are none. -/
abbrev Outcome := Except Failure (List Item)

/-- What comes of a provider that has started. -/
def resultOf (p : Provider) : Outcome :=
  match p.behaviour with
  | .refuses message | .breaks message => .error (.runtime message)
  | .works _ ending => ending.result

/-- What comes of the providers that end in a turn, with their places. -/
def turnEndings (selected : List Provider) (turn : Nat) : List (Nat × Outcome) :=
  (selected.zipIdx.filter fun p => turnsOf p.1 == turn).map fun p => (p.2, resultOf p.1)

/-- What comes of all providers, in the order in which they end. -/
def endings (selected : List Provider) : List (Nat × Outcome) :=
  (List.range (lastTurn selected + 1)).flatMap (turnEndings selected)

/-! ## Gathering -/

/-- The selected providers in their order, with what has come of each so far. -/
abbrev Gathering := List (Provider × Option Outcome)

namespace Gathering

/-- All providers have started and none has ended. -/
def start (selected : List Provider) : Gathering := selected.map fun p => (p, none)

/-- Notes what came of the provider at a place, unless that is known. -/
def note (g : Gathering) (ending : Nat × Outcome) : Gathering :=
  g.modify ending.1 fun p => (p.1, p.2.or (some ending.2))

/-- Notes what came of providers, one after the other. -/
def noteAll (g : Gathering) (endings : List (Nat × Outcome)) : Gathering := endings.foldl note g

/-- Whether all providers have ended. -/
def isOver (g : Gathering) : Bool := g.all fun p => p.2.isSome

end Gathering

/-! ## Merging -/

/-- The place of an item in the order: items with a priority first, by priority, then by label
without regard to case. -/
structure SortKey where
  unranked : Bool
  priority : Int
  label : String
deriving DecidableEq, Repr

def sortKey (i : Item) : SortKey :=
  ⟨i.sortPriority.isNone, i.sortPriority.getD 0, String.ofList (lowerText i.label.toList)⟩

/-- Whether a key stands before another one or is equal to it. -/
def SortKey.le (a b : SortKey) : Bool :=
  if a.unranked ≠ b.unranked then b.unranked
  else if a.priority ≠ b.priority then decide (a.priority < b.priority)
  else decide (¬ b.label < a.label)

/-- Items in order; items with equal keys stay as they are. -/
def sorted (items : List Item) : List Item :=
  items.mergeSort fun a b => (sortKey a).le (sortKey b)

/-- The first selected provider that refuses, if any. -/
def refusal? (selected : List Provider) : Option String :=
  selected.findSome? fun p => match p.behaviour with
    | .refuses message => some message
    | .breaks _ | .works _ _ => none

/-- The items of a provider. One that fails is reported and gives none, and one that has not ended has none
yet. -/
def itemsOf (p : Provider) : Option Outcome → Reporting (List Item)
  | some (.ok items) => pure items
  | some (.error f) => do
    report .warn service "completion provider failed"
      [("id", .str p.id), ("error", .str f.described)]
    pure []
  | none => pure []

/-- The items of all providers, in the order of the providers. -/
def gather : Gathering → Reporting (List Item)
  | [] => pure []
  | p :: rest => do
    let items ← itemsOf p.1 p.2
    let more ← gather rest
    pure (items ++ more)

/-- The items that providers offer, in order, when they end as given. -/
def merged (selected : List Provider) (endings : List (Nat × Outcome)) : Reporting (List Item) := do
  let items ← gather ((Gathering.start selected).noteAll endings)
  pure (sorted items)

/-- The trigger character that parameters give. -/
def triggerOf (params : Params) : Option String := params.context.bind (·.character)

/-- The providers that are asked for parameters. -/
def selected (r : Registry) (params : Params) : List Provider := r.providersFor (triggerOf params)

/-- The items that the selected providers offer, in order. If one of them refuses, none starts. -/
def complete (r : Registry) (params : Params) : List Call × Reporting (List Item) :=
  let chosen := r.selected params
  match refusal? chosen with
  | some message => ([], .fail (.runtime message))
  | none =>
    (if chosen.isEmpty then [] else calls chosen, merged chosen (endings chosen))

end Registry

end EditorServices.Completion
