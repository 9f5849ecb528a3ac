import EditorServices.Completion.Item
import EditorServices.Completion.Params

/-!
# `Completion.Provider` — what offers items in the editor

## Contents
- **Behaviour.** How long a provider takes and how it ends.
- **Providers.** `Provider`, with the characters that it is asked for.
-/

namespace EditorServices.Completion

open Schema

/-! ## Behaviour -/

/-- How a provider ends once it is asked. -/
inductive Ending where
  /-- It gives items, which are read when it ends. -/
  | items (given : List Json)
  | nothing
  | fails (message : String)
  | cancelled
deriving Inhabited

/-- What a provider does when it is asked. -/
inductive Behaviour where
  /-- It fails before it starts to work. -/
  | refuses (message : String)
  /-- It starts to work and fails before it comes to an end of its own. -/
  | breaks (message : String)
  /-- It works while all others get the given number of turns, then ends. -/
  | works (turns : Nat) (ending : Ending)
deriving Inhabited

/-- The items that an ending yields. -/
def Ending.result : Ending → Except Failure (List Item)
  | .items given =>
    given.mapM fun j => (Item.check j).outcome "CompletionItem"
  | .nothing => .ok []
  | .fails message => .error (.runtime message)
  | .cancelled => .error .cancelled

/-! ## Providers -/

/-- Something that offers items. -/
structure Provider where
  id : String
  /-- The characters that it is asked for. -/
  triggers : List String
  behaviour : Behaviour
deriving Inhabited

namespace Provider

/-- The characters that a value lists: none for a value that counts as false, the items of a list,
the characters of a text, the names of a record. -/
def triggerList (j : Json) : Except Failure (List Json) :=
  match j.partsOrNone? with
  | some parts => .ok parts
  | none => .error .wrongKind

/-- A provider with the given id and trigger characters, which have to be texts. -/
def read (id triggers : Json) (behaviour : Behaviour) : Except Failure Provider := do
  let given ← triggerList triggers
  let checked := (fun name texts => Provider.mk name texts behaviour)
    <$> (string id).under (.key "id")
    <*> (listOf string (.arr given)).under (.key "trigger_characters")
  checked.outcome "RegisteredCompletionProvider"

end Provider

end EditorServices.Completion
