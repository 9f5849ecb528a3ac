import EditorServices.Completion.Kind
import EditorServices.Schema.Checked

/-!
# `Completion.Item` — what completion offers

## Contents
- `Suggestion`: a label and a kind, as a server offers it.
- `Item`: what a provider of the editor offers, with its place in the order.
-/

namespace EditorServices.Completion

open Schema

/-- Kinds by their protocol numbers. -/
def Kind.choices : List (Int × Kind) := Kind.all.map fun k => ((k.code : Int), k)

/-! ## Suggestions of a server -/

/-- A suggestion of a server. -/
structure Suggestion where
  label : String
  kind : Kind
deriving DecidableEq

namespace Suggestion

def checkMembers (ms : Members) : Checked Suggestion :=
  Suggestion.mk
    <$> required ms (.plain "label") string
    <*> optional ms (.plain "kind") .text (numbered Kind.choices)

def check : Json → Checked Suggestion := record "LSPCompletion" checkMembers

def toJson (s : Suggestion) : Json := .obj [("label", .str s.label), ("kind", .int s.kind.code)]

end Suggestion

/-! ## Items of a provider -/

/-- How inserted text is read. -/
inductive InsertFormat where
  | plainText
  | snippet
deriving DecidableEq, Repr

namespace InsertFormat

def code : InsertFormat → Int
  | .plainText => 1
  | .snippet => 2

def choices : List (Int × InsertFormat) := [(1, .plainText), (2, .snippet)]

end InsertFormat

/-- A suggestion of a provider. -/
structure Item where
  label : String
  kind : Option Kind
  detail : Option String
  documentation : Option String
  insertText : Option String
  insertFormat : Option InsertFormat
  /-- Lower numbers come first; items without a number come last. -/
  sortPriority : Option Int
deriving DecidableEq

namespace Item

def checkMembers (ms : Members) : Checked Item :=
  Item.mk
    <$> required ms (.plain "label") string
    <*> optional ms (.plain "kind") none (nullable (numbered Kind.choices))
    <*> optional ms (.plain "detail") none (nullable string)
    <*> optional ms (.plain "documentation") none (nullable string)
    <*> optional ms (.plain "insert_text") none (nullable string)
    <*> optional ms (.plain "insert_text_format") none (nullable (numbered InsertFormat.choices))
    <*> optional ms (.plain "sort_priority") none (nullable integer)

def check : Json → Checked Item := record "CompletionItem" checkMembers

def toJson (i : Item) : Json :=
  .obj [("label", .str i.label), ("kind", (i.kind.map fun k => Json.int k.code).getD .null),
    ("detail", .ofText? i.detail),
    ("documentation", .ofText? i.documentation),
    ("insert_text", .ofText? i.insertText),
    ("insert_text_format", (i.insertFormat.map fun f => Json.int f.code).getD .null),
    ("sort_priority", (i.sortPriority.map Json.int).getD .null)]

/-- The text that accepting an item inserts: its own, or else the label. -/
def textToInsert (i : Item) : String := i.insertText.getD i.label

end Item

end EditorServices.Completion
