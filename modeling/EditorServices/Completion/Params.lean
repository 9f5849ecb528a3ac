import EditorServices.Schema.Checked
import EditorServices.Text.Split

/-!
# `Completion.Params` — what a provider gets to work with

## Contents
- **Parts.** The cursor position and what triggered completion.
- **Params.** Reader, writer, and `Params.at` for a cursor in a text.
-/

namespace EditorServices.Completion

open Schema

/-! ## Parts -/

/-- What triggered completion. -/
inductive TriggerKind where
  | invoked
  | triggerCharacter
  | incompleteCompletions
deriving DecidableEq, Repr

namespace TriggerKind

def code : TriggerKind → Int
  | .invoked => 1
  | .triggerCharacter => 2
  | .incompleteCompletions => 3

def choices : List (Int × TriggerKind) :=
  [(1, .invoked), (2, .triggerCharacter), (3, .incompleteCompletions)]

end TriggerKind

/-- A cursor position, counted from zero. -/
structure Position where
  line : Nat
  character : Nat
deriving DecidableEq

namespace Position

def checkMembers (ms : Members) : Checked Position :=
  Position.mk
    <$> required ms (.plain "line") (naturalFrom 0)
    <*> required ms (.plain "character") (naturalFrom 0)

def check : Json → Checked Position := record "CompletionPosition" checkMembers

def toJson (p : Position) : Json := .obj [("line", .int p.line), ("character", .int p.character)]

end Position

/-- How completion was triggered. -/
structure Context where
  kind : TriggerKind
  character : Option String
deriving DecidableEq

namespace Context

def checkMembers (ms : Members) : Checked Context :=
  Context.mk
    <$> optional ms (.plain "trigger_kind") .invoked (numbered TriggerKind.choices)
    <*> optional ms (.plain "trigger_character") none (nullable string)

def check : Json → Checked Context := record "CompletionContext" checkMembers

def toJson (c : Context) : Json :=
  .obj [("trigger_kind", .int c.kind.code),
    ("trigger_character", .ofText? c.character)]

end Context

/-- A document named by its URI. -/
structure DocumentId where
  uri : String
deriving DecidableEq

namespace DocumentId

def checkMembers (ms : Members) : Checked DocumentId :=
  DocumentId.mk <$> required ms (.plain "uri") string

def check : Json → Checked DocumentId := record "TextDocumentIdentifier" checkMembers

def toJson (d : DocumentId) : Json := .obj [("uri", .str d.uri)]

end DocumentId

/-! ## Params -/

/-- What a provider gets to work with. -/
structure Params where
  document : DocumentId
  position : Position
  context : Option Context
  /-- The current line up to the cursor. -/
  textBeforeCursor : String
  currentLine : String
  fullText : String
deriving DecidableEq

namespace Params

def checkMembers (ms : Members) : Checked Params :=
  Params.mk
    <$> required ms (.plain "text_document") DocumentId.check
    <*> required ms (.plain "position") Position.check
    <*> optional ms (.plain "context") none (nullable Context.check)
    <*> optional ms (.plain "text_before_cursor") "" string
    <*> optional ms (.plain "current_line_text") "" string
    <*> optional ms (.plain "full_text") "" string

def check : Json → Checked Params := record "CompletionParams" checkMembers

def toJson (p : Params) : Json :=
  .obj [("text_document", p.document.toJson), ("position", p.position.toJson),
    ("context", (p.context.map Context.toJson).getD .null),
    ("text_before_cursor", .str p.textBeforeCursor), ("current_line_text", .str p.currentLine),
    ("full_text", .str p.fullText)]

/-- The lines of a text. -/
def lines (text : String) : List (List Char) := splitAt1 '\n' text.toList

/-- The line at an index; a negative index counts from the end, and one past the end gives the empty
line. None before the first line. -/
def lineAt? (ls : List (List Char)) (line : Int) : Option (List Char) :=
  if 0 ≤ line then some ((ls[line.toNat]?).getD [])
  else
    let back := (-line).toNat
    if back ≤ ls.length then ls[ls.length - back]? else none

/-- Params for a cursor in a text. A trigger counts as one if it is not empty. -/
def «at» (uri text : String) (line character : Int) (trigger : Option String) :
    Except Failure Params :=
  match lineAt? (lines text) line with
  | none => .error .outOfRange
  | some current =>
    let place := .obj [("line", .int line), ("character", .int character)]
    match (Position.check place).outcome "CompletionPosition" with
    | .error f => .error f
    | .ok position =>
      let kind : TriggerKind :=
        if trigger.any fun t => !t.isEmpty then .triggerCharacter else .invoked
      .ok {
        document := ⟨uri⟩
        position := position
        context := some ⟨kind, trigger⟩
        textBeforeCursor := String.ofList (current.take position.character)
        currentLine := String.ofList current
        fullText := text }

end Params

end EditorServices.Completion
