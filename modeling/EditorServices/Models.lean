import EditorServices.Bus.Basic
import EditorServices.Completion.Item
import EditorServices.Completion.Params
import EditorServices.Config.Settings
import EditorServices.Diagnostic
import EditorServices.Document
import EditorServices.Failure
import EditorServices.Highlight.Span
import EditorServices.Session.Message

/-!
# `Models` — the records of the program by name

## Contents
- `Model`: reads a value as a record and writes the record.
- `models`: one for each name that validation errors mention.
- `written`: the record that a value is, unless values in it are nested too deeply to be written.
-/

namespace EditorServices

open Schema

/-- Reads a value as a record and writes the record with all its fields. -/
abbrev Model := Json → Checked Json

/-- The model of a record with a reader and a writer. -/
def Model.of {α : Type} (check : Json → Checked α) (toJson : α → Json) : Model :=
  fun j => (check j).map toJson

/-- The models by name. -/
def models : Named Model :=
  [("LSPConfig", .of LspConfig.check LspConfig.toJson),
   ("HighlightConfig", .of HighlightConfig.check HighlightConfig.toJson),
   ("LoggingConfig", .of LoggingConfig.check LoggingConfig.toJson),
   ("Config", .of Settings.check Settings.toJson),
   ("LSPDiagnostic", .of Diagnostic.check Diagnostic.toJson),
   ("LSPCompletion", .of Completion.Suggestion.check Completion.Suggestion.toJson),
   ("DocumentHandle", .of DocumentHandle.check DocumentHandle.toJson),
   ("CompletionItem", .of Completion.Item.check Completion.Item.toJson),
   ("CompletionParams", .of Completion.Params.check Completion.Params.toJson),
   ("CompletionContext", .of Completion.Context.check Completion.Context.toJson),
   ("CompletionPosition", .of Completion.Position.check Completion.Position.toJson),
   ("TextDocumentIdentifier", .of Completion.DocumentId.check Completion.DocumentId.toJson),
   ("Span", .of Highlight.Span.check Highlight.Span.toJson),
   ("EventPayload", .of Bus.Payload.check Bus.Payload.toJson),
   ("ServerNotificationProps", .of Session.Notification.check Session.Notification.toJson)]

/-- How deep values may be nested in each other to be written. -/
def maxWrittenDepth : Nat := 255

mutual

/-- How many values are nested in each other, the value itself included. -/
def nesting : Json → Nat
  | .arr xs => 1 + nestingOfItems xs
  | .obj ms => 1 + nestingOfMembers ms
  | _ => 1

def nestingOfItems : List Json → Nat
  | [] => 0
  | x :: xs => max (nesting x) (nestingOfItems xs)

def nestingOfMembers : List (String × Json) → Nat
  | [] => 0
  | (_, x) :: ms => max (nesting x) (nestingOfMembers ms)

end

/-- The parts of a written record that are as they were given: all but spans, which are records
within records. -/
def freeParts : Json → Members
  | .obj ms => ms.filter fun m => m.1 ≠ "children"
  | _ => []

/-- The record of a named kind that a value is, written with all its fields. -/
def written (name : String) (value : Json) : Except Failure Json :=
  match models.get? name with
  | none => .error .unknownName
  | some model =>
    match model value with
    | .invalid issues => .error (.invalid name issues)
    | .valid record =>
      if (freeParts record).any fun m => maxWrittenDepth < nesting m.2 then
        .error (.value "Maximum serialization depth exceeded")
      else .ok record

end EditorServices
