import EditorServices.Completion.Params

/-!
# `Completion.Cursor` — params for a cursor that is given by values of any kind

The parts of a cursor may come from a caller that does not say of what kind they are. They are
looked at one after the other, and the first that does not fit decides.

## Contents
- **Lines.** `lineFor`, the line that a value points at.
- **Params.** `Params.read`, and `Params.read_of_kinds`: on values of the right kinds it is
  `Params.at`.
-/

namespace EditorServices.Completion

open Schema

namespace Params

/-! ## Lines -/

/-- The line that a value points at. Every number may lie behind the last line, where the line is
empty, but only a whole number points at one of the lines. -/
def lineFor (ls : List (List Char)) (line : Json) : Except Failure (List Char) :=
  match line.numeral? with
  | none => .error .wrongKind
  | some n =>
    if n.isBelow ls.length then
      match line.position? with
      | none => .error .wrongKind
      | some i => match lineAt? ls i with
        | some current => .ok current
        | none => .error .outOfRange
    else .ok []

theorem lineFor_int (ls : List (List Char)) (line : Int) :
    lineFor ls (.int line) =
      match lineAt? ls line with
      | some current => .ok current
      | none => .error .outOfRange := by
  by_cases h : line < ls.length
  · simp [lineFor, Json.numeral?, Json.position?, Numeral.isBelow, Numeral.floor?, h]
  · have hpos : 0 ≤ line := by omega
    simp [lineFor, Json.numeral?, Numeral.isBelow, Numeral.floor?, h, lineAt?, hpos]

/-! ## Params -/

/-- Params for a cursor whose parts are of any kind. A trigger that counts as nothing is kept, but
does not trigger. -/
def read (uri text line character trigger : Json) : Except Failure Params :=
  match text.asText? with
  | none => .error (.unknownAttribute "")
  | some s => do
    let current ← lineFor (lines s) line
    let kind : TriggerKind := if trigger.isFalsy then .invoked else .triggerCharacter
    let context ← (Context.check (.obj [("trigger_kind", .int kind.code),
      ("trigger_character", trigger)])).outcome "CompletionContext"
    let document ← (DocumentId.check (.obj [("uri", uri)])).outcome "TextDocumentIdentifier"
    let position ← (Position.check (.obj [("line", line), ("character", character)])).outcome
      "CompletionPosition"
    if character.position?.isNone then .error .wrongKind
    else .ok {
      document := document
      position := position
      context := some context
      textBeforeCursor := String.ofList (current.take position.character)
      currentLine := String.ofList current
      fullText := s }

theorem context_of_kinds (trigger : Option String) (kind : TriggerKind) :
    (Context.check (.obj [("trigger_kind", .int kind.code),
      ("trigger_character", .ofText? trigger)])).outcome "CompletionContext" =
      .ok ⟨kind, trigger⟩ := by
  cases trigger <;> cases kind <;> rfl

/-- On values of the right kinds the two ways to make params agree. -/
theorem read_of_kinds (uri text : String) (line character : Int) (trigger : Option String) :
    read (.str uri) (.str text) (.int line) (.int character) (.ofText? trigger) =
      «at» uri text line character trigger := by
  have hkind : (if (Json.ofText? trigger).isFalsy then TriggerKind.invoked else .triggerCharacter) =
      if trigger.any (fun t => !t.isEmpty) then .triggerCharacter else .invoked := by
    cases trigger with
    | none => rfl
    | some t => cases h : t.isEmpty <;> simp [Json.ofText?, Json.isFalsy, h]
  have hdoc : (DocumentId.check (.obj [("uri", .str uri)])).outcome "TextDocumentIdentifier" =
      .ok ⟨uri⟩ := rfl
  simp only [read, Json.asText?, lineFor_int, hkind, context_of_kinds, hdoc, Json.position?, «at»]
  cases lineAt? (lines text) line with
  | none => rfl
  | some current =>
    simp only [bind, Except.bind]
    cases (Position.check (.obj [("line", .int line), ("character", .int character)])).outcome
      "CompletionPosition" <;> rfl

end Params

end EditorServices.Completion
