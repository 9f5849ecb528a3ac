import EditorServices.Completion.Item
import EditorServices.Json.Fields
import EditorServices.Json.Printer
import EditorServices.Failure

/-!
# `Session.Query` — what a server can be asked about a position

Servers answer in several shapes, and badly shaped parts of an answer are passed over.

## Contents
- **Questions.** `Query` with its method.
- **Answers.** `Answer`, and one reader of results for each question.
- **Responses.** `resultOf`, by which an error counts as no result, and `Query.answer`.
-/

namespace EditorServices.Session

open Completion

/-! ## Questions -/

/-- What a server can be asked about a position of the document. -/
inductive Query where
  | completions
  | hover
  | definition
  | references
deriving DecidableEq, Repr, Inhabited

/-- The method of the request. -/
def Query.method : Query → String
  | .completions => "textDocument/completion"
  | .hover => "textDocument/hover"
  | .definition => "textDocument/definition"
  | .references => "textDocument/references"

/-! ## Answers -/

/-- What a call gives. -/
inductive Answer where
  | done
  | suggestions (items : List Suggestion)
  | text (s : String)
  /-- Where something is defined; a text unless the server sent something else. -/
  | target (location : Json)
  | locations (items : List Json)
deriving DecidableEq

/-- The suggestion that an item makes, if it has a label. -/
def suggestion? (item : Json) : Option Suggestion :=
  (item.given? "label").map fun label => ⟨label.shown, Kind.classify (item.field "kind")⟩

/-- The suggestions of a result: a list, or an object with a list. -/
def suggestions : Json → Except Failure (List Suggestion)
  | .arr xs => .ok (xs.filterMap suggestion?)
  | .obj ms =>
    match (Json.field (.obj ms) "items").partsOrNone? with
    | some xs => .ok (xs.filterMap suggestion?)
    | none => .error .wrongKind
  | _ => .ok []

/-- A value as text; nothing for a value that counts as nothing. -/
def textOrEmpty (v : Json) : String := if v.isFalsy then "" else v.shown

/-- The text of one of several contents. -/
def contentText : Json → String
  | .str s => s
  | .obj ms => textOrEmpty (Json.field (.obj ms) "value")
  | _ => ""

/-- The text of the contents of a result; several contents stand on lines of their own. -/
def hoverText (result : Json) : String :=
  match result.field "contents" with
  | .str s => s
  | .obj ms => contentText (.obj ms)
  | .arr xs => "\n".intercalate (xs.map contentText)
  | _ => ""

/-- The location at index one of a result. -/
def definitionTarget : Json → Json
  | .arr (_ :: location :: _) =>
    match location.get? "uri" with
    | some u => if u.isFalsy then .str "" else u
    | none => .str ""
  | _ => .str ""

/-- The locations of a result. -/
def referenceLocations : Json → List Json
  | .arr xs => xs
  | _ => []

/-! ## Responses -/

/-- The error of a response, if it has one. -/
def errorOf? (response : Json) : Option Json := response.given? "error"

/-- The result of a response; null in place of an error. -/
def resultOf (response : Json) : Json :=
  if (errorOf? response).isSome then .null else response.field "result"

/-- What a result means as an answer to a question. -/
def Query.read (q : Query) (result : Json) : Except Failure Answer :=
  match q with
  | .completions => (suggestions result).map .suggestions
  | .hover => .ok (.text (hoverText result))
  | .definition => .ok (.target (definitionTarget result))
  | .references => .ok (.locations (referenceLocations result))

/-- What a response means as an answer to a question. -/
def Query.answer (q : Query) (response : Json) : Except Failure Answer := q.read (resultOf response)

end EditorServices.Session
