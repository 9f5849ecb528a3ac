import EditorServices.Highlight.Lexer

/-!
# `Highlight.Lexer.Words` — words, numbers and signs

A small language: runs of characters of one class are tokens, three words are keywords, and one
character is refused.

## Contents
- **Classes.** `WordClass` and the class of a character.
- **Runs.** `cutRuns` groups neighbours of one class.
- **The lexer.** `Lexer.words`.
-/

namespace EditorServices.Highlight

/-! ## Classes -/

/-- The class of a character in a run. -/
inductive WordClass where
  | caret
  | decorator
  | name
  | number
  | space
  | sign
deriving DecidableEq, Repr

namespace WordClass

/-- The class of a character. -/
def ofChar (c : Char) : WordClass :=
  if c = '^' then .caret
  else if c = '@' then .decorator
  else if c.isAlpha || c == '_' then .name
  else if c.isDigit then .number
  else if c = ' ' ∨ c = '\t' ∨ c = '\n' then .space
  else .sign

def scope : WordClass → Scope
  | .caret => .below "Glint.Caret"
  | .decorator => .below "Name.Decorator.Glint.Deep"
  | .name => .below "Name"
  | .number => .below "Literal.Number"
  | .space => .below "Text.Whitespace"
  | .sign => .below "Operator"

end WordClass

/-! ## Runs -/

/-- Runs of neighbours of one class, as long as possible. -/
def cutRuns : List Char → List (List Char)
  | [] => []
  | c :: r =>
    match cutRuns r with
    | (d :: run) :: runs =>
      if WordClass.ofChar c = WordClass.ofChar d then (c :: d :: run) :: runs
      else [c] :: (d :: run) :: runs
    | runs => [c] :: runs

theorem flatten_cutRuns (s : List Char) : (cutRuns s).flatten = s := by
  induction s with
  | nil => rfl
  | cons c r ih =>
    rw [cutRuns]
    split
    · next d run runs h =>
      rw [h] at ih
      split <;> simpa using ih
    · simpa using ih

/-! ## The lexer -/

namespace Lexer

/-- The words that are keywords. -/
def keywords : List String := ["def", "let", "if"]

/-- The scope of a run. -/
def runScope (run : List Char) : Scope :=
  if keywords.contains (String.ofList run) then .below "Keyword"
  else match run with
    | c :: _ => (WordClass.ofChar c).scope
    | [] => .root

/-- Cuts a text into runs, unless it holds an exclamation mark. -/
def cutWords (text : List Char) : Except String (List Token) :=
  match text.findIdx? (· == '!') with
  | some i => .error ("bad character at " ++ toString i)
  | none => .ok ((cutRuns text).map fun run => ⟨runScope run, run⟩)

/-- The lexer for words, numbers and signs. -/
def words : Lexer := ⟨"Words", cutWords⟩

end Lexer

end EditorServices.Highlight
