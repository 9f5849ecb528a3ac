import EditorServices.Highlight.Scope
import EditorServices.Text.Utf8

/-!
# `Highlight.Lexer` — cutting text into tokens

## Contents
- **Tokens.** `Token`, a run of text with its scope.
- **Lexers.** `Lexer`, a name and a rule that cuts prepared text; `Lexer.tokens?` prepares a text
  and cuts it.
- **Plain text.** The lexer that takes a whole text as one token.
-/

namespace EditorServices.Highlight

/-! ## Tokens -/

/-- A run of text with its scope. -/
structure Token where
  scope : Scope
  text : List Char
deriving DecidableEq, Repr, Inhabited

/-- The text that tokens cover. -/
def Token.covered (ts : List Token) : List Char := ts.flatMap Token.text

/-! ## Lexers -/

/-- A rule that cuts text into tokens, or says why it cannot. -/
structure Lexer where
  name : String
  cut : List Char → Except String (List Token)

namespace Lexer

/-- What every lexer does to a text first: one mark of byte order is dropped from its start, and
every line ends with a line feed. -/
def prepare (text : List Char) : List Char :=
  universalNewlines (match text with
    | '\uFEFF' :: r => r
    | s => s)

/-- The tokens of a text. -/
def tokens? (l : Lexer) (text : List Char) : Except String (List Token) := l.cut (prepare text)

/-! ## Plain text -/

/-- The scope of text of no particular kind. -/
def textScope : Scope := .below "Text"

/-- The whole text as one token; no token for the empty text. -/
def cutPlain (text : List Char) : List Token :=
  if text.isEmpty then [] else [⟨textScope, text⟩]

/-- A lexer of a given name that knows nothing of the text's structure. -/
def unstructured (name : String) : Lexer := ⟨name, fun text => .ok (cutPlain text)⟩

/-- The lexer for plain text. -/
def plain : Lexer := unstructured "Text only"

theorem covered_cutPlain (text : List Char) : Token.covered (cutPlain text) = text := by
  cases text <;> simp [cutPlain, Token.covered]

end Lexer

end EditorServices.Highlight
