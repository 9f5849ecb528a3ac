import EditorServices.Highlight.Highlighter

/-!
# `Highlight.Request` — highlighting what is named by values of any kind

Languages, themes and lines may come from a caller who does not say of what kind they are. What is
no text is refused at the first place where a text is needed.

## Contents
- **Tokenizers.** `readLexer`, `readTheme` and `Tokenizer.read`.
- **Lines.** `Tokenizer.highlightValue`, and `notText`, what is wrong with a span without a text.
- **Batches.** `linesByKey` and `Tokenizer.spansOf`.
-/

namespace EditorServices.Highlight

/-! ## Tokenizers -/

namespace Tokenizer

/-- The lexer that a value names. What counts as nothing names none; anything else but a text is
refused, a list or record because it cannot even be looked up. -/
def readLexer (lexers : List LexerEntry) (language : Json) :
    Except Failure (Lexer × List Log.Entry) :=
  match language with
  | .str name => .ok (chooseLexer lexers name)
  | j =>
    if !j.isKey then .error .wrongKind
    else if j.isFalsy then .ok (chooseLexer [] "")
    else .error (.unknownAttribute "")

/-- The theme that a value names, which has to be a text. -/
def readTheme (theme : Json) (themes : List (String × Theme) := Theme.table) :
    Except Failure (Theme × List Log.Entry) :=
  match theme with
  | .str name => .ok (chooseTheme themes name)
  | _ => .error .wrongKind

/-- The tokenizer of a language and a theme, and what is reported about their names. -/
def read (stock : Stock) (language theme : Json) :
    Except Failure (Tokenizer × List Log.Entry) := do
  let (lexer, about) ← readLexer stock.lexers language
  let (theme, more) ← readTheme theme stock.themes
  return (⟨lexer, theme, []⟩, about ++ more)

/-! ## Lines -/

/-- The span of a line of any kind; no lexer can cut what is no text. -/
def highlightValue (t : Tokenizer) : Json → Except Failure Span
  | .str line => (t.highlight line).1
  | j => .error (.tokenize (t.refusal (Scope.refusedName j.kindName "decode")))

/-- What is wrong with a span whose text is a value that is no text. -/
def notText (j : Json) : Failure := .invalid "Span" [⟨[.key "text"], .stringType, j⟩]

/-! ## Batches -/

/-- Sets the value under a key that may be of any kind; the key stays as it was first given. -/
def putKey : List (Json × Json) → Json → Json → List (Json × Json)
  | [], key, v => [(key, v)]
  | (k, w) :: rest, key, v =>
    if k.sameKey key then (k, v) :: rest else (k, w) :: putKey rest key v

/-- The lines of a list of pairs by their keys. -/
def linesByKey : List Json → List (Json × Json) → Except Failure (List (Json × Json))
  | [], sofar => .ok sofar
  | .arr [key, line] :: rest, sofar =>
    if key.isKey then linesByKey rest (putKey sofar key line) else .error .wrongKind
  | _ :: _, _ => .error (.value "not enough values to unpack (expected 2, got 0)")

/-- The span of a line of any kind as a worker makes it: none for a line that counts as nothing. -/
def spanFor (t : Tokenizer) : Json → Except Failure (Json × Tokenizer)
  | .str line => .ok (t.plainSpan line)
  | j => if j.isFalsy then .ok (.null, t) else .error (notText j)

/-- The spans of lines, each after its key. -/
def spansFor (t : Tokenizer) : List (Json × Json) → Except Failure (List Json)
  | [] => .ok []
  | (key, line) :: rest => do
    let (span, t) ← t.spanFor line
    let more ← t.spansFor rest
    return .arr [key, span] :: more

/-- The spans of the lines of a list of pairs, under their keys. -/
def spansOf (t : Tokenizer) (pairs : List Json) : Except Failure Json := do
  let lines ← linesByKey pairs []
  let spans ← t.spansFor lines
  return .arr spans

end Tokenizer

end EditorServices.Highlight
