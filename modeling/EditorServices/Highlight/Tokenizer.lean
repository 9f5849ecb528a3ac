import EditorServices.Highlight.Lexer.Catalogue
import EditorServices.Highlight.Span
import EditorServices.Highlight.Theme
import EditorServices.Log.Line

/-!
# `Highlight.Tokenizer` — lines with styled tokens

## Contents
- **Stock.** `Stock`, the lexers and themes that there are to choose from.
- **Tokenizers.** `Tokenizer`, a lexer with a theme; `Tokenizer.new` chooses both by name and
  reports names that are not known.
- **Styles.** `Tokenizer.styleOf`, which asks the theme once for each scope.
- **Highlighting.** `Tokenizer.highlight` makes a span of a line, `Tokenizer.spanOf` also of a line
  that the lexer refuses.

What is highlighted may leave further styles noted, so that each step gives the tokenizer for the next.
-/

namespace EditorServices.Highlight

/-! ## Stock -/

/-- The lexers and themes that there are to choose from. -/
structure Stock where
  lexers : List LexerEntry
  /-- The themes by name. -/
  themes : List (String × Theme)

/-- Lexers alone come with the themes of the table. -/
instance : Coe (List LexerEntry) Stock := ⟨fun lexers => ⟨lexers, Theme.table⟩⟩

/-! ## Tokenizers -/

/-- A lexer with a theme. -/
structure Tokenizer where
  lexer : Lexer
  theme : Theme
  /-- The styles that were looked up so far. -/
  styles : List (Scope × Option String)

namespace Tokenizer

/-- The service under which names that are not known are reported. -/
def service : String := "highlight.tokenizer"

/-- The lexer of a language; plain text if the language is not known. -/
def chooseLexer (lexers : List LexerEntry) (language : String) : Lexer × List Log.Entry :=
  match lexerOf? lexers language with
  | some l => (l, [])
  | none => (.plain, [⟨.debug, service, "no lexer for language, using plain text",
      [("language", .str language)]⟩])

/-- The theme used in place of one that is not known. -/
def defaultTheme : Theme := .monokai

/-- The theme of a name; the default if the name is not known. -/
def chooseTheme (themes : List (String × Theme)) (name : String) : Theme × List Log.Entry :=
  match themes.lookup name with
  | some t => (t, [])
  | none => (defaultTheme, [⟨.warn, service, "unknown theme, using default",
      [("theme", .str name)]⟩])

/-- The tokenizer of a language and a theme, and what is reported about their names. -/
def new (stock : Stock) (language theme : String) : Tokenizer × List Log.Entry :=
  let (lexer, about) := chooseLexer stock.lexers language
  let (theme, more) := chooseTheme stock.themes theme
  (⟨lexer, theme, []⟩, about ++ more)

/-! ## Styles -/

/-- The text of the style of a scope. The theme is asked once. -/
def styleOf (t : Tokenizer) (s : Scope) : Option String × Tokenizer :=
  match t.styles.lookup s with
  | some style => (style, t)
  | none =>
    let style := t.theme.styleText? s
    (style, { t with styles := (s, style) :: t.styles })

/-! ## Highlighting -/

/-- The span of a token. -/
def tokenSpan (t : Tokenizer) (token : Token) : Span × Tokenizer :=
  let (style, t) := t.styleOf token.scope
  (.node (String.ofList token.text) (some token.scope.text) style [], t)

/-- The spans of tokens, one after the other. -/
def tokenSpans (t : Tokenizer) : List Token → List Span × Tokenizer
  | [] => ([], t)
  | token :: rest =>
    let (span, t) := t.tokenSpan token
    let (spans, t) := t.tokenSpans rest
    (span :: spans, t)

/-- The span of a line: a root without text whose children are the tokens that have text. -/
def lineSpan (t : Tokenizer) (tokens : List Token) : Span × Tokenizer :=
  let (spans, t) := t.tokenSpans (tokens.filter fun token => !token.text.isEmpty)
  (.node "" none none spans, t)

/-- What a lexer's refusal is reported as. -/
def refusal (t : Tokenizer) (reason : String) : String :=
  t.lexer.name ++ " lexer failed: " ++ reason

/-- The span of a line, unless the lexer refuses the line. -/
def highlight (t : Tokenizer) (line : String) : Except Failure Span × Tokenizer :=
  match t.lexer.tokens? line.toList with
  | .ok tokens =>
    let (span, t) := t.lineSpan tokens
    (.ok span, t)
  | .error reason => (.error (.tokenize (t.refusal reason)), t)

/-- The span of a line: none for the empty line, a run without style for a line that is refused. -/
def spanOf (t : Tokenizer) (line : String) : Option Span × Tokenizer :=
  if line.isEmpty then (none, t)
  else match t.highlight line with
    | (.ok s, t) => (some s, t)
    | (.error _, t) => (some (.plain line), t)

end Tokenizer

end EditorServices.Highlight
