import EditorServices.Highlight.Lexer.Json
import EditorServices.Highlight.Lexer.Names
import EditorServices.Highlight.Lexer.Words
import EditorServices.Text.LowerCase

/-!
# `Highlight.Lexer.Catalogue` — lexers by the names of languages

A lexer is known under several names, in any case of letters. Some languages have an identifier that
is no name of their lexer; those identifiers are looked up exactly as written.

## Contents
- **Entries.** `LexerEntry`, a lexer with its names; the entries `standard` and `extended`.
- **Choice.** `lexerOf?`, the lexer of a language.
-/

namespace EditorServices.Highlight

/-! ## Entries -/

/-- A lexer and the names it is known under, in lower case. -/
structure LexerEntry where
  lexer : Lexer
  names : List String

namespace LexerEntry

/-- The lexers of plain text, of JSON, and of other languages, whose texts are not cut here. -/
def standard : List LexerEntry :=
  [⟨.plain, ["text"]⟩, ⟨.json, ["json", "json-object"]⟩] ++
    lexerNames.map fun (name, names) => ⟨.unstructured name, names⟩

/-- The standard lexers and the one for words. -/
def extended : List LexerEntry := ⟨.words, ["x-words"]⟩ :: standard

end LexerEntry

/-! ## Choice -/

/-- Language identifiers with the lexer's name that they stand for. -/
def lexerAliases : List (String × String) :=
  [("plaintext", "text"), ("shellscript", "bash"), ("javascriptreact", "jsx"),
   ("typescriptreact", "tsx")]

/-- The lexer of a language. -/
def lexerOf? (entries : List LexerEntry) (language : String) : Option Lexer :=
  let name := (lexerAliases.lookup language).getD language
  let lower := String.ofList (lowerText name.toList)
  (entries.find? fun e => e.names.contains lower).map (·.lexer)

end EditorServices.Highlight
