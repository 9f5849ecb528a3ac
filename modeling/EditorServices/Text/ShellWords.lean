/-!
# `Text.ShellWords` — a command line as words

Words are divided by blanks. What stands between quotes belongs to one word, and so does a character
after a backslash; between double quotes a backslash is only special before a double quote or a
backslash.

## Contents
- `ShellFault` with its wording.
- `shellWords`, which reads the words of a text.
-/

namespace EditorServices

/-- Why a text has no words. -/
inductive ShellFault where
  | openQuote
  | nothingEscaped
deriving DecidableEq, Repr

def ShellFault.message : ShellFault → String
  | .openQuote => "No closing quotation"
  | .nothingEscaped => "No escaped character"

/-- Blanks between words. -/
def isShellBlank (c : Char) : Bool := c = ' ' || c = '\t' || c = '\r' || c = '\n'

/-- Where in a word a reader is. -/
inductive ShellState where
  | bare
  | single
  | double
  /-- After a backslash, inside double quotes or outside of all quotes. -/
  | escaped (quoted : Bool)
deriving DecidableEq, Repr

/-- The word so far, latest character first; none between words. A word may be empty. -/
abbrev ShellWord := Option (List Char)

/-- A word with a further character. -/
def ShellWord.push (w : ShellWord) (c : Char) : ShellWord := some (c :: w.getD [])

/-- A word that has begun, if only with a quote. -/
def ShellWord.begun (w : ShellWord) : ShellWord := some (w.getD [])

/-- A word with an escaped character. -/
def ShellWord.pushEscaped (w : ShellWord) (quoted : Bool) (c : Char) : ShellWord :=
  if quoted && c != '"' && c != '\\' then (w.push '\\').push c else w.push c

/-- The words of a text of which `w` was read before. -/
def shellWordsFrom (state : ShellState) (w : ShellWord) :
    List Char → Except ShellFault (List (List Char))
  | [] =>
    match state with
    | .bare => .ok (w.toList.map List.reverse)
    | .escaped _ => .error .nothingEscaped
    | .single | .double => .error .openQuote
  | c :: r =>
    match state with
    | .escaped quoted =>
      shellWordsFrom (if quoted then .double else .bare) (w.pushEscaped quoted c) r
    | .single =>
      if c = '\'' then shellWordsFrom .bare w r else shellWordsFrom .single (w.push c) r
    | .double =>
      if c = '"' then shellWordsFrom .bare w r
      else if c = '\\' then shellWordsFrom (.escaped true) w r
      else shellWordsFrom .double (w.push c) r
    | .bare =>
      if c = '\'' then shellWordsFrom .single w.begun r
      else if c = '"' then shellWordsFrom .double w.begun r
      else if c = '\\' then shellWordsFrom (.escaped false) w r
      else if isShellBlank c then
        (shellWordsFrom .bare none r).map (w.toList.map List.reverse ++ ·)
      else shellWordsFrom .bare (w.push c) r

/-- The words of a text. -/
def shellWords (s : List Char) : Except ShellFault (List (List Char)) := shellWordsFrom .bare none s

end EditorServices
