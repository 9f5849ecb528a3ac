import EditorServices.Highlight.Lexer

/-!
# `Highlight.Lexer.Json` — JSON, cut without being checked

Each token is a run that its first character determines. Two things need more than one run: a string
is a name if a colon is the next run that is neither a string nor blank nor a comment, and a run
that the text ends within may be an error.

## Contents
- **Runs.** `Run` and its kinds; `closeString` and `closeComment` find where a run ends.
- **Cutting.** `nextRun` takes one run off a text, `runs` all of them.
- **The lexer.** `labelled` gives each run its scope; `Lexer.json`.
-/

namespace EditorServices.Highlight.JsonRuns

/-! ## Runs -/

/-- The kinds of runs. -/
inductive Kind where
  | string
  | blank
  | constant
  | integer
  | float
  | punctuation
  /-- Punctuation that starts with a colon. -/
  | colon
  | lineComment
  | blockComment
  | error
deriving DecidableEq, Repr

structure Run where
  kind : Kind
  text : List Char
deriving DecidableEq, Repr

def isBlankChar (c : Char) : Bool := c == ' ' || c == '\t' || c == '\n' || c == '\r'

def isConstantChar (c : Char) : Bool := "truefalsn".toList.contains c

def isIntegerChar (c : Char) : Bool := c == '-' || c.isDigit

def isNumberChar (c : Char) : Bool := isIntegerChar c || ".eE+".toList.contains c

def isPunctuationChar (c : Char) : Bool := ['{', '}', '[', ']', ','].contains c

def isHexDigit (c : Char) : Bool := c.isDigit || ('a' ≤ c && c ≤ 'f') || ('A' ≤ c && c ≤ 'F')

/-- Where the reading of a string stands: outside an escape, after a backslash, or before the given
number of hexadecimal digits. -/
inductive StringPlace where
  | outside
  | escaped
  | digits (left : Nat)
deriving DecidableEq, Repr

/-- The place after one more character that does not close the string. -/
def StringPlace.after : StringPlace → Char → StringPlace
  | .outside, c => if c = '\\' then .escaped else .outside
  | .escaped, c => if c = 'u' then .digits 4 else .outside
  | .digits n, c => if isHexDigit c && decide (1 < n) then .digits (n - 1) else .outside

/-- The part of a string up to its closing quote and what follows; none if no quote closes it. -/
def closeString : StringPlace → List Char → Option (List Char × List Char)
  | _, [] => none
  | p, c :: r =>
    if p = .outside ∧ c = '"' then some ([c], r)
    else match closeString (p.after c) r with
      | some (body, rest) => some (c :: body, rest)
      | none => none

/-- The part of a comment up to its closing mark and what follows; none if it is not closed. -/
def closeComment : Bool → List Char → Option (List Char × List Char)
  | _, [] => none
  | starred, c :: r =>
    if starred && c == '/' then some ([c], r)
    else match closeComment (c == '*') r with
      | some (body, rest) => some (c :: body, rest)
      | none => none

theorem closeString_append {p : StringPlace} {s body rest : List Char}
    (h : closeString p s = some (body, rest)) : s = body ++ rest := by
  induction s generalizing p body with
  | nil => simp [closeString] at h
  | cons c r ih =>
    rw [closeString] at h
    split at h
    · obtain ⟨rfl, rfl⟩ := by simpa using h
      rfl
    · split at h
      · next b t hb =>
        obtain ⟨rfl, rfl⟩ := by simpa using h
        simp [ih hb]
      · simp at h

theorem closeComment_append {starred : Bool} {s body rest : List Char}
    (h : closeComment starred s = some (body, rest)) : s = body ++ rest := by
  induction s generalizing starred body with
  | nil => simp [closeComment] at h
  | cons c r ih =>
    rw [closeComment] at h
    split at h
    · obtain ⟨rfl, rfl⟩ := by simpa using h
      rfl
    · split at h
      · next b t hb =>
        obtain ⟨rfl, rfl⟩ := by simpa using h
        simp [ih hb]
      · simp at h

/-! ## Cutting -/

/-- The run of characters of one class after a first character. -/
def classRun (kind : Kind) (isMember : Char → Bool) (c : Char) (r : List Char) : Run × List Char :=
  (⟨kind, c :: r.takeWhile isMember⟩, r.dropWhile isMember)

/-- The run that a character starts, and the text after it. -/
def nextRun (c : Char) (r : List Char) : Run × List Char :=
  if c = '"' then
    match closeString .outside r with
    | some (body, rest) => (⟨.string, c :: body⟩, rest)
    | none => (⟨.error, c :: r⟩, [])
  else if isBlankChar c then classRun .blank isBlankChar c r
  else if c = 'f' ∨ c = 'n' ∨ c = 't' then classRun .constant isConstantChar c r
  else if isIntegerChar c then
    let whole := (r.takeWhile isNumberChar).all isIntegerChar
    classRun (if whole then .integer else .float) isNumberChar c r
  else if c = ':' then classRun .colon isPunctuationChar c r
  else if isPunctuationChar c then classRun .punctuation isPunctuationChar c r
  else if c = '/' then
    match r with
    | '/' :: _ => classRun .lineComment (· != '\n') c r
    | '*' :: r' =>
      match closeComment false r' with
      | some (body, rest) => (⟨.blockComment, c :: '*' :: body⟩, rest)
      | none => (⟨.error, c :: r⟩, [])
    | _ => (⟨.error, [c]⟩, r)
  else (⟨.error, [c]⟩, r)

/-- A run and the text after it make up the text. -/
theorem nextRun_append (c : Char) (r : List Char) :
    (nextRun c r).1.text ++ (nextRun c r).2 = c :: r := by
  unfold nextRun
  split
  · split
    · next h => simp [closeString_append h]
    · simp
  · split
    · simp [classRun]
    · split
      · simp [classRun]
      · split
        · simp [classRun]
        · split
          · simp [classRun]
          · split
            · simp [classRun]
            · split
              · split
                · simp [classRun]
                · split
                  · next h => simp [closeComment_append h]
                  · simp
                · simp
              · simp

/-- A run holds at least the character that it starts with. -/
theorem nextRun_text_ne_nil (c : Char) (r : List Char) : (nextRun c r).1.text ≠ [] := by
  unfold nextRun classRun
  repeat' split
  all_goals simp

theorem length_nextRun_lt (c : Char) (r : List Char) :
    (nextRun c r).2.length < (c :: r).length := by
  have h := congrArg List.length (nextRun_append c r)
  have h' := List.length_pos_iff.2 (nextRun_text_ne_nil c r)
  simp only [List.length_append] at h
  omega

/-- All runs of a text. -/
def runs : List Char → List Run
  | [] => []
  | c :: r => (nextRun c r).1 :: runs (nextRun c r).2
termination_by s => s.length
decreasing_by exact length_nextRun_lt c r

/-- The runs of a text make up the text. -/
theorem flatMap_text_runs (s : List Char) : (runs s).flatMap Run.text = s := by
  fun_induction runs s with
  | case1 => rfl
  | case2 c r ih => simp [ih, nextRun_append]

/-! ## The lexer -/

/-- Whether the colon that makes a string a name may still follow after a run of this kind. -/
def Kind.isPassed : Kind → Bool
  | .string | .blank | .lineComment | .blockComment => true
  | _ => false

/-- Whether a colon is the first of the runs that is not passed over. -/
def colonFollows (rs : List Run) : Bool :=
  match rs.find? fun run => !run.kind.isPassed with
  | some run => run.kind = .colon
  | none => false

/-- The scope of a run of a kind; a string that a colon follows is a name. -/
def Kind.scope (named : Bool) : Kind → Scope
  | .string => if named then .below "Name.Tag" else .below "Literal.String.Double"
  | .blank => .below "Text.Whitespace"
  | .constant => .below "Keyword.Constant"
  | .integer => .below "Literal.Number.Integer"
  | .float => .below "Literal.Number.Float"
  | .punctuation | .colon => .below "Punctuation"
  | .lineComment => .below "Comment.Single"
  | .blockComment => .below "Comment.Multiline"
  | .error => .below "Error"

/-- The tokens of runs. -/
def labelled : List Run → List Token
  | [] => []
  | run :: rs => ⟨run.kind.scope (colonFollows rs), run.text⟩ :: labelled rs

theorem covered_labelled (rs : List Run) : Token.covered (labelled rs) = rs.flatMap Run.text := by
  induction rs with
  | nil => rfl
  | cons run rs ih =>
    simp only [labelled, Token.covered, List.flatMap_cons]
    exact congrArg _ ih

end JsonRuns

/-- The lexer for JSON. -/
def Lexer.json : Lexer := ⟨"JSON", fun text => .ok (JsonRuns.labelled (JsonRuns.runs text))⟩

end EditorServices.Highlight
