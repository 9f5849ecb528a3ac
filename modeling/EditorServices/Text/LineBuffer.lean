import EditorServices.Failure

/-!
# `Text.LineBuffer` — the lines of a document that is edited

Edits name lines by index; a negative index counts from the end. Reading takes no negative index.

## Contents
- `LineBuffer`, reading by `line`, editing by `replace`, `delete` and `insert`.
-/

namespace EditorServices

/-- The lines of a document. -/
abbrev LineBuffer (α : Type) := List α

namespace LineBuffer

variable {α : Type}

/-- The place of an index among `n` lines. -/
def place? (i : Int) (n : Nat) : Option Nat :=
  let k := if i < 0 then i + n else i
  if 0 ≤ k ∧ k < n then some k.toNat else none

/-- The line at an index. -/
def line (ls : LineBuffer α) (i : Int) : Except Failure α :=
  if i < 0 then .error .outOfRange
  else match ls[i.toNat]? with
    | some text => .ok text
    | none => .error .outOfRange

def replace (ls : LineBuffer α) (i : Int) (text : α) : Except Failure (LineBuffer α) :=
  match place? i ls.length with
  | some k => .ok (ls.set k text)
  | none => .error .outOfRange

def delete (ls : LineBuffer α) (i : Int) : Except Failure (LineBuffer α) :=
  match place? i ls.length with
  | some k => .ok (ls.eraseIdx k)
  | none => .error .outOfRange

/-- Puts a line before the one at an index; an index beyond an end stands for that end. -/
def insert (ls : LineBuffer α) (i : Int) (text : α) : LineBuffer α :=
  let n : Int := ls.length
  let k := if i < 0 then max 0 (i + n) else min i n
  ls.insertIdx k.toNat text

end LineBuffer

end EditorServices
