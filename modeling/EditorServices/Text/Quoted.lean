import EditorServices.Json.Printer
import EditorServices.Text.Printable

/-!
# `Text.Quoted` — values as readable text

A text on its own is shown as it is; inside a list or dictionary it stands between quotes, with
everything escaped that cannot be shown.

## Contents
- **Quoted texts.** `quoted`, between single quotes unless only those occur in it.
- **Values.** `Json.shown` for a value on its own, `Json.shownInside` for one inside another.
-/

namespace EditorServices

/-! ## Quoted texts -/

/-- Lower-case hexadecimal digits of a number, at least `width` of them. -/
def hexPadded (width n : Nat) : List Char :=
  let ds := Nat.toDigits 16 n
  List.replicate (width - ds.length) '0' ++ ds

/-- One character of a quoted text. -/
def quotedChar (mark c : Char) : List Char :=
  if c = mark ∨ c = '\\' then ['\\', c]
  else if c = '\n' then ['\\', 'n']
  else if c = '\r' then ['\\', 'r']
  else if c = '\t' then ['\\', 't']
  else if isPrintable c then [c]
  else
    let n := (loneUnit? c).getD c.toNat
    if n < 0x100 then '\\' :: 'x' :: hexPadded 2 n
    else if n < 0x10000 then '\\' :: 'u' :: hexPadded 4 n
    else '\\' :: 'U' :: hexPadded 8 n

/-- The quote that a text stands between: a double one if the text has single ones only. -/
def quoteMark (s : List Char) : Char := if s.contains '\'' && !s.contains '"' then '"' else '\''

/-- A text between quotes. -/
def quoted (s : List Char) : List Char :=
  let mark := quoteMark s
  mark :: (s.flatMap (quotedChar mark) ++ [mark])

/-! ## Values -/

namespace Json

mutual

/-- A value inside another one. -/
def shownInside : Json → List Char
  | .null => "None".toList
  | .bool true => "True".toList
  | .bool false => "False".toList
  | .int n => intDigits n
  | .float x => (x.text valueLayout).toList
  | .str s => quoted s.toList
  | .arr xs => '[' :: (shownItems xs ++ [']'])
  | .obj ms => '{' :: (shownMembers ms ++ ['}'])

def shownItems : List Json → List Char
  | [] => []
  | [x] => shownInside x
  | x :: y :: xs => shownInside x ++ ',' :: ' ' :: shownItems (y :: xs)

def shownMembers : List (String × Json) → List Char
  | [] => []
  | [(k, x)] => quoted k.toList ++ ':' :: ' ' :: shownInside x
  | (k, x) :: m :: ms =>
    quoted k.toList ++ ':' :: ' ' :: shownInside x ++ ',' :: ' ' :: shownMembers (m :: ms)

end

/-- A value on its own. -/
def shown : Json → String
  | .str s => s
  | v => String.ofList v.shownInside

end Json

end EditorServices
