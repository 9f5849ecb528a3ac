/-!
# `Text.Blank` — blank characters

## Contents
- `isBlank`: the blanks of all scripts, with the separators of ASCII.
- `isNumberBlank`: those of them that may surround a number.
- `isByteBlank`: the blanks among bytes.
- `strip`: a text without its leading and trailing blanks; `stripBy` for any class of members.
-/

namespace EditorServices

/-- Whether a character is blank. -/
def isBlank (c : Char) : Bool :=
  let n := c.toNat
  (9 ≤ n && n ≤ 13) || (28 ≤ n && n ≤ 32) || n == 0x85 || n == 0xa0 || n == 0x1680 ||
    (0x2000 ≤ n && n ≤ 0x200a) || n == 0x2028 || n == 0x2029 || n == 0x202f || n == 0x205f ||
    n == 0x3000

/-- A blank that may surround a number written as text; the separators of ASCII may not. -/
def isNumberBlank (c : Char) : Bool := isBlank c && !(28 ≤ c.toNat && c.toNat ≤ 31)

/-- Whether a byte is blank: tab, line feed, vertical tab, form feed, carriage return or space. -/
def isByteBlank (b : UInt8) : Bool := (9 ≤ b && b ≤ 13) || b == 32

/-- A list without the leading and trailing members of a class. -/
def stripBy {α : Type} (p : α → Bool) (s : List α) : List α :=
  ((s.dropWhile p).reverse.dropWhile p).reverse

/-- A text without its leading and trailing blanks. -/
def strip (s : List Char) : List Char := stripBy isBlank s

end EditorServices
