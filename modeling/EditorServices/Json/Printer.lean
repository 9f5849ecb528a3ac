import EditorServices.Json.Basic
import EditorServices.Number.Shortest
import EditorServices.Text.LoneUnit

/-!
# `Json.Printer` — JSON values as text

## Contents
- **Styles.** `PrintStyle`: blanks, indentation, which characters are escaped, number layout.
- **Strings.** `escapeChar` writes one character; `quote` is the concatenation between quotes.
- **Values.** `Json.print` and the styles in use.
-/

namespace EditorServices

/-! ## Styles -/

/-- How a JSON value is laid out as text. -/
structure PrintStyle where
  /-- Blanks after the comma between items on one line. -/
  afterComma : List Char
  /-- Blanks after the colon of a member. -/
  afterColon : List Char
  /-- Width of one level of indentation; none writes everything on one line. -/
  indent : Option Nat
  /-- Whether characters beyond ASCII, and the delete character, are escaped. -/
  asciiOnly : Bool
  /-- Whether a solidus is escaped. -/
  escapeSolidus : Bool
  /-- Whether the delete character is escaped along with the characters beyond ASCII. -/
  escapeDelete : Bool
  /-- Whether a character that stands for half a surrogate pair is escaped as that half. -/
  showsHalves : Bool
  numbers : DecimalLayout

/-! ## Strings -/

/-- A hexadecimal digit in lower case. -/
def hexDigit (n : Nat) : Char :=
  if n < 10 then Char.ofNat (48 + n) else Char.ofNat (87 + n)

/-- Four hexadecimal digits. -/
def hex4 (n : Nat) : List Char :=
  [hexDigit (n / 4096 % 16), hexDigit (n / 256 % 16), hexDigit (n / 16 % 16), hexDigit (n % 16)]

/-- The escape of one code unit of sixteen bits. -/
def unitEscape (n : Nat) : List Char := '\\' :: 'u' :: hex4 n

/-- The escape of a character by its sixteen-bit units: one, or a surrogate pair. -/
def unicodeEscape (c : Char) : List Char :=
  let n := c.toNat
  if n < 0x10000 then unitEscape n
  else
    let v := n - 0x10000
    unitEscape (0xd800 + v / 1024) ++ unitEscape (0xdc00 + v % 1024)

/-- The two-character escape of a character, if it has one. -/
def shortEscape? (c : Char) : Option Char :=
  if c = '"' then some '"'
  else if c = '\\' then some '\\'
  else if c = '\n' then some 'n'
  else if c = '\r' then some 'r'
  else if c = '\t' then some 't'
  else if c.toNat = 8 then some 'b'
  else if c.toNat = 12 then some 'f'
  else none

namespace PrintStyle

/-- One character inside a string. -/
def escapeChar (style : PrintStyle) (c : Char) : List Char :=
  match shortEscape? c with
  | some e => ['\\', e]
  | none =>
    if c = '/' ∧ style.escapeSolidus then ['\\', '/']
    else if c.toNat < 32 then unitEscape c.toNat
    else if style.asciiOnly ∧ 128 ≤ c.toNat then
      match if style.showsHalves then loneUnit? c else none with
      | some n => unitEscape n
      | none => unicodeEscape c
    else if style.escapeDelete ∧ c.toNat = 127 then unitEscape 127
    else [c]

/-- The characters of a string without its quotes. -/
def escape (style : PrintStyle) (s : List Char) : List Char := s.flatMap style.escapeChar

/-- A string between quotes. -/
def quote (style : PrintStyle) (s : String) : List Char :=
  '"' :: (style.escape s.toList ++ ['"'])

/-- The break before an item at a level of nesting: nothing on one line, else a new line and
blanks. -/
def lineBreak (style : PrintStyle) (level : Nat) : List Char :=
  match style.indent with
  | none => []
  | some width => '\n' :: List.replicate (width * level) ' '

/-- What stands between two items. -/
def separator (style : PrintStyle) (level : Nat) : List Char :=
  ',' :: (if style.indent.isSome then style.lineBreak level else style.afterComma)

end PrintStyle

/-! ## Values -/

/-- Decimal text of an integer. -/
def intDigits (n : Int) : List Char :=
  if n < 0 then '-' :: decimalDigits n.natAbs else decimalDigits n.natAbs

namespace Json

mutual

/-- The text of a value at a level of nesting. -/
def printAt (style : PrintStyle) (level : Nat) : Json → List Char
  | .null => ['n', 'u', 'l', 'l']
  | .bool true => ['t', 'r', 'u', 'e']
  | .bool false => ['f', 'a', 'l', 's', 'e']
  | .int n => intDigits n
  | .float x => (x.text style.numbers).toList
  | .str s => style.quote s
  | .arr [] => ['[', ']']
  | .arr (x :: xs) =>
    '[' :: (style.lineBreak (level + 1) ++ printAt style (level + 1) x ++
      printItems style (level + 1) xs ++ style.lineBreak level ++ [']'])
  | .obj [] => ['{', '}']
  | .obj ((k, x) :: ms) =>
    '{' :: (style.lineBreak (level + 1) ++ style.quote k ++ ':' :: style.afterColon ++
      printAt style (level + 1) x ++ printMembers style (level + 1) ms ++
      style.lineBreak level ++ ['}'])

/-- The items after the first, each with the separator before it. -/
def printItems (style : PrintStyle) (level : Nat) : List Json → List Char
  | [] => []
  | x :: xs => style.separator level ++ printAt style level x ++ printItems style level xs

/-- The members after the first, each with the separator before it. -/
def printMembers (style : PrintStyle) (level : Nat) : List (String × Json) → List Char
  | [] => []
  | (k, x) :: ms =>
    style.separator level ++ style.quote k ++ ':' :: style.afterColon ++ printAt style level x ++
      printMembers style level ms

end

/-- The text of a value. -/
def print (style : PrintStyle) (v : Json) : List Char := v.printAt style 0

/-- The text of a value as a string. -/
def toText (style : PrintStyle) (v : Json) : String := String.ofList (v.print style)

end Json

/-! ## Styles in use -/

namespace PrintStyle

/-- One line, a blank after comma and colon, ASCII only. -/
def plain : PrintStyle := ⟨[' '], [' '], none, true, false, true, false, jsonLayout⟩

/-- The plain style, in which also halves of surrogate pairs come out as they were read. -/
def faithful : PrintStyle := { plain with showsHalves := true }

/-- One line without blanks, every printable character as it is. -/
def compact : PrintStyle := ⟨[], [], none, false, false, false, false, jsonLayout⟩

/-- Two blanks per level, ASCII only, halves of surrogate pairs as they were read. -/
def laidOut : PrintStyle := ⟨[], [' '], some 2, true, false, true, true, jsonLayout⟩

/-- Two blanks per level, every printable character as it is. -/
def indented : PrintStyle := ⟨[], [' '], some 2, false, false, false, false, jsonLayout⟩

/-- The form of messages between client and server: no blanks, ASCII only, the solidus escaped. -/
def wire : PrintStyle := ⟨[], [], none, true, true, false, false, ⟨-4, 16, 1, "NaN", "Infinity"⟩⟩

end PrintStyle

end EditorServices
