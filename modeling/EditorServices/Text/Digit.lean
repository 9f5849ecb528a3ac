import EditorServices.Text.CharRange

/-!
# `Text.Digit` — digits of all scripts

Decimal digits come in runs of ten. Other digits, such as superscripts, have a value but form no
decimal number.

## Contents
- **Digits.** The value of a decimal digit of any script, and which characters are digits.
- **Numbers.** Integers written with a sign and with single underscores between digits.
-/

namespace EditorServices

/-! ## Digits -/

/-- The zeros of all scripts; each starts a run of ten decimal digits. -/
def decimalZeros : List Nat :=
  [0x30, 0x660, 0x6f0, 0x7c0, 0x966, 0x9e6, 0xa66, 0xae6, 0xb66, 0xbe6, 0xc66, 0xce6, 0xd66, 0xde6,
   0xe50, 0xed0, 0xf20, 0x1040, 0x1090, 0x17e0, 0x1810, 0x1946, 0x19d0, 0x1a80, 0x1a90, 0x1b50,
   0x1bb0, 0x1c40, 0x1c50, 0xa620, 0xa8d0, 0xa900, 0xa9d0, 0xa9f0, 0xaa50, 0xabf0, 0xff10, 0x104a0,
   0x10d30, 0x11066, 0x110f0, 0x11136, 0x111d0, 0x112f0, 0x11450, 0x114d0, 0x11650, 0x116c0,
   0x11730, 0x118e0, 0x11950, 0x11c50, 0x11d50, 0x11da0, 0x16a60, 0x16ac0, 0x16b50, 0x1d7ce,
   0x1d7d8, 0x1d7e2, 0x1d7ec, 0x1d7f6, 0x1e140, 0x1e2f0, 0x1e950, 0x1fbf0]

/-- Digits that are no decimal digits. -/
def otherDigitRanges : CharRanges :=
  [(0xb2, 0xb3), (0xb9, 0xb9), (0x1369, 0x1371), (0x19da, 0x19da), (0x2070, 0x2070),
   (0x2074, 0x2079), (0x2080, 0x2089), (0x2460, 0x2468), (0x2474, 0x247c), (0x2488, 0x2490),
   (0x24ea, 0x24ea), (0x24f5, 0x24fd), (0x24ff, 0x24ff), (0x2776, 0x277e), (0x2780, 0x2788),
   (0x278a, 0x2792), (0x10a40, 0x10a43), (0x10e60, 0x10e68), (0x11052, 0x1105a), (0x1f100, 0x1f10a)]

/-- The value of a decimal digit of any script. -/
def decimalValue? (c : Char) : Option Nat :=
  let n := c.toNat
  if n < 0x80 then (if 48 ≤ n && n ≤ 57 then some (n - 48) else none)
  else (decimalZeros.find? fun z => z ≤ n && n < z + 10).map fun z => n - z

/-- Whether a character is a digit, decimal or not. -/
def isAnyDigit (c : Char) : Bool := (decimalValue? c).isSome || otherDigitRanges.has c.toNat

/-- The value of an ASCII digit. -/
def asciiDigit? (c : Char) : Option Nat :=
  if '0' ≤ c ∧ c ≤ '9' then some (c.toNat - 48) else none

/-! ## Numbers -/

/-- The most digits that an integer may have to be read or written. -/
def maxIntegerDigits : Nat := 4300

/-- What is said of an integer with too many digits. -/
def tooManyDigitsText (digits : Nat) : String :=
  "Exceeds the limit (" ++ toString maxIntegerDigits ++
    " digits) for integer string conversion: value has " ++ toString digits ++
    " digits; use sys.set_int_max_str_digits() to increase the limit"

/-- What is said of an integer that has too many digits to be written. -/
def unwritableIntegerText : String :=
  "Exceeds the limit (" ++ toString maxIntegerDigits ++
    " digits) for integer string conversion; use sys.set_int_max_str_digits() to increase the limit"

/-- The digits of a number; single underscores may stand between digits. -/
def groupedDigits? (digit : Char → Option Nat) : List Char → Option (List Nat)
  | [] => none
  | [d] => (digit d).map ([·])
  | d :: '_' :: e :: r => do
    let v ← digit d
    let vs ← groupedDigits? digit (e :: r)
    some (v :: vs)
  | d :: e :: r => do
    let v ← digit d
    let vs ← groupedDigits? digit (e :: r)
    some (v :: vs)

/-- The value of decimal digits. -/
def digitsNumber (ds : List Nat) : Nat := ds.foldl (fun n d => n * 10 + d) 0

/-- A sign and the text after it. -/
def takeSign : List Char → Bool × List Char
  | '-' :: r => (true, r)
  | '+' :: r => (false, r)
  | r => (false, r)

/-- A number with a sign in front of it. -/
def withSign (negative : Bool) (n : Nat) : Int := if negative then -(n : Int) else (n : Int)

/-- The integer that a text writes: an optional sign and digits. -/
def signedNumber? (digit : Char → Option Nat) (s : List Char) : Option Int :=
  let (negative, s) := takeSign s
  (groupedDigits? digit s).map fun ds => withSign negative (digitsNumber ds)

end EditorServices
