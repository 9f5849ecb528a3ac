import EditorServices.Text.Blank
import EditorServices.Text.Digit
import EditorServices.Text.Quoted

/-!
# `Text.IntegerText` — integers that users write

A text is first taken as it stands: an optional minus sign, and digits without leading zeros. If
that fails, it is tidied once and taken again. Tidying removes blanks around the text, a plus sign,
leading zeros with the underscores among them, a fraction of zeros, and single underscores.

## Contents
- **As it stands.** `plainInteger` and `Reading`; a run of digits may be too long.
- **Tidying.** `dropLeadingZeros`, `dropZeroFraction`, `dropUnderscores`, and all of them in
  `tidied?`.
- **Reading.** `readInteger`.
- **Numbers without a sign.** `plainNumber`, which takes decimal digits of any script and says what is
  wrong with a text that is none.
-/

namespace EditorServices

namespace IntegerText

/-! ## As it stands -/

/-- What a text says. -/
inductive Reading where
  | value (n : Int)
  /-- There are more digits than are read. -/
  | tooLong
  | unreadable
deriving DecidableEq, Repr

/-- The longest run of digits that is read. -/
def maxLength : Nat := maxIntegerDigits

def isDigit (c : Char) : Bool := (asciiDigit? c).isSome

/-- The number that ASCII digits write. -/
def digitsValue (ds : List Char) : Nat := digitsNumber (ds.filterMap asciiDigit?)

/-- A minus sign and the text after it. -/
def takeMinus : List Char → Bool × List Char
  | '-' :: r => (true, r)
  | r => (false, r)

/-- An integer as it stands: a minus sign if it is negative, and digits without leading zeros. -/
def plainInteger (s : List Char) : Reading :=
  let (negative, r) := takeMinus s
  let digits := r.takeWhile isDigit
  match digits with
  | [] => .unreadable
  | '0' :: _ => if r.length = 1 then .value 0 else .unreadable
  | _ =>
    if maxLength < digits.length then .tooLong
    else if digits.length = r.length then .value (withSign negative (digitsValue digits))
    else .unreadable

/-! ## Tidying -/

/-- A text after some leading zeros; `zero` is the last character that was passed. Underscores among
the zeros are passed as well. A minus sign or a digit ends them, and so does a point, before which
the last character stays. -/
def afterZeros (zero : Char) : List Char → Option (List Char)
  | [] => some [zero]
  | c :: r =>
    if c = '0' ∨ c = '_' then afterZeros c r
    else if isDigit c ∨ c = '-' then some (c :: r)
    else if c = '.' then some (zero :: c :: r)
    else none

/-- A text without its leading zeros; none if it starts with neither a digit nor a minus sign. -/
def dropLeadingZeros : List Char → Option (List Char)
  | [] => none
  | c :: r =>
    if c = '0' then afterZeros c r
    else if isDigit c ∨ c = '-' then some (c :: r)
    else none

/-- A text without the fraction after its first point, if that has zeros only. -/
def dropZeroFraction (s : List Char) : List Char :=
  match s.dropWhile (· ≠ '.') with
  | _ :: zeros => if zeros ≠ [] ∧ zeros.all (· = '0') then s.takeWhile (· ≠ '.') else s
  | [] => s

/-- Whether two underscores stand side by side. -/
def hasDoubleUnderscore : List Char → Bool
  | '_' :: '_' :: _ => true
  | _ :: r => hasDoubleUnderscore r
  | [] => false

/-- A text without its underscores, if they stand singly and between other characters. -/
def dropUnderscores (s : List Char) : List Char :=
  if s.head? = some '_' ∨ s.getLast? = some '_' ∨ hasDoubleUnderscore s then s
  else s.filter (· ≠ '_')

/-- A text without the plus sign that it starts with; none if a minus sign follows. -/
def dropPlus : List Char → Option (List Char)
  | '+' :: '-' :: _ => none
  | '+' :: r => some r
  | s => some s

/-- The text made ready to be taken as it stands. -/
def tidied? (s : List Char) : Option (List Char) := do
  let s ← dropPlus (stripBy isNumberBlank s)
  let (negative, s) := takeMinus s
  let s ← dropLeadingZeros s
  let s := dropUnderscores (dropZeroFraction s)
  return if negative then '-' :: s else s

/-! ## Reading -/

/-- The integer that a text writes. Only a text that is too long as it stands is called so. -/
def readInteger (s : List Char) : Reading :=
  match plainInteger s with
  | .unreadable =>
    match (tidied? s).map plainInteger with
    | some (.value n) => .value n
    | _ => .unreadable
  | r => r

end IntegerText

/-! ## Numbers without a sign -/

/-- The most characters of a quoted text that is no number which are shown. -/
def maxShownLiteral : Nat := 200

/-- The number that decimal digits of any script write, or what is wrong with the text. The digits
it starts with are counted before the others are looked at. -/
def plainNumber (s : List Char) : Except String Nat :=
  let digits := (s.map decimalValue?).takeWhile Option.isSome
  if maxIntegerDigits < digits.length then .error (tooManyDigitsText digits.length)
  else if digits.length = s.length ∧ digits ≠ [] then .ok (digitsNumber (digits.filterMap id))
  else .error ("invalid literal for int() with base 10: " ++
    String.ofList ((quoted s).take maxShownLiteral))

end EditorServices
