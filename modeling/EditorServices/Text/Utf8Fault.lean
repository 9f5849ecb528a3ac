import EditorServices.Json.Printer
import EditorServices.Text.Utf8

/-!
# `Text.Utf8Fault` — where bytes stop being text

## Contents
- **Forms.** `tailRanges?`, the bytes that have to follow a first byte.
- **Faults.** `Utf8Fault` and its wording; `utf8Fault?` finds the first one.
- **Files.** `readFileText`.
-/

namespace EditorServices

/-! ## Forms -/

/-- The range of a byte that goes on with a character. -/
def tailRange : UInt8 × UInt8 := (0x80, 0xbf)

/-- The ranges of the bytes after a first byte; none if no character starts with it. -/
def tailRanges? (a : UInt8) : Option (List (UInt8 × UInt8)) :=
  if a < 0x80 then some []
  else if a < 0xc2 then none
  else if a < 0xe0 then some [tailRange]
  else if a = 0xe0 then some [(0xa0, 0xbf), tailRange]
  else if a = 0xed then some [(0x80, 0x9f), tailRange]
  else if a < 0xf0 then some [tailRange, tailRange]
  else if a = 0xf0 then some [(0x90, 0xbf), tailRange, tailRange]
  else if a < 0xf4 then some [tailRange, tailRange, tailRange]
  else if a = 0xf4 then some [(0x80, 0x8f), tailRange, tailRange]
  else none

/-! ## Faults -/

inductive Utf8FaultKind where
  | badStart
  | badContinuation
  | unfinished
deriving DecidableEq, Repr

/-- Bytes that form no character: their place, their number, and the first of them. -/
structure Utf8Fault where
  kind : Utf8FaultKind
  position : Nat
  size : Nat
  first : UInt8
deriving DecidableEq, Repr

/-- How far bytes keep to the ranges: the number of bytes that do, and what is wrong after them. -/
def followRanges : List (UInt8 × UInt8) → Bytes → Nat × Option Utf8FaultKind
  | [], _ => (0, none)
  | _ :: _, [] => (0, some .unfinished)
  | (low, high) :: ranges, b :: r =>
    if low ≤ b ∧ b ≤ high then
      let (n, fault) := followRanges ranges r
      (n + 1, fault)
    else (0, some .badContinuation)

/-- The first fault of bytes that start at a position. -/
def utf8FaultFrom? (position : Nat) (bytes : Bytes) : Option Utf8Fault :=
  match bytes with
  | [] => none
  | a :: r =>
    match tailRanges? a with
    | none => some ⟨.badStart, position, 1, a⟩
    | some ranges =>
      match followRanges ranges r with
      | (n, some kind) => some ⟨kind, position, n + 1, a⟩
      | (n, none) => utf8FaultFrom? (position + n + 1) (r.drop n)
termination_by bytes.length
decreasing_by
  rw [List.length_drop, List.length_cons]
  exact Nat.lt_succ_of_le (Nat.sub_le _ _)

/-- The first fault of bytes. -/
def utf8Fault? (bytes : Bytes) : Option Utf8Fault := utf8FaultFrom? 0 bytes

namespace Utf8Fault

/-- A lower-case hexadecimal digit. -/
def hexDigit (n : Nat) : Char := if n < 10 then Char.ofNat (48 + n) else Char.ofNat (87 + n)

def reason : Utf8FaultKind → String
  | .badStart => "invalid start byte"
  | .badContinuation => "invalid continuation byte"
  | .unfinished => "unexpected end of data"

/-- Which bytes are at fault. -/
def place (f : Utf8Fault) : String :=
  let number (n : Nat) : String := String.ofList (intDigits n)
  if f.size = 1 then
    let n := f.first.toNat
    "byte 0x" ++ String.ofList [hexDigit (n / 16), hexDigit (n % 16)] ++
      " in position " ++ number f.position
  else "bytes in position " ++ number f.position ++ "-" ++ number (f.position + f.size - 1)

def message (f : Utf8Fault) : String :=
  "'utf-8' codec can't decode " ++ f.place ++ ": " ++ reason f.kind

end Utf8Fault

/-! ## Files -/

/-- The text of a file, or what is wrong with its bytes. -/
def readFileText (bytes : Bytes) : Except String (List Char) :=
  match fileText? bytes with
  | some text => .ok text
  | none => .error (((utf8Fault? bytes).map Utf8Fault.message).getD "")

end EditorServices
