import EditorServices.Json.Printer
import EditorServices.Json.Reader
import EditorServices.Text.Blank
import EditorServices.Text.Digit
import EditorServices.Text.Utf8

/-!
# `Transport.Frame` — messages on a stream of bytes

A frame is a head of lines, a blank line, and a body whose length the first line of the head gives.
A head whose first line gives no length is followed by a body that reaches to the end of the stream.
The format has no limits; who reads has some.

## Contents
- **Writing.** `Frame.ofMessage`, the text of a message's frame.
- **Limits.** `Limits`, what a reader takes, and the usual ones.
- **Lines.** `takeLine` and `afterBlankLine`.
- **Lengths.** What the first line of a head says about the length.
- **Reading.** `takeBody` takes one body off a stream; `messageOf?` reads it.
-/

namespace EditorServices

namespace Frame

/-! ## Writing -/

/-- The word before the length. -/
def lengthLabel : String := "Content-Length: "

/-- The end of a head: the kind of the body, and a blank line. -/
def headEnd : String := "\r\nContent-Type: application/vscode-jsonrpc; charset=utf8\r\n\r\n"

/-- The body of a message's frame. -/
def bodyText (message : Json) : List Char := message.print .wire

/-- The text of a message's frame. -/
def ofMessage (message : Json) : List Char :=
  let body := bodyText message
  lengthLabel.toList ++ decimalDigits (utf8Encode body).length ++ headEnd.toList ++ body

/-! ## Limits -/

/-- What a reader takes; none is no limit. -/
structure Limits where
  /-- The most digits of an integer. -/
  digits : Option Nat
  /-- How many arrays and objects may be open at once. -/
  depth : Option Nat
  /-- One more than the greatest number that a length can be. -/
  length : Option Int
  /-- The least length of a body that there is no room for. -/
  room : Option Int
deriving DecidableEq

namespace Limits

/-- A reader that takes whatever the format can say. -/
def unlimited : Limits := ⟨none, none, none, none⟩

/-- One more than the greatest length: it is a word of 64 bits with a sign. -/
def lengthBound : Int := 9223372036854775808

/-- The least length of a body that no host has room for. -/
def roomBound : Int := 34359738368

def usual : Limits := ⟨some maxIntegerDigits, some 1024, some lengthBound, some roomBound⟩

end Limits

/-! ## Lines -/

/-- The line end among bytes. -/
def newline : UInt8 := 10

/-- The first line of some bytes with its line end, and the bytes after it. -/
def takeLine : Bytes → Bytes × Bytes
  | [] => ([], [])
  | b :: r =>
    if b = newline then ([b], r)
    else
      let (line, rest) := takeLine r
      (b :: line, rest)

theorem takeLine_append (s : Bytes) : (takeLine s).1 ++ (takeLine s).2 = s := by
  induction s with
  | nil => rfl
  | cons b r ih =>
    rw [takeLine]
    split
    · rfl
    · simpa using ih

theorem takeLine_rest_lt (b : UInt8) (r : Bytes) :
    (takeLine (b :: r)).2.length < (b :: r).length := by
  induction r generalizing b with
  | nil => rw [takeLine]; split <;> simp [takeLine]
  | cons c r ih =>
    rw [takeLine]
    split
    · simp
    · exact Nat.lt_succ_of_lt (ih c)

/-- Whether a line has only blanks. -/
def isBlankLine (line : Bytes) : Bool := line.all isByteBlank

/-- What follows the first blank line; none if there is none. -/
def afterBlankLine : Bytes → Option Bytes
  | [] => none
  | b :: r =>
    if isBlankLine (takeLine (b :: r)).1 then some (takeLine (b :: r)).2
    else afterBlankLine (takeLine (b :: r)).2
termination_by s => s.length
decreasing_by exact takeLine_rest_lt b r

/-! ## Lengths -/

/-- What the first line of a head says about the length of the body. -/
inductive Length where
  | unstated
  | stated (n : Int)
  | unreadable
deriving DecidableEq, Repr

/-- Whether bytes contain others. -/
def contains (needle : Bytes) : Bytes → Bool
  | [] => needle.isEmpty
  | b :: r => needle.isPrefixOf (b :: r) || contains needle r

/-- The text of ASCII bytes; other bytes become a character that is no digit. -/
def asciiText (s : Bytes) : List Char :=
  s.map fun b => if b < 0x80 then Char.ofNat b.toNat else '?'

/-- The number that bytes write between blanks. -/
def number? (limits : Limits) (s : Bytes) : Option Int :=
  let text := asciiText (stripBy isByteBlank s)
  if limits.digits.any (· < (text.filter isDigit).length) then none
  else signedNumber? asciiDigit? text

/-- The length that a line states. The label may stand in it only once. -/
def lengthOf (limits : Limits) (line : Bytes) : Length :=
  let label := utf8Encode lengthLabel.toList
  if label.isPrefixOf line then
    let rest := line.drop label.length
    if contains label rest then .unreadable
    else match number? limits rest with
      | some n => .stated n
      | none => .unreadable
  else .unstated

/-! ## Reading -/

/-- What is found at the start of a stream. -/
inductive Taken where
  /-- The stream ends before a body begins. -/
  | ended
  /-- The length cannot be used; reading may go on with the rest. -/
  | unreadable (rest : Bytes)
  /-- The length is beyond what can be addressed. -/
  | tooLong (rest : Bytes)
  /-- There is no room for a body of this length. -/
  | noRoom (rest : Bytes)
  | body (bytes rest : Bytes)
deriving DecidableEq, Repr

/-- The bytes that are kept beside those of a body. -/
def bodyOverhead : Int := 33

/-- Whether a number cannot be the length of bytes. -/
def Limits.exceeds (limits : Limits) (n : Int) : Bool :=
  limits.length.any fun bound => bound - bodyOverhead ≤ n ∨ n < -bound

/-- Takes one body off a stream. A body that is longer than the stream is what the stream has. -/
def takeBody (limits : Limits) (s : Bytes) : Taken :=
  let (line, rest) := takeLine s
  match lengthOf limits line with
  | .unreadable => .unreadable rest
  | .unstated =>
    match afterBlankLine s with
    | some r => .body r []
    | none => .ended
  | .stated n =>
    match afterBlankLine s with
    | none => .ended
    | some r =>
      if limits.exceeds n then .tooLong r
      else if limits.room.any (· ≤ n) then .noRoom r
      else if 0 ≤ n then .body (r.take n.toNat) (r.drop n.toNat)
      else if n = -1 then .body r []
      else .unreadable r

/-- The message that a body holds. -/
def messageOf? (limits : Limits) (body : Bytes) : Option Json := do
  let text ← utf8Decode? body
  Json.readWire limits.digits limits.depth text

end Frame

end EditorServices
