import EditorServices.Json.Basic
import EditorServices.Text.Digit
import EditorServices.Text.LoneUnit

/-!
# `Json.Reader` — reading JSON text

A recursive reader over characters. A failure names what went wrong and keeps the text that was left
there, from which the offset, line and column follow.

## Contents
- **Failures.** `ReadFault`, `ReadError` and their texts.
- **Strings.** `readString`, with escapes and surrogate pairs.
- **Numbers.** `readNumber` for the strict form, `readLooseNumber` for the form of messages.
- **Values.** `readValue` with explicit fuel, and `Json.read?`, which needs none.
-/

namespace EditorServices

/-! ## Failures -/

/-- What is wrong with a JSON text. -/
inductive ReadFault where
  | byteOrderMark
  | expectingValue
  | extraData
  | expectingName
  | expectingColon
  | expectingComma
  | unterminatedString
  | controlCharacter
  | badEscape
  | badUnicodeEscape
  /-- An integer has more digits than are read. -/
  | tooManyDigits (digits : Nat)
  /-- Arrays and objects are nested too deeply. -/
  | tooDeep
deriving DecidableEq, Repr

/-- A fault and the text that was left where it was found. -/
structure ReadError where
  fault : ReadFault
  rest : List Char
deriving DecidableEq

/-- The wording of a fault. -/
def ReadFault.message : ReadFault → String
  | .byteOrderMark => "Unexpected UTF-8 BOM (decode using utf-8-sig)"
  | .expectingValue => "Expecting value"
  | .extraData => "Extra data"
  | .expectingName => "Expecting property name enclosed in double quotes"
  | .expectingColon => "Expecting ':' delimiter"
  | .expectingComma => "Expecting ',' delimiter"
  | .unterminatedString => "Unterminated string starting at"
  | .controlCharacter => "Invalid control character at"
  | .badEscape => "Invalid \\escape"
  | .badUnicodeEscape => "Invalid \\uXXXX escape"
  | .tooManyDigits n => tooManyDigitsText n
  | .tooDeep => "maximum recursion depth exceeded"

/-- Line and column of the end of a text, both counted from one. -/
def lineColumn (before : List Char) : Nat × Nat :=
  before.foldl (fun (l, c) ch => if ch = '\n' then (l + 1, 1) else (l, c + 1)) (1, 1)

/-- Whether a fault is one of form, which has a place in the text. -/
def ReadFault.isPlaced : ReadFault → Bool
  | .tooManyDigits _ | .tooDeep => false
  | _ => true

/-- The fault, if it is one of form with its line, column and offset in the whole text. -/
def ReadError.message (e : ReadError) (whole : List Char) : String :=
  let offset := whole.length - e.rest.length
  let (line, column) := lineColumn (whole.take offset)
  if e.fault.isPlaced then
    e.fault.message ++ ": line " ++ toString line ++ " column " ++ toString column ++
      " (char " ++ toString offset ++ ")"
  else e.fault.message

/-! ## Characters -/

/-- Blanks between tokens: space, tab, line feed, carriage return. -/
def isJsonBlank (c : Char) : Bool := c == ' ' || c == '\t' || c == '\n' || c == '\r'

/-- The text after its leading blanks. -/
def skipBlanks (s : List Char) : List Char := s.dropWhile isJsonBlank

/-- The value of a hexadecimal digit. -/
def hexValue? (c : Char) : Option Nat :=
  if '0' ≤ c ∧ c ≤ '9' then some (c.toNat - 48)
  else if 'a' ≤ c ∧ c ≤ 'f' then some (c.toNat - 87)
  else if 'A' ≤ c ∧ c ≤ 'F' then some (c.toNat - 55)
  else none

/-- The value of four hexadecimal digits. -/
def hex4Value? (a b c d : Char) : Option Nat :=
  match hexValue? a, hexValue? b, hexValue? c, hexValue? d with
  | some a, some b, some c, some d => some (((a * 16 + b) * 16 + c) * 16 + d)
  | _, _, _, _ => none

/-- The character of a two-character escape, the backslash apart. -/
def unescape? (c : Char) : Option Char :=
  if c = '"' then some '"'
  else if c = '\\' then some '\\'
  else if c = '/' then some '/'
  else if c = 'b' then some (Char.ofNat 8)
  else if c = 'f' then some (Char.ofNat 12)
  else if c = 'n' then some '\n'
  else if c = 'r' then some '\r'
  else if c = 't' then some '\t'
  else none

def isHighSurrogate (n : Nat) : Bool := 0xd800 ≤ n && n < 0xdc00

def isLowSurrogate (n : Nat) : Bool := 0xdc00 ≤ n && n < 0xe000

/-- The character of one code unit, or the one that stands for a surrogate. -/
def unitChar (n : Nat) : Char := if isPairHalf n then loneUnit n else Char.ofNat n

/-- The character of a surrogate pair. -/
def pairChar (high low : Nat) : Char :=
  Char.ofNat (0x10000 + (high - 0xd800) * 1024 + (low - 0xdc00))

/-! ## Strings -/

/-- Puts a character before what was read. -/
def prependChar (c : Char) :
    Except ReadError (List Char × List Char) → Except ReadError (List Char × List Char)
  | .ok (cs, rest) => .ok (c :: cs, rest)
  | .error e => .error e

/-- The character of a `u` escape with the four digits read, and the text after it. A high surrogate
joins with a low one if a whole second escape and one more character follow. -/
def readUnit (n : Nat) (rest : List Char) : Except ReadError (Char × List Char) :=
  if isHighSurrogate n then
    match rest with
    | '\\' :: 'u' :: a :: b :: c :: d :: last :: r =>
      match hex4Value? a b c d with
      | none => .error ⟨.badUnicodeEscape, rest.tail⟩
      | some m =>
        if isLowSurrogate m then .ok (pairChar n m, last :: r) else .ok (unitChar n, rest)
    | _ => .ok (unitChar n, rest)
  else .ok (unitChar n, rest)

/-- The character of an escape and the text after it. `start` is the text from the backslash on, the
last argument the text after the backslash. -/
def readEscape (opening start : List Char) : List Char → Except ReadError (Char × List Char)
  | [] => .error ⟨.unterminatedString, opening⟩
  | e :: r =>
    if e = 'u' then
      match r with
      | a :: b :: c :: d :: last :: rest =>
        match hex4Value? a b c d with
        | none => .error ⟨.badUnicodeEscape, e :: r⟩
        | some n => readUnit n (last :: rest)
      | _ => .error ⟨.badUnicodeEscape, e :: r⟩
    else
      match unescape? e with
      | none => .error ⟨.badEscape, start⟩
      | some d => .ok (d, r)

theorem readUnit_length {n : Nat} {s rest : List Char} {c : Char}
    (h : readUnit n s = .ok (c, rest)) : rest.length ≤ s.length := by
  unfold readUnit at h
  split at h
  · split at h
    · split at h
      · simp at h
      · split at h
        · simp only [Except.ok.injEq, Prod.mk.injEq] at h
          simp [← h.2]
        · simp only [Except.ok.injEq, Prod.mk.injEq] at h
          simp [← h.2]
    · simp only [Except.ok.injEq, Prod.mk.injEq] at h
      simp [← h.2]
  · simp only [Except.ok.injEq, Prod.mk.injEq] at h
    simp [← h.2]

/-- An escape takes at least one character after the backslash. -/
theorem readEscape_length {opening start s rest : List Char} {c : Char}
    (h : readEscape opening start s = .ok (c, rest)) : rest.length < s.length := by
  unfold readEscape at h
  split at h
  · simp at h
  · split at h
    · split at h
      · split at h
        · simp at h
        · have := readUnit_length h
          simp only [List.length_cons] at *
          omega
      · simp at h
    · split at h
      · simp at h
      · simp only [Except.ok.injEq, Prod.mk.injEq] at h
        simp [← h.2]

/-- The characters of a string up to its closing quote, and the text after it. `opening` is the text
from the opening quote on; `rawControls` admits control characters that are not escaped, but the
null character is never admitted. -/
def readString (rawControls : Bool) (opening : List Char) (s : List Char) :
    Except ReadError (List Char × List Char) :=
  match s with
  | [] => .error ⟨.unterminatedString, opening⟩
  | c :: r =>
    if c = '"' then .ok ([], r)
    else if c = '\\' then
      match _h : readEscape opening (c :: r) r with
      | .error e => .error e
      | .ok (d, rest) => prependChar d (readString rawControls opening rest)
    else if c.toNat = 0 ∨ (c.toNat < 32 ∧ rawControls = false) then
      .error ⟨.controlCharacter, c :: r⟩
    else prependChar c (readString rawControls opening r)
termination_by s.length
decreasing_by
  · have := readEscape_length ‹_›
    simp only [List.length_cons]
    omega
  · simp

/-! ## Numbers -/

/-- A decimal digit of ASCII. -/
def isDigit (c : Char) : Bool := '0' ≤ c && c ≤ '9'

/-- The number written by decimal digits. -/
def digitsValue (ds : List Char) : Nat := ds.foldl (fun n d => n * 10 + (d.toNat - 48)) 0

/-- The exponent part of a number, if the text starts with a whole one: its value and the rest. -/
def readExponent : List Char → Option (Int × List Char)
  | e :: r =>
    if e = 'e' ∨ e = 'E' then
      let (negative, r) : Bool × List Char := match r with
        | '-' :: r => (true, r)
        | '+' :: r => (false, r)
        | r => (false, r)
      let ds := r.takeWhile isDigit
      if ds.isEmpty then none
      else
        let n : Int := digitsValue ds
        some (if negative then -n else n, r.dropWhile isDigit)
    else none
  | [] => none

/-- The greatest magnitude that a word of 64 bits holds: all bits count unless there is a sign. -/
def greatestInWord (negative : Bool) : Nat :=
  if negative then 9223372036854775808 else 18446744073709551615

/-- The integer that digits write, unless they are more than are read. One that a word holds may have
any number of them. -/
def integerValue (most : Option Nat) (negative : Bool) (digits : List Char) : Except ReadFault Json :=
  let n := digitsValue digits
  if most.any (· < digits.length) ∧ greatestInWord negative < n then
    .error (.tooManyDigits digits.length)
  else .ok (.int (if negative then -(n : Int) else (n : Int)))

/-- The value of a number from its parts. A fraction or an exponent makes it a floating-point
one. -/
def numberValue (most : Option Nat) (negative : Bool) (whole : List Char)
    (fraction : Option (List Char)) (exponent : Option Int) : Except ReadFault Json :=
  match fraction, exponent with
  | none, none => integerValue most negative whole
  | _, _ =>
    let f := fraction.getD []
    .ok (.float
      (Binary64.ofDecimal negative (digitsValue (whole ++ f)) (exponent.getD 0 - f.length)))

/-- A number at the start of a text: its value, if it can be formed, and the text after it. -/
abbrev NumberRead := Option (Except ReadFault Json × List Char)

/-- A minus sign and the text after it. -/
def readMinus : List Char → Bool × List Char
  | '-' :: r => (true, r)
  | r => (false, r)

/-- The longest number of the strict form at the start of a text. -/
def readNumber (most : Option Nat) (s : List Char) : NumberRead :=
  let (negative, s) := readMinus s
  let digits := s.takeWhile isDigit
  if digits.isEmpty then none
  else
    let whole := if digits.head? = some '0' then ['0'] else digits
    let s := s.drop whole.length
    let (fraction, s) : Option (List Char) × List Char := match s with
      | '.' :: r => if (r.takeWhile isDigit).isEmpty then (none, s)
        else (some (r.takeWhile isDigit), r.dropWhile isDigit)
      | _ => (none, s)
    match readExponent s with
    | some (e, s) => some (numberValue most negative whole fraction (some e), s)
    | none => some (numberValue most negative whole fraction none, s)

/-- Whether a text goes on in a way that a lone minus sign cannot: with a point, an exponent or the
start of a word. -/
def goesOn : List Char → Bool
  | c :: _ => c == '.' || c == 'e' || c == 'E' || c == 'I'
  | [] => false

/-- A point and the digits after it, if there are any. -/
def readLooseFraction : List Char → Option (List Char) × List Char
  | '.' :: r => (some (r.takeWhile isDigit), r.dropWhile isDigit)
  | s => (none, s)

/-- The longest number of the loose form: leading zeros are allowed, and so is a point without
digits after it or, in a number with a minus sign, without digits before it. A lone minus sign is
zero. -/
def readLooseNumber (most : Option Nat) (s : List Char) : NumberRead :=
  let (negative, s) := readMinus s
  let whole := s.takeWhile isDigit
  let (fraction, s) := readLooseFraction (s.dropWhile isDigit)
  if whole.isEmpty && !negative then none
  else if whole.isEmpty && (fraction.getD []).isEmpty then
    if fraction.isSome || goesOn s then none else some (.ok (.int 0), s)
  else
    match readExponent s with
    | some (e, s) => some (numberValue most negative whole fraction (some e), s)
    | none => some (numberValue most negative whole fraction none, s)

/-! ## Values -/

/-- What a dialect of JSON allows. -/
structure Dialect where
  number : List Char → NumberRead
  /-- Control characters may stand unescaped in strings. -/
  rawControls : Bool
  /-- How many arrays and objects may be open at once, if that is limited. -/
  maxDepth : Option Nat

namespace Dialect

/-- The strict dialect, but for NaN and the infinities. Digits and depth are limited by who reads. -/
def strict (mostDigits maxDepth : Option Nat) : Dialect := ⟨readNumber mostDigits, false, maxDepth⟩

/-- The dialect of configuration. -/
def config : Dialect := strict (some maxIntegerDigits) (some 985)

/-- The dialect of messages: loose numbers, control characters in strings. Digits and depth are limited
by who reads. -/
def wire (mostDigits maxDepth : Option Nat) : Dialect := ⟨readLooseNumber mostDigits, true, maxDepth⟩

end Dialect

/-- The words of JSON and their values. -/
def jsonWords : List (List Char × Json) :=
  [("null".toList, .null), ("true".toList, .bool true), ("false".toList, .bool false),
   ("NaN".toList, .float Binary64.nan), ("Infinity".toList, .float (Binary64.infinity false)),
   ("-Infinity".toList, .float (Binary64.infinity true))]

/-- The word at the start of a text and the text after it. -/
def readWord (s : List Char) : Option (Json × List Char) :=
  jsonWords.findSome? fun (w, v) => if w.isPrefixOf s then some (v, s.drop w.length) else none

mutual

/-- The value at the start of a text and the text after it. The numbers are how many arrays and
objects may still be opened, if that is limited, and fuel. -/
def readValue (d : Dialect) : Option Nat → Nat → List Char → Except ReadError (Json × List Char)
  | _, 0, s => .error ⟨.expectingValue, s⟩
  | depth, fuel + 1, s =>
    match s with
    | '"' :: r => do
      let (cs, rest) ← readString d.rawControls s r
      .ok (.str (String.ofList cs), rest)
    | '[' :: r =>
      if depth = some 0 then .error ⟨.tooDeep, s⟩
      else match skipBlanks r with
        | ']' :: rest => .ok (.arr [], rest)
        | r => do
          let (xs, rest) ← readItems d (depth.map (· - 1)) fuel r
          .ok (.arr xs, rest)
    | '{' :: r =>
      if depth = some 0 then .error ⟨.tooDeep, s⟩
      else match skipBlanks r with
        | '}' :: rest => .ok (.obj [], rest)
        | r => do
          let (ms, rest) ← readMembers d (depth.map (· - 1)) fuel r
          .ok (.obj (Named.ofPairs ms), rest)
    | _ =>
      match readWord s with
      | some r => .ok r
      | none =>
        match d.number s with
        | some (.ok v, rest) => .ok (v, rest)
        | some (.error fault, _) => .error ⟨fault, s⟩
        | none => .error ⟨.expectingValue, s⟩

/-- The items of an array from one item on, through the closing bracket. -/
def readItems (d : Dialect) : Option Nat → Nat → List Char → Except ReadError (List Json × List Char)
  | _, 0, s => .error ⟨.expectingValue, s⟩
  | depth, fuel + 1, s => do
    let (x, s) ← readValue d depth fuel s
    match skipBlanks s with
    | ']' :: rest => .ok ([x], rest)
    | ',' :: rest => do
      let (xs, rest) ← readItems d depth fuel (skipBlanks rest)
      .ok (x :: xs, rest)
    | s => .error ⟨.expectingComma, s⟩

/-- The members of an object from one name on, through the closing brace. -/
def readMembers (d : Dialect) : Option Nat → Nat → List Char →
    Except ReadError (List (String × Json) × List Char)
  | _, 0, s => .error ⟨.expectingName, s⟩
  | depth, fuel + 1, s => do
    match s with
    | '"' :: r =>
      let (name, s) ← readString d.rawControls s r
      match skipBlanks s with
      | ':' :: s =>
        let (x, s) ← readValue d depth fuel (skipBlanks s)
        match skipBlanks s with
        | '}' :: rest => .ok ([(String.ofList name, x)], rest)
        | ',' :: rest => do
          let (ms, rest) ← readMembers d depth fuel (skipBlanks rest)
          .ok ((String.ofList name, x) :: ms, rest)
        | s => .error ⟨.expectingComma, s⟩
      | s => .error ⟨.expectingColon, s⟩
    | s => .error ⟨.expectingName, s⟩

end

/-- Reads a whole text: one value between blanks. -/
def Json.readAll (d : Dialect) (s : List Char) : Except ReadError Json := do
  let (v, rest) ← readValue d d.maxDepth (s.length + 1) (skipBlanks s)
  match skipBlanks rest with
  | [] => .ok v
  | rest => .error ⟨.extraData, rest⟩

/-- Reads a configuration text, which may not start with a byte-order mark. -/
def Json.readConfig (s : List Char) (d : Dialect := .config) : Except ReadError Json :=
  if s.head? = some (Char.ofNat 0xfeff) then .error ⟨.byteOrderMark, s⟩
  else Json.readAll d s

/-- Reads the body of a message. -/
def Json.readWire (mostDigits maxDepth : Option Nat) (s : List Char) : Option Json :=
  (Json.readAll (.wire mostDigits maxDepth) s).toOption

end EditorServices
