import EditorServices.Path
import EditorServices.Text.Utf8

/-!
# `Uri` — file locations as URIs

The path is written as the percent-encoded form of its bytes, in which letters, digits and a few
marks stand for themselves.

## Contents
- **Percent-encoding.** `encodeByte`, `encode`, and the reader `decode?`.
- **File URIs.** `ofPath` for the two naming schemes of hosts.
-/

namespace EditorServices.Uri

/-! ## Percent-encoding -/

/-- A hexadecimal digit in upper case. -/
def upperHexDigit (n : Nat) : Char :=
  if n < 10 then Char.ofNat (48 + n) else Char.ofNat (55 + n)

/-- Whether a byte stands for itself: a letter, a digit or one of `_ . - ~ / :`. -/
def isPlainByte (b : UInt8) : Bool :=
  let n := b.toNat
  (65 ≤ n && n ≤ 90) || (97 ≤ n && n ≤ 122) || (48 ≤ n && n ≤ 57) ||
    n == 95 || n == 46 || n == 45 || n == 126 || n == 47 || n == 58

/-- The text of one byte. -/
def encodeByte (b : UInt8) : List Char :=
  if isPlainByte b then [Char.ofNat b.toNat]
  else ['%', upperHexDigit (b.toNat / 16), upperHexDigit (b.toNat % 16)]

/-- The text of bytes. -/
def encode (bytes : Bytes) : List Char := bytes.flatMap encodeByte

/-- The value of an upper-case hexadecimal digit. -/
def hexDigitValue? (c : Char) : Option Nat :=
  if '0' ≤ c ∧ c ≤ '9' then some (c.toNat - 48)
  else if 'A' ≤ c ∧ c ≤ 'F' then some (c.toNat - 55)
  else none

/-- The bytes of a percent-encoded text. -/
def decode? : List Char → Option Bytes
  | [] => some []
  | c :: r =>
    if c = '%' then
      match r with
      | h :: l :: r => do
        let h ← hexDigitValue? h
        let l ← hexDigitValue? l
        (decode? r).map (UInt8.ofNat (h * 16 + l) :: ·)
      | _ => none
    else if c.toNat < 128 then (decode? r).map (UInt8.ofNat c.toNat :: ·)
    else none

/-! ## File URIs -/

/-- How a host writes its paths. -/
inductive PathScheme where
  | slash
  /-- Paths start with a drive, and a backslash also divides components. -/
  | drive
deriving DecidableEq, Repr

/-- The scheme and authority of a file URI. -/
def fileScheme : List Char := "file://".toList

/-- The URI of a path seen from a working directory. -/
def ofPath (scheme : PathScheme) (cwd path : String) : String :=
  let whole := (Path.absolute cwd path).toList
  let written := match scheme with
    | .slash => whole
    | .drive => '/' :: whole.map fun c => if c = '\\' then '/' else c
  String.ofList (fileScheme ++ encode (utf8Encode written))

end EditorServices.Uri
