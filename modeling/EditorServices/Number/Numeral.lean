import EditorServices.Number.Binary64

/-!
# `Number.Numeral` — whole and binary numbers side by side

A number that is written without point and exponent is whole and has any size; every other one is a
binary floating-point number. Whole numbers are reckoned with exactly. Where one of two numbers is
binary, the other is rounded to a binary one first, which may be beyond the range of these.

## Contents
- **Numerals.** The two kinds, the binary number nearest to a numeral, one form for equal numbers.
- **Order.** The exact order of numerals, and of a numeral and a whole number.
- **Arithmetic.** Sum and difference.
-/

namespace EditorServices

/-! ## Numerals -/

/-- A whole number of any size or a binary floating-point number. -/
inductive Numeral where
  | whole (n : Int)
  | binary (x : Binary64)
deriving DecidableEq, Inhabited

namespace Numeral

/-- The nearest binary number; none for a whole number beyond the range of these. -/
def toBinary? : Numeral → Option Binary64
  | .whole n =>
    let x := Binary64.ofInt n
    if x.isFinite then some x else none
  | .binary x => some x

/-- The form that numerals of one value share: a binary number without a fraction becomes whole. -/
def plain : Numeral → Numeral
  | .whole n => .whole n
  | .binary x => match x.toInt? with
    | some n => .whole n
    | none => .binary x

/-- Whether two numerals have one value. -/
def same (a b : Numeral) : Bool := a.plain = b.plain

/-! ## Order -/

/-- The greatest whole number that is not above a finite numeral. -/
def floor? : Numeral → Option Int
  | .whole n => some n
  | .binary x => x.scaled?.map fun a => Int.fdiv a (Nat.pow 2 1074 : Nat)

/-- Whether a numeral is below a whole number: a finite one if its floor is, and the negative
infinity always. -/
def isBelow (a : Numeral) (n : Int) : Bool :=
  match a.floor?, a with
  | some k, _ => k < n
  | none, .binary x => x.isInfinite && x.isNegative
  | none, .whole _ => false

/-- Whether a numeral is above a whole number: it is neither below it nor the number itself, and it
is a number at all. -/
def isAbove (a : Numeral) (n : Int) : Bool :=
  match a with
  | .whole m => n < m
  | .binary x => !(a.isBelow n || a.same (.whole n) || x.isNaN)

/-- The order of two finite numerals, the lesser one first. -/
def le (a b : Numeral) : Bool :=
  match a, b with
  | .whole m, .whole n => m ≤ n
  | .whole m, b => !b.isBelow m
  | .binary x, .whole n => (Numeral.binary x).isBelow n || (Numeral.binary x).same (.whole n)
  | .binary x, .binary y => !Binary64.ltFinite y x

/-! ## Arithmetic -/

/-- The sum; none if a number is beyond the range of binary ones. -/
def add? : Numeral → Numeral → Option Numeral
  | .whole a, .whole b => some (.whole (a + b))
  | a, b => do
    let x ← a.toBinary?
    let y ← b.toBinary?
    some (.binary (x.add y))

/-- The difference; none if a number is beyond the range of binary ones. -/
def sub? : Numeral → Numeral → Option Numeral
  | .whole a, .whole b => some (.whole (a - b))
  | a, b => do
    let x ← a.toBinary?
    let y ← b.toBinary?
    some (.binary (x.sub y))

end Numeral

end EditorServices
