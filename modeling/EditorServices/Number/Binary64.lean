/-!
# `Number.Binary64` — binary floating-point numbers by their bit patterns

A number is kept as its 64-bit pattern, so that two of them can be compared in the logic, and every
operation is exact integer arithmetic followed by one rounding to nearest, ties to even.

## Contents
- **Patterns.** The three fields, the special values and `magnitude?`, which reads a finite pattern
  as `m · 2 ^ e`.
- **Rounding.** `ofRatio` rounds a quotient of two naturals; `ofDecimal` reads a decimal.
- **Whole numbers.** `toInt?` and `truncate?`.
- **Arithmetic.** `add`, `sub` and `mulNat`, each through one exact result.
- **Opposite numbers.** The fields of `negate`, and that a number and itself are no way apart.
-/

namespace EditorServices

/-- A binary floating-point number of 64 bits, named by its bit pattern. -/
structure Binary64 where
  bits : UInt64
deriving DecidableEq, Inhabited, Hashable

namespace Binary64

/-! ## Patterns -/

/-- The sign bit. -/
def isNegative (x : Binary64) : Bool := x.bits.toNat / Nat.pow 2 63 == 1

/-- The biased exponent, eleven bits. -/
def exponentField (x : Binary64) : Nat := x.bits.toNat / Nat.pow 2 52 % Nat.pow 2 11

/-- The trailing fraction, fifty-two bits. -/
def fractionField (x : Binary64) : Nat := x.bits.toNat % Nat.pow 2 52

/-- The pattern with a given sign, biased exponent and fraction. -/
def ofFields (negative : Bool) (exponent fraction : Nat) : Binary64 :=
  ⟨UInt64.ofNat ((if negative then Nat.pow 2 63 else 0) + exponent * Nat.pow 2 52 + fraction)⟩

def zero (negative : Bool) : Binary64 := ofFields negative 0 0

def infinity (negative : Bool) : Binary64 := ofFields negative 2047 0

/-- The quiet NaN with an empty payload. -/
def nan : Binary64 := ofFields false 2047 (Nat.pow 2 51)

def isNaN (x : Binary64) : Bool := x.exponentField == 2047 && x.fractionField != 0

def isInfinite (x : Binary64) : Bool := x.exponentField == 2047 && x.fractionField == 0

def isFinite (x : Binary64) : Bool := x.exponentField != 2047

/-- Both zeros count as zero. -/
def isZero (x : Binary64) : Bool := x.exponentField == 0 && x.fractionField == 0

/-- A finite pattern has the magnitude `m · 2 ^ e` for the returned `(m, e)`. -/
def magnitude? (x : Binary64) : Option (Nat × Int) :=
  if x.exponentField = 2047 then none
  else if x.exponentField = 0 then some (x.fractionField, -1074)
  else some (Nat.pow 2 52 + x.fractionField, (x.exponentField : Int) - 1075)

/-! ## Rounding -/

/-- The quotient rounded to the nearest integer, a tie to the even neighbour. -/
def divRoundEven (num den : Nat) : Nat :=
  let q := num / den
  let r := num % den
  if 2 * r < den then q
  else if den < 2 * r then q + 1
  else q + q % 2

/-- The integer part of the binary logarithm of a positive quotient. -/
def ratioLog2 (num den : Nat) : Int :=
  let guess : Int := (num.log2 : Int) - (den.log2 : Int)
  let fits : Bool :=
    if 0 ≤ guess then den * Nat.pow 2 guess.toNat ≤ num else den ≤ num * Nat.pow 2 (-guess).toNat
  if fits then guess else guess - 1

/-- The number nearest to `num / den`, a tie to the even significand. -/
def ofRatio (negative : Bool) (num den : Nat) : Binary64 :=
  if num = 0 then zero negative
  else
    let top := ratioLog2 num den
    if 1024 ≤ top then infinity negative
    else
      let unit : Int := max (top - 52) (-1074)
      let m :=
        if 0 ≤ unit then divRoundEven num (den * Nat.pow 2 unit.toNat)
        else divRoundEven (num * Nat.pow 2 (-unit).toNat) den
      -- A significand that carries to `2 ^ 53` moves into the exponent by the same sum.
      let field := if m < Nat.pow 2 52 then 0 else (unit + 1075).toNat
      let fraction := if m < Nat.pow 2 52 then m else m - Nat.pow 2 52
      if Nat.pow 2 53 ≤ m then
        if field = 2046 then infinity negative else ofFields negative (field + 1) 0
      else ofFields negative field fraction

/-- The number nearest to `digits · 10 ^ exponent`. A magnitude far outside the format's range is
settled without forming the power: `30102 / 100000` and `30103 / 100000` enclose the decimal
logarithm of two. -/
def ofDecimal (negative : Bool) (digits : Nat) (exponent : Int) : Binary64 :=
  if digits = 0 then zero negative
  else
    let least : Int := (digits.log2 : Int) * 30102 / 100000
    let most : Int := (digits.log2 + 1 : Nat) * 30103 / 100000 + 1
    if 400 < least + exponent then infinity negative
    else if most + exponent < -400 then zero negative
    else if 0 ≤ exponent then ofRatio negative (digits * Nat.pow 10 exponent.toNat) 1
    else ofRatio negative digits (Nat.pow 10 (-exponent).toNat)

/-- The number nearest to an integer. -/
def ofInt (n : Int) : Binary64 := ofRatio (n < 0) n.natAbs 1

/-! ## Whole numbers -/

/-- A magnitude with the sign of a number. -/
def signed (x : Binary64) (n : Nat) : Int := if x.isNegative then -(n : Int) else (n : Int)

/-- The value cut toward zero; none for an infinity or a NaN. -/
def truncate? (x : Binary64) : Option Int :=
  x.magnitude?.map fun (m, e) =>
    x.signed (if 0 ≤ e then m * Nat.pow 2 e.toNat else m / Nat.pow 2 (-e).toNat)

/-- The value as an integer, if it is one. -/
def toInt? (x : Binary64) : Option Int :=
  match x.magnitude? with
  | none => none
  | some (m, e) =>
    if 0 ≤ e then some (x.signed (m * Nat.pow 2 e.toNat))
    else if m % Nat.pow 2 (-e).toNat = 0 then some (x.signed (m / Nat.pow 2 (-e).toNat))
    else none

/-! ## Arithmetic -/

/-- The exact value of a finite number over the denominator `2 ^ 1074`. -/
def scaled? (x : Binary64) : Option Int :=
  x.magnitude?.map fun (m, e) =>
    let n : Nat := m * Nat.pow 2 (e + 1074).toNat
    if x.isNegative then -(n : Int) else (n : Int)

/-- The number with the other sign. -/
def negate (x : Binary64) : Binary64 :=
  ofFields (!x.isNegative) x.exponentField x.fractionField

/-- The sum, rounded once. -/
def add (x y : Binary64) : Binary64 :=
  match x.scaled?, y.scaled? with
  | some a, some b =>
    if a + b = 0 then zero (x.isNegative && y.isNegative)
    else ofRatio (a + b < 0) (a + b).natAbs (Nat.pow 2 1074)
  | _, _ =>
    if x.isNaN || y.isNaN then nan
    else if !x.isInfinite then y
    else if y.isInfinite && x.isNegative != y.isNegative then nan
    else x

/-- The difference, rounded once. -/
def sub (x y : Binary64) : Binary64 := add x y.negate

/-- A number times a natural one, rounded once. -/
def mulNat (x : Binary64) (k : Nat) : Binary64 :=
  match x.scaled? with
  | some a => ofRatio x.isNegative (a.natAbs * k) (Nat.pow 2 1074)
  | none => if k = 0 then nan else x

/-- The numeric order of two finite numbers. -/
def ltFinite (x y : Binary64) : Bool :=
  match x.scaled?, y.scaled? with
  | some a, some b => a < b
  | _, _ => false

/-! ## Opposite numbers -/

section

variable {x : Binary64}

theorem toNat_ofFields (negative : Bool) {exponent fraction : Nat} (he : exponent < Nat.pow 2 11)
    (hf : fraction < Nat.pow 2 52) : (ofFields negative exponent fraction).bits.toNat =
      (if negative then Nat.pow 2 63 else 0) + exponent * Nat.pow 2 52 + fraction := by
  replace he : exponent < 2 ^ 11 := he
  replace hf : fraction < 2 ^ 52 := hf
  apply UInt64.toNat_ofNat_of_lt'
  show (if negative then 2 ^ 63 else 0) + exponent * 2 ^ 52 + fraction < 2 ^ 64
  split <;> omega

theorem exponentField_lt (x : Binary64) : x.exponentField < Nat.pow 2 11 := Nat.mod_lt _ (by decide)

theorem fractionField_lt (x : Binary64) : x.fractionField < Nat.pow 2 52 := Nat.mod_lt _ (by decide)

theorem toNat_negate (x : Binary64) : x.negate.bits.toNat =
    (if x.isNegative then 0 else Nat.pow 2 63) + x.exponentField * Nat.pow 2 52 + x.fractionField := by
  unfold negate
  rw [toNat_ofFields _ x.exponentField_lt x.fractionField_lt]
  cases x.isNegative <;> rfl

/-- Only the sign is another one. -/
theorem exponentField_negate (x : Binary64) : x.negate.exponentField = x.exponentField := by
  have he : x.exponentField < 2 ^ 11 := x.exponentField_lt
  have hf : x.fractionField < 2 ^ 52 := x.fractionField_lt
  show x.negate.bits.toNat / Nat.pow 2 52 % Nat.pow 2 11 = _
  rw [toNat_negate]
  show ((if x.isNegative then 0 else 2 ^ 63) + x.exponentField * 2 ^ 52 + x.fractionField) / 2 ^ 52 % 2 ^ 11 =
    x.exponentField
  split <;> omega

theorem fractionField_negate (x : Binary64) : x.negate.fractionField = x.fractionField := by
  have hf : x.fractionField < 2 ^ 52 := x.fractionField_lt
  show x.negate.bits.toNat % Nat.pow 2 52 = _
  rw [toNat_negate]
  show ((if x.isNegative then 0 else 2 ^ 63) + x.exponentField * 2 ^ 52 + x.fractionField) % 2 ^ 52 = _
  split <;> omega

theorem isNegative_negate (x : Binary64) : x.negate.isNegative = !x.isNegative := by
  have he : x.exponentField < 2 ^ 11 := x.exponentField_lt
  have hf : x.fractionField < 2 ^ 52 := x.fractionField_lt
  show (x.negate.bits.toNat / Nat.pow 2 63 == 1) = _
  rw [toNat_negate]
  show (((if x.isNegative then 0 else 2 ^ 63) + x.exponentField * 2 ^ 52 + x.fractionField) / 2 ^ 63 == 1) = _
  cases x.isNegative <;> simp <;> omega

theorem scaled?_negate {n : Int} (h : x.scaled? = some n) : x.negate.scaled? = some (-n) := by
  unfold scaled? magnitude? at h ⊢
  rw [exponentField_negate, fractionField_negate, isNegative_negate]
  obtain ⟨⟨m, e⟩, hmagnitude, rfl⟩ := Option.map_eq_some_iff.mp h
  rw [hmagnitude]
  cases x.isNegative <;> simp

/-- A number that is finite and itself are no way apart. -/
theorem sub_self {n : Int} (h : x.scaled? = some n) : x.sub x = zero false := by
  unfold sub add
  rw [h, scaled?_negate h, isNegative_negate, Bool.and_not_self]
  exact if_pos (Int.add_right_neg n)

end

end Binary64

end EditorServices
