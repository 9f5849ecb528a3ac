import EditorServices.Number.Binary64

/-!
# `Number.Shortest` — the shortest decimal that reads back

The text of a floating-point number is the decimal with the fewest digits that rounds to it; of
several such decimals it is the one nearest to the number.

## Contents
- **Digits.** `Binary64.shortest?` finds digits and decimal exponent by trying each digit count.
- **Layout.** `DecimalLayout` says where positional notation ends and how an exponent is written.
- **Texts.** `Binary64.text` and the layouts in use.
-/

namespace EditorServices

/-! ## Digits -/

/-- Decimal digits of a natural number, most significant first. -/
def decimalDigits (n : Nat) : List Char := Nat.toDigits 10 n

namespace Binary64

/-- The decimal `digits · 10 ^ exponent` nearest to a magnitude among its two neighbours on the grid
`10 ^ exponent` that read back as `x`; a tie goes to the even one. -/
def nearestOnGrid (x : Binary64) (m : Nat) (e : Int) (exponent : Int) : Option Nat :=
  let scale (k : Int) (a b : Nat) : Nat × Nat :=
    if 0 ≤ k then (a, b) else (b, a)
  let (n2, d2) := scale e (Nat.pow 2 e.natAbs) 1
  let (d10, n10) := scale exponent (Nat.pow 10 exponent.natAbs) 1
  let num := m * n2 * n10
  let den := d2 * d10
  let low := num / den
  let back (d : Nat) : Bool := ofDecimal x.isNegative d exponent == x
  let high := low + 1
  match back low, back high with
  | true, false => some low
  | false, true => some high
  | false, false => none
  | true, true =>
    let r := num % den
    if 2 * r < den then some low
    else if den < 2 * r then some high
    else if low % 2 = 0 then some low else some high

/-- Digit counts `k, k + 1, …` in turn, at most `fuel` of them. -/
def searchDigits (x : Binary64) (m : Nat) (e : Int) (top : Int) :
    Nat → Nat → Option (Nat × Int)
  | 0, _ => none
  | fuel + 1, k =>
    let exponent := top - (k : Int) + 1
    match nearestOnGrid x m e exponent with
    | some d => some (d, exponent)
    | none => searchDigits x m e top fuel (k + 1)

/-- Upper bound on the decimal exponent of the leading digit of `m · 2 ^ e`. -/
def leadingExponent (m : Nat) (e : Int) : Int :=
  ((m.log2 : Int) + e) * 30103 / 100000

/-- The shortest decimal `digits · 10 ^ exponent` of a finite, non-zero number, without trailing
zeros in its digits. -/
def shortest? (x : Binary64) : Option (Nat × Int) :=
  match x.magnitude? with
  | none => none
  | some (m, e) =>
    if m = 0 then none
    else
      let found := searchDigits x m e (leadingExponent m e + 1) 19 1
      found.map fun (d, k) =>
        let ds := decimalDigits d
        let zeros := (ds.reverse.takeWhile (· == '0')).length
        (d / Nat.pow 10 zeros, k + zeros)

end Binary64

/-! ## Layout -/

/-- How digits become text. -/
structure DecimalLayout where
  /-- Least decimal exponent of the leading digit that is still written positionally. -/
  positionalFrom : Int
  /-- Least decimal exponent of the leading digit that is no longer written positionally. -/
  positionalBelow : Int
  /-- Least number of digits of a written exponent. -/
  exponentDigits : Nat
  nanText : String
  infinityText : String

namespace DecimalLayout

/-- A number in exponent form: one digit, the other digits after a point, and the signed
exponent. -/
def scientific (layout : DecimalLayout) (ds : List Char) (top : Int) : List Char :=
  let body := match ds with
    | [] => ['0']
    | [d] => [d]
    | d :: rest => d :: '.' :: rest
  let sign := if top < 0 then '-' else '+'
  let digits := decimalDigits top.natAbs
  let padding := List.replicate (layout.exponentDigits - digits.length) '0'
  body ++ 'e' :: sign :: (padding ++ digits)

/-- A number in positional form, with at least one digit on both sides of the point. -/
def positional (ds : List Char) (top : Int) : List Char :=
  if top < 0 then '0' :: '.' :: (List.replicate (-top - 1).toNat '0' ++ ds)
  else
    let whole := top.toNat + 1
    let left := ds.take whole ++ List.replicate (whole - ds.length) '0'
    let right := ds.drop whole
    left ++ '.' :: (if right.isEmpty then ['0'] else right)

end DecimalLayout

namespace Binary64

/-- The text of a number under a layout. -/
def text (layout : DecimalLayout) (x : Binary64) : String :=
  if x.isNaN then layout.nanText
  else
    let sign := if x.isNegative then ['-'] else []
    if x.isInfinite then String.ofList (sign ++ layout.infinityText.toList)
    else match x.shortest? with
      | none => String.ofList (sign ++ ['0', '.', '0'])
      | some (d, k) =>
        let ds := decimalDigits d
        let top : Int := k + (ds.length : Int) - 1
        let body :=
          if layout.positionalFrom ≤ top ∧ top < layout.positionalBelow then
            DecimalLayout.positional ds top
          else DecimalLayout.scientific layout ds top
        String.ofList (sign ++ body)

end Binary64

/-! ## Layouts in use -/

/-- Numbers shown as values of their own: positional from `10 ^ -4` up to `10 ^ 16`. -/
def valueLayout : DecimalLayout := ⟨-4, 16, 2, "nan", "inf"⟩

/-- Numbers inside JSON text: the value layout with the names that JSON readers know. -/
def jsonLayout : DecimalLayout := ⟨-4, 16, 2, "NaN", "Infinity"⟩

end EditorServices
