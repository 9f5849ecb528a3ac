import EditorServices.Json.Printer
import EditorServices.Json.Reader

/-!
# `Proofs.Json.Integers` — integers of messages are read as they were written

## Contents
- **Digits.** The decimal digits of a number are digits, and have its value.
- **Integers.** `readLooseNumber_intDigits`, if what follows cannot be part of a number.
- **Breaking off.** `readLooseNumber_cut`: nothing is left of a number that breaks off.
-/

namespace EditorServices

/-! ## Digits -/

theorem isDigit_iff {c : Char} : isDigit c = true ↔ 48 ≤ c.toNat ∧ c.toNat ≤ 57 := by
  unfold isDigit
  simp only [Bool.and_eq_true, decide_eq_true_eq, Char.le_def, UInt32.le_iff_toNat_le]
  exact Iff.rfl

theorem isDigit_of_mem {n : Nat} {c : Char} (h : c ∈ decimalDigits n) : isDigit c = true := by
  have hdigit : c.isDigit = true := Nat.isDigit_of_mem_toDigits (by decide) (by decide) h
  rw [Char.isDigit, Bool.and_eq_true, decide_eq_true_eq, decide_eq_true_eq, ge_iff_le,
    UInt32.le_iff_toNat_le, UInt32.le_iff_toNat_le] at hdigit
  exact isDigit_iff.mpr hdigit

theorem decimalDigits_ne_nil (n : Nat) : decimalDigits n ≠ [] := Nat.toDigits_ne_nil

/-- The digits of a number have its value. -/
theorem digitsValue_decimalDigits (n : Nat) : digitsValue (decimalDigits n) = n := by
  have hvalue : Nat.ofDigitChars 10 (decimalDigits n) 0 = n :=
    Nat.ofDigitChars_toDigits (by decide) (by decide)
  have hsame : ∀ (ds : List Char) (k : Nat),
      ds.foldl (fun n d => n * 10 + (d.toNat - 48)) k = Nat.ofDigitChars 10 ds k := by
    intro ds
    induction ds with
    | nil => exact fun k => rfl
    | cons d ds ih =>
      intro k
      rw [List.foldl_cons, ih, Nat.mul_comm k 10]
      rfl
  exact (hsame _ 0).trans hvalue

/-! ## Integers -/

/-- A text cannot go on a number: it does not start with a digit, a point, an exponent or the word for
infinity. -/
def EndsNumber (rest : List Char) : Prop :=
  ∀ c ∈ rest.head?, isDigit c = false ∧ c ≠ '.' ∧ c ≠ 'e' ∧ c ≠ 'E' ∧ c ≠ 'I'

theorem endsNumber_nil : EndsNumber [] := by
  intro c hc
  cases hc

variable {ds rest : List Char}

/-- Digits are taken up to what is no digit. -/
theorem takeWhile_digits (hds : ∀ d ∈ ds, isDigit d = true) (hrest : EndsNumber rest) :
    (ds ++ rest).takeWhile isDigit = ds ∧ (ds ++ rest).dropWhile isDigit = rest := by
  have hstop : rest.takeWhile isDigit = [] ∧ rest.dropWhile isDigit = rest := by
    cases rest with
    | nil => exact ⟨rfl, rfl⟩
    | cons c rest =>
      have hc : isDigit c = false := (hrest c rfl).1
      rw [List.takeWhile_cons, List.dropWhile_cons, hc]
      exact ⟨rfl, rfl⟩
  rw [List.takeWhile_append_of_pos hds, List.dropWhile_append_of_pos hds, hstop.1, hstop.2, List.append_nil]
  exact ⟨rfl, rfl⟩

theorem readExponent_of_ends (hrest : EndsNumber rest) : readExponent rest = none := by
  cases rest with
  | nil => rfl
  | cons c rest =>
    obtain ⟨-, -, he, hE, -⟩ := hrest c rfl
    unfold readExponent
    simp only [he, hE, or_self, if_false]

theorem readLooseFraction_of_ends (hrest : EndsNumber rest) : readLooseFraction rest = (none, rest) := by
  unfold readLooseFraction
  split
  · next r => exact absurd rfl (hrest '.' rfl).2.1
  · rfl

/-- Digits that a fraction and an exponent do not follow are an integer. -/
theorem readLooseNumber_digits (most : Option Nat) (negative : Bool) (hne : ds ≠ [])
    (hds : ∀ d ∈ ds, isDigit d = true) (hrest : EndsNumber rest) :
    readLooseNumber most ((if negative then ['-'] else []) ++ (ds ++ rest)) =
      some (integerValue most negative ds, rest) := by
  obtain ⟨d, ds', rfl⟩ := List.exists_cons_of_ne_nil hne
  have hminus : readMinus ((if negative then ['-'] else []) ++ (d :: ds' ++ rest)) =
      (negative, d :: ds' ++ rest) := by
    cases negative with
    | true => rfl
    | false =>
      show readMinus (d :: (ds' ++ rest)) = _
      unfold readMinus
      split
      · next hcons =>
        obtain ⟨rfl, -⟩ := List.cons.inj hcons
        exact absurd (hds '-' List.mem_cons_self) (by decide)
      · rfl
  obtain ⟨htake, hdrop⟩ := takeWhile_digits hds hrest
  unfold readLooseNumber
  rw [hminus]
  dsimp only
  rw [htake, hdrop, readLooseFraction_of_ends hrest]
  dsimp only
  rw [readExponent_of_ends hrest]
  rfl

/-- How many digits an integer has. -/
def digitsOf (n : Int) : Nat := (decimalDigits n.natAbs).length

/-- **Who reads digits with a sign reads integers**, if they have no more digits than are read. -/
theorem read_intDigits {read : List Char → NumberRead} {most : Option Nat} {n : Int}
    (hmost : ∀ k ∈ most, digitsOf n ≤ k)
    (hread : ∀ negative, read ((if negative then ['-'] else []) ++ (decimalDigits n.natAbs ++ rest)) =
      some (integerValue most negative (decimalDigits n.natAbs), rest)) :
    read (intDigits n ++ rest) = some (.ok (.int n), rest) := by
  have hfew : most.any (· < (decimalDigits n.natAbs).length) = false := by
    cases most with
    | none => rfl
    | some k =>
      have hle : (decimalDigits n.natAbs).length ≤ k := hmost k rfl
      simp only [Option.any_some, decide_eq_false_iff_not, Nat.not_lt]
      exact hle
  have hvalue : ∀ negative, integerValue most negative (decimalDigits n.natAbs) =
      .ok (.int (if negative then -(n.natAbs : Int) else (n.natAbs : Int))) := by
    intro negative
    unfold integerValue
    rw [hfew, digitsValue_decimalDigits]
    simp
  unfold intDigits
  by_cases hn : n < 0
  · rw [if_pos hn]
    have htrue := hread true
    rw [hvalue true] at htrue
    have habs : -(n.natAbs : Int) = n := by omega
    simp only [if_true, habs] at htrue
    exact htrue
  · rw [if_neg hn]
    have hfalse := hread false
    rw [hvalue false] at hfalse
    have habs : (n.natAbs : Int) = n := by omega
    simp only [habs, Bool.false_eq_true, if_false] at hfalse
    exact hfalse

/-- **An integer is read as it was written**, if it has no more digits than are read. -/
theorem readLooseNumber_intDigits {most : Option Nat} {n : Int} (hmost : ∀ k ∈ most, digitsOf n ≤ k)
    (hrest : EndsNumber rest) :
    readLooseNumber most (intDigits n ++ rest) = some (.ok (.int n), rest) :=
  read_intDigits hmost fun negative => readLooseNumber_digits most negative (decimalDigits_ne_nil n.natAbs)
    (fun _ hd => isDigit_of_mem hd) hrest

/-! ## Breaking off -/

/-- **Of an integer that breaks off nothing is left to read**, whatever it is read as. -/
theorem readLooseNumber_cut (most : Option Nat) {n : Int} {q : List Char} (hq : q <+: intDigits n)
    {value : Except ReadFault Json} (hread : readLooseNumber most q = some (value, rest)) : rest = [] := by
  have hdigits : ∀ (negative : Bool) ds, (∀ d ∈ ds, isDigit d = true) →
      readLooseNumber most ((if negative then ['-'] else []) ++ ds) = some (value, rest) → rest = [] := by
    intro negative ds hds hread
    by_cases hne : ds = []
    · subst hne
      cases negative with
      | true =>
        cases hread
        rfl
      | false => cases hread
    · have hall := readLooseNumber_digits most negative hne hds endsNumber_nil
      rw [List.append_nil, hread] at hall
      cases hall
      rfl
  unfold intDigits at hq
  by_cases hn : n < 0
  · rw [if_pos hn] at hq
    rcases List.prefix_cons_iff.mp hq with rfl | ⟨ds, rfl, hds⟩
    · cases hread
    · exact hdigits true ds (fun d hd => isDigit_of_mem (hds.subset hd)) hread
  · rw [if_neg hn] at hq
    exact hdigits false q (fun d hd => isDigit_of_mem (hq.subset hd)) hread

end EditorServices
