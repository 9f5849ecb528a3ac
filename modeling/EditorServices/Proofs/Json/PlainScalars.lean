import EditorServices.Proofs.Json.CommentedTokens
import EditorServices.Proofs.Json.WireValues

/-!
# `Proofs.Json.PlainScalars` — words and numbers of plain JSON

A word or a number at the start of a text is read without what follows, if that cannot go on with it: the same
value is found, and the same text is left before it.

## Contents
- **Scalars.** `readScalar` and `scalarValue?`, and the parts of a number.
- **What follows.** `readScalar_append`.
- **What is left.** `suffix_of_readScalar`.
- **Integers.** `scalarValue?_intDigits`.
-/

namespace EditorServices

open Commented

variable {rest r s t : List Char} {most : Option Nat}

/-! ## Scalars -/

/-- The word or number at the start of a text. -/
def readScalar (most : Option Nat) (s : List Char) : NumberRead :=
  ((readWord s).map fun p => (.ok p.1, p.2)).or (readNumber most s)

/-- The value of a text that is a word or a number as a whole. -/
def scalarValue? (most : Option Nat) (s : List Char) : Option Json :=
  match readScalar most s with
  | some (.ok v, []) => some v
  | _ => none

/-- The fraction of a number: a point and at least one digit. -/
def readFraction (s : List Char) : Option (List Char) × List Char :=
  match s with
  | '.' :: r => if (r.takeWhile isDigit).isEmpty then (none, s)
    else (some (r.takeWhile isDigit), r.dropWhile isDigit)
  | _ => (none, s)

/-- The whole part of a number: all digits there are, but one only if it is a zero. -/
def wholeDigits (s : List Char) : List Char :=
  if (s.takeWhile isDigit).head? = some '0' then ['0'] else s.takeWhile isDigit

/-- A number in its parts. -/
theorem readNumber_eq (most : Option Nat) (s : List Char) : readNumber most s =
    let (negative, s) := readMinus s
    if (s.takeWhile isDigit).isEmpty then none
    else
      let (fraction, r) := readFraction (s.drop (wholeDigits s).length)
      match readExponent r with
      | some (e, r) => some (numberValue most negative (wholeDigits s) fraction (some e), r)
      | none => some (numberValue most negative (wholeDigits s) fraction none, r) := rfl

/-- The sign of an exponent and the text after it. -/
def readSign (s : List Char) : Bool × List Char :=
  match s with
  | '-' :: r => (true, r)
  | '+' :: r => (false, r)
  | r => (false, r)

/-- An exponent in its parts. -/
theorem readExponent_cons (c : Char) (r : List Char) : readExponent (c :: r) =
    if c = 'e' ∨ c = 'E' then
      let (negative, r) := readSign r
      if (r.takeWhile isDigit).isEmpty then none
      else
        let n : Int := digitsValue (r.takeWhile isDigit)
        some (if negative then -n else n, r.dropWhile isDigit)
    else none := rfl

theorem readMinus_cons (c : Char) (r : List Char) :
    readMinus (c :: r) = if c = '-' then (true, r) else (false, c :: r) := by
  unfold readMinus
  split
  · next heq =>
    cases heq
    rfl
  · next hminus => rw [if_neg fun heq : c = '-' => hminus r (by rw [heq])]

theorem readSign_cons (c : Char) (r : List Char) : readSign (c :: r) =
    if c = '-' then (true, r) else if c = '+' then (false, r) else (false, c :: r) := by
  unfold readSign
  split
  · next heq =>
    cases heq
    rfl
  · next heq =>
    cases heq
    rfl
  · next hminus hplus =>
    rw [if_neg fun heq : c = '-' => hminus r (by rw [heq]), if_neg fun heq : c = '+' => hplus r (by rw [heq])]

theorem readFraction_cons (c : Char) (r : List Char) : readFraction (c :: r) =
    if c = '.' ∧ (r.takeWhile isDigit).isEmpty = false then (some (r.takeWhile isDigit), r.dropWhile isDigit)
    else (none, c :: r) := by
  unfold readFraction
  split
  · next heq =>
    cases heq
    cases hdigits : (r.takeWhile isDigit).isEmpty <;> simp
  · next hpoint => rw [if_neg fun h : c = '.' ∧ _ => hpoint r (by rw [h.1])]

theorem wholeDigits_isPrefix (s : List Char) : wholeDigits s <+: s := by
  unfold wholeDigits
  split
  · next hzero =>
    obtain ⟨ds, hds⟩ := List.head?_eq_some_iff.mp hzero
    refine List.IsPrefix.trans ?_ (List.takeWhile_prefix isDigit)
    rw [hds]
    exact List.prefix_append ['0'] ds
  · exact List.takeWhile_prefix isDigit

theorem isScalarChar_of_mem_jsonWords : ∀ p ∈ jsonWords, ∀ c ∈ p.1, isScalarChar c = true := by
  have hall : jsonWords.all (·.1.all isScalarChar) = true := by
    rw [jsonWords_eq]
    decide
  simpa only [List.all_eq_true] using hall

/-! ## What follows -/

/-- A reading with more text after what is left. -/
def before {α : Type} (rest : List Char) (p : α × List Char) : α × List Char := (p.1, p.2 ++ rest)

section

variable (h : EndsScalar rest)
include h

theorem not_mem_head {c : Char} (hc : isScalarChar c = true) : c ∉ rest.head? := fun hmem =>
  Bool.false_ne_true ((h c hmem).symm.trans hc)

theorem dropWhile_append (s : List Char) :
    (s ++ rest).dropWhile isDigit = s.dropWhile isDigit ++ rest := by
  induction s with
  | nil =>
    cases rest with
    | nil => rfl
    | cons c r =>
      have hc : isDigit c = false := Bool.eq_false_iff.mpr fun hdigit =>
        not_mem_head h (isScalarChar_of_isDigit c hdigit) rfl
      rw [List.nil_append, List.dropWhile_cons, hc]
      rfl
  | cons c s ih =>
    rw [List.cons_append, List.dropWhile_cons, List.dropWhile_cons, ih]
    split <;> rfl

theorem readMinus_append (s : List Char) : readMinus (s ++ rest) = before rest (readMinus s) := by
  cases s with
  | nil =>
    cases rest with
    | nil => rfl
    | cons c r =>
      have hc : c ≠ '-' := by
        rintro rfl
        exact not_mem_head h rfl rfl
      rw [List.nil_append, readMinus_cons, if_neg hc]
      rfl
  | cons c s =>
    rw [List.cons_append, readMinus_cons, readMinus_cons]
    split <;> rfl

theorem readSign_append (s : List Char) : readSign (s ++ rest) = before rest (readSign s) := by
  cases s with
  | nil =>
    cases rest with
    | nil => rfl
    | cons c r =>
      have hminus : c ≠ '-' := by
        rintro rfl
        exact not_mem_head h rfl rfl
      have hplus : c ≠ '+' := by
        rintro rfl
        exact not_mem_head h rfl rfl
      rw [List.nil_append, readSign_cons, if_neg hminus, if_neg hplus]
      rfl
  | cons c s =>
    rw [List.cons_append, readSign_cons, readSign_cons]
    split
    · rfl
    · split <;> rfl

theorem readFraction_append (s : List Char) : readFraction (s ++ rest) = before rest (readFraction s) := by
  cases s with
  | nil =>
    cases rest with
    | nil => rfl
    | cons c r =>
      have hc : c ≠ '.' := by
        rintro rfl
        exact not_mem_head h rfl rfl
      rw [List.nil_append, readFraction_cons, if_neg fun h => hc h.1]
      rfl
  | cons c s =>
    rw [List.cons_append, readFraction_cons, readFraction_cons, h.takeWhile_append isScalarChar_of_isDigit,
      dropWhile_append h]
    split <;> rfl

theorem readExponent_append (s : List Char) :
    readExponent (s ++ rest) = (readExponent s).map (before rest) := by
  cases s with
  | nil =>
    cases rest with
    | nil => rfl
    | cons c r =>
      have hc : ¬ (c = 'e' ∨ c = 'E') := by
        rintro (rfl | rfl) <;> exact not_mem_head h rfl rfl
      rw [List.nil_append, readExponent_cons, if_neg hc]
      rfl
  | cons c s =>
    rw [List.cons_append, readExponent_cons, readExponent_cons, readSign_append h]
    dsimp only [before]
    rw [h.takeWhile_append isScalarChar_of_isDigit, dropWhile_append h]
    split
    · split <;> rfl
    · rfl

theorem readNumber_append (most : Option Nat) (s : List Char) :
    readNumber most (s ++ rest) = (readNumber most s).map (before rest) := by
  have hwhole : ∀ s, wholeDigits (s ++ rest) = wholeDigits s := by
    intro s
    unfold wholeDigits
    rw [h.takeWhile_append isScalarChar_of_isDigit]
  rw [readNumber_eq, readNumber_eq, readMinus_append h]
  dsimp only [before]
  rw [h.takeWhile_append isScalarChar_of_isDigit, hwhole]
  split
  · rfl
  · rw [List.drop_append_of_le_length (wholeDigits_isPrefix _).length_le, readFraction_append h]
    dsimp only [before]
    rw [readExponent_append h]
    cases readExponent (readFraction ((readMinus s).2.drop (wholeDigits (readMinus s).2).length)).2 <;> rfl

theorem readWord_append (s : List Char) : readWord (s ++ rest) = (readWord s).map (before rest) := by
  have hwords := isScalarChar_of_mem_jsonWords
  unfold readWord
  revert hwords
  induction jsonWords with
  | nil => exact fun _ => rfl
  | cons p ps ih =>
    intro hwords
    obtain ⟨w, v⟩ := p
    have hw : w.isPrefixOf (s ++ rest) = w.isPrefixOf s := h.isPrefixOf_append (hwords _ List.mem_cons_self) s
    rw [List.findSome?_cons, List.findSome?_cons, ih fun q hq => hwords q (List.mem_cons_of_mem _ hq)]
    dsimp only
    rw [hw]
    by_cases hstarts : w.isPrefixOf s = true
    · have hle := (List.isPrefixOf_iff_prefix.mp hstarts).length_le
      rw [if_pos hstarts, if_pos hstarts, List.drop_append_of_le_length hle]
      rfl
    · rw [if_neg hstarts, if_neg hstarts]

/-- **A word or a number is read without what follows.** -/
theorem readScalar_append (most : Option Nat) (s : List Char) :
    readScalar most (s ++ rest) = (readScalar most s).map (before rest) := by
  unfold readScalar
  rw [readWord_append h, readNumber_append h]
  cases readWord s <;> rfl

end

/-! ## What is left -/

theorem readMinus_suffix (s : List Char) : (readMinus s).2 <:+ s := by
  cases s with
  | nil => exact List.suffix_rfl
  | cons c r =>
    rw [readMinus_cons]
    split
    · exact List.suffix_cons c r
    · exact List.suffix_rfl

theorem readSign_suffix (s : List Char) : (readSign s).2 <:+ s := by
  cases s with
  | nil => exact List.suffix_rfl
  | cons c r =>
    rw [readSign_cons]
    split
    · exact List.suffix_cons c r
    · split
      · exact List.suffix_cons c r
      · exact List.suffix_rfl

theorem readFraction_suffix (s : List Char) : (readFraction s).2 <:+ s := by
  cases s with
  | nil => exact List.suffix_rfl
  | cons c r =>
    rw [readFraction_cons]
    split
    · exact (List.dropWhile_suffix isDigit).trans (List.suffix_cons c r)
    · exact List.suffix_rfl

theorem readExponent_suffix {e : Int} (h : readExponent s = some (e, r)) : r <:+ s := by
  cases s with
  | nil => cases h
  | cons c s =>
    rw [readExponent_cons] at h
    dsimp only at h
    obtain ⟨-, h⟩ := Option.ite_none_right_eq_some.mp h
    obtain ⟨-, h⟩ := Option.ite_none_left_eq_some.mp h
    cases h
    exact ((List.dropWhile_suffix isDigit).trans (readSign_suffix s)).trans (List.suffix_cons c s)

theorem readNumber_suffix {value : Except ReadFault Json} (h : readNumber most s = some (value, r)) :
    r <:+ s := by
  rw [readNumber_eq] at h
  dsimp only at h
  obtain ⟨-, h⟩ := Option.ite_none_left_eq_some.mp h
  have hfraction (n : Nat) : (readFraction ((readMinus s).2.drop n)).2 <:+ s :=
    ((readFraction_suffix _).trans (List.drop_suffix n _)).trans (readMinus_suffix s)
  split at h
  · next hexponent =>
    cases h
    exact (readExponent_suffix hexponent).trans (hfraction _)
  · cases h
    exact hfraction _

theorem readWord_suffix {v : Json} (h : readWord s = some (v, r)) : r <:+ s := by
  obtain ⟨p, -, hp⟩ := List.exists_of_findSome?_eq_some h
  obtain ⟨-, hp⟩ := Option.ite_none_right_eq_some.mp hp
  cases hp
  exact List.drop_suffix _ s

/-- **What a word or a number leaves is the end of the text.** -/
theorem suffix_of_readScalar {value : Except ReadFault Json} (h : readScalar most s = some (value, r)) :
    r <:+ s := by
  rcases Option.or_eq_some_iff.mp h with h | ⟨-, h⟩
  · obtain ⟨⟨v, r'⟩, hword, heq⟩ := Option.map_eq_some_iff.mp h
    cases heq
    exact readWord_suffix hword
  · exact readNumber_suffix h

/-! ## Integers -/

/-- Only zero starts with a zero. -/
theorem eq_zero_of_head? {n : Nat} (h : (decimalDigits n).head? = some '0') : n = 0 := by
  induction n using Nat.strong_induction_on with
  | _ n ih =>
    unfold decimalDigits at h ih
    by_cases hn : n < 10
    · have hdigit : ∀ k < 10, [Nat.digitChar k].head? = some '0' → k = 0 := by decide
      rw [Nat.toDigits_of_lt_base hn] at h
      exact hdigit n hn h
    · obtain ⟨d, ds, hds⟩ := List.exists_cons_of_ne_nil (decimalDigits_ne_nil (n / 10))
      unfold decimalDigits at hds
      rw [Nat.toDigits_of_base_le (by decide) (by omega), hds] at h
      have hzero := ih (n / 10) (by omega) (hds ▸ h)
      omega

theorem readNumber_digits (most : Option Nat) (negative : Bool) (n : Nat) :
    readNumber most ((if negative then ['-'] else []) ++ (decimalDigits n ++ [])) =
      some (integerValue most negative (decimalDigits n), []) := by
  have hdigits : ∀ d ∈ decimalDigits n, isDigit d = true := fun d hd => isDigit_of_mem hd
  have hminus : readMinus ((if negative then ['-'] else []) ++ (decimalDigits n ++ [])) =
      (negative, decimalDigits n ++ []) := by
    obtain ⟨d, ds, hds⟩ := List.exists_cons_of_ne_nil (decimalDigits_ne_nil n)
    rw [hds] at hdigits ⊢
    cases negative with
    | true => rfl
    | false =>
      show readMinus (d :: (ds ++ [])) = _
      rw [readMinus_cons, if_neg]
      · rfl
      · rintro rfl
        exact absurd (hdigits '-' List.mem_cons_self) (by decide)
  have htake := (takeWhile_digits hdigits endsNumber_nil).1
  have hwhole : wholeDigits (decimalDigits n ++ []) = decimalDigits n := by
    unfold wholeDigits
    rw [htake]
    split
    · next hzero =>
      rw [eq_zero_of_head? hzero]
      rfl
    · rfl
  have hne : (decimalDigits n).isEmpty = false := List.isEmpty_eq_false_iff.mpr (decimalDigits_ne_nil n)
  rw [readNumber_eq, hminus]
  dsimp only
  rw [htake, hne, hwhole, List.append_nil, List.drop_length]
  rfl

/-- **An integer is the value of its digits**, if it has no more than are read. -/
theorem scalarValue?_intDigits {n : Int} (hmost : ∀ k ∈ most, digitsOf n ≤ k) :
    scalarValue? most (intDigits n) = some (.int n) := by
  have hstart := startsNumber_of_intDigits (n := n) List.prefix_rfl (intDigits_ne_nil n) endsNumber_nil
  have hread := @read_intDigits [] _ most n hmost fun negative => readNumber_digits most negative n.natAbs
  rw [List.append_nil] at hstart hread
  unfold scalarValue? readScalar
  rw [hstart.readWord, hread]
  rfl

end EditorServices
