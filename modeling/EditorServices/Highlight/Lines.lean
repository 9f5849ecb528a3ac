/-!
# `Highlight.Lines` — values by line index

Both structures keep their indices in ascending order, so that two with the same members are equal.

## Contents
- **Values.** `Lines`, with look-up, replacement and removal.
- **Sets.** `LineSet`, with insertion, removal and union.
- **Laws.** What a look-up finds after each operation.
-/

namespace EditorServices.Highlight

/-! ## Values -/

/-- Values by line index, in ascending order. -/
abbrev Lines (α : Type) := List (Int × α)

namespace Lines

variable {α : Type}

/-- The value at an index. -/
def get? (ls : Lines α) (i : Int) : Option α := ls.lookup i

/-- Whether an index has a value. -/
def has (ls : Lines α) (i : Int) : Bool := (ls.get? i).isSome

/-- Sets the value at an index. -/
def put : Lines α → Int → α → Lines α
  | [], i, a => [(i, a)]
  | (j, b) :: ls, i, a =>
    if i < j then (i, a) :: (j, b) :: ls
    else if i = j then (i, a) :: ls
    else (j, b) :: put ls i a

/-- Removes the value at an index. -/
def erase (ls : Lines α) (i : Int) : Lines α := ls.filter fun p => p.1 != i

/-- Removes the values from one index to another and all values above the latter. -/
def dropFrom (ls : Lines α) (first last : Int) : Lines α :=
  ls.filter fun p => decide (p.1 < first ∧ p.1 ≤ last)

end Lines

/-! ## Sets -/

/-- Line indices in ascending order, each once. -/
abbrev LineSet := List Int

namespace LineSet

/-- Adds an index. -/
def insert : LineSet → Int → LineSet
  | [], i => [i]
  | j :: s, i => if i < j then i :: j :: s else if i = j then j :: s else j :: insert s i

/-- Removes an index. -/
def erase (s : LineSet) (i : Int) : LineSet := s.filter (· != i)

/-- The indices of two sets. -/
def union : LineSet → LineSet → LineSet
  | [], t => t
  | s, [] => s
  | i :: s, j :: t =>
    if i < j then i :: union s (j :: t)
    else if i = j then i :: union s t
    else j :: union (i :: s) t
termination_by s t => s.length + t.length

end LineSet

/-- The indices from one to another, both included. -/
def indexRange (first last : Int) : List Int :=
  (List.range (last - first + 1).toNat).map fun k : Nat => first + (k : Int)

/-! ## Laws -/

namespace Lines

variable {α : Type}

@[simp] theorem get?_nil (i : Int) : get? ([] : Lines α) i = none := rfl

theorem get?_put_self (ls : Lines α) (i : Int) (a : α) : (ls.put i a).get? i = some a := by
  induction ls with
  | nil => simp [put, get?]
  | cons p ls ih =>
    obtain ⟨j, b⟩ := p
    by_cases h : i < j
    · simp [put, get?, h]
    · by_cases h' : i = j
      · simp [put, get?, h']
      · have hne : (i == j) = false := by simpa using h'
        simpa [put, get?, h, h', List.lookup_cons, hne] using ih

theorem get?_put_of_ne {i k : Int} (ls : Lines α) (a : α) (hk : k ≠ i) :
    (ls.put i a).get? k = ls.get? k := by
  have hki : (k == i) = false := by simpa using hk
  induction ls with
  | nil => simp [put, get?, List.lookup_cons, hki]
  | cons p ls ih =>
    obtain ⟨j, b⟩ := p
    by_cases h : i < j
    · simp [put, get?, h, List.lookup_cons, hki]
    · by_cases h' : i = j
      · subst h'
        simp [put, get?, List.lookup_cons, hki]
      · simp only [put, h, h', if_false, get?, List.lookup_cons]
        cases hkj : (k == j) with
        | true => rfl
        | false => simpa [get?] using ih

end Lines

namespace LineSet

theorem mem_insert {s : LineSet} {i k : Int} : k ∈ insert s i ↔ k = i ∨ k ∈ s := by
  induction s with
  | nil => simp [insert]
  | cons j s ih =>
    rw [insert]
    split
    · simp
    · split
      · next h => simp [h]
      · simp only [List.mem_cons, ih]
        exact or_left_comm

theorem mem_union {s t : LineSet} {k : Int} : k ∈ union s t ↔ k ∈ s ∨ k ∈ t := by
  fun_induction union s t with
  | case1 t => simp
  | case2 s => simp
  | case3 i s j t h ih => simp only [List.mem_cons, ih, or_assoc]
  | case4 i s t h ih =>
    simp only [List.mem_cons, ih]
    constructor
    · rintro (h | h | h)
      · exact Or.inl (Or.inl h)
      · exact Or.inl (Or.inr h)
      · exact Or.inr (Or.inr h)
    · rintro ((h | h) | h | h)
      · exact Or.inl h
      · exact Or.inr (Or.inl h)
      · exact Or.inl h
      · exact Or.inr (Or.inr h)
  | case5 i s j t h h' ih =>
    simp only [List.mem_cons, ih]
    exact or_left_comm

theorem mem_erase {s : LineSet} {i k : Int} : k ∈ erase s i ↔ k ∈ s ∧ k ≠ i := by
  simp [erase]

end LineSet

end EditorServices.Highlight
