/-!
# `Text.Split` — cutting a list at a separator

## Contents
- `splitAt1`: the parts between separators; there is always one part more than separators.
- `splitAt1_of_not_mem`: a list without separators is its only part.
- `joinWith`: the inverse, with `joinWith_splitAt1` and `splitAt1_joinWith`.
- `not_mem_of_mem_splitAt1`: no part holds the separator.
-/

namespace EditorServices

/-- The parts of a list between the occurrences of a separator. -/
def splitAt1 {α : Type} [DecidableEq α] (sep : α) : List α → List (List α)
  | [] => [[]]
  | c :: r =>
    if c = sep then [] :: splitAt1 sep r
    else
      match splitAt1 sep r with
      | [] => [[c]]
      | part :: parts => (c :: part) :: parts

/-- Parts joined by a separator. -/
def joinWith {α : Type} (sep : List α) : List (List α) → List α
  | [] => []
  | [part] => part
  | part :: parts => part ++ sep ++ joinWith sep parts

theorem splitAt1_ne_nil {α : Type} [DecidableEq α] (sep : α) (s : List α) :
    splitAt1 sep s ≠ [] := by
  cases s with
  | nil => simp [splitAt1]
  | cons c r =>
    unfold splitAt1
    split
    · simp
    · split <;> simp

theorem splitAt1_of_not_mem {α : Type} [DecidableEq α] {sep : α} {s : List α} (h : sep ∉ s) :
    splitAt1 sep s = [s] := by
  induction s with
  | nil => rfl
  | cons c r ih =>
    rw [List.mem_cons, not_or] at h
    simp [splitAt1, Ne.symm h.1, ih h.2]

theorem joinWith_splitAt1 {α : Type} [DecidableEq α] (sep : α) (s : List α) :
    joinWith [sep] (splitAt1 sep s) = s := by
  induction s with
  | nil => simp [splitAt1, joinWith]
  | cons c r ih =>
    unfold splitAt1
    split
    · next h =>
      subst h
      cases hr : splitAt1 c r with
      | nil => exact absurd hr (splitAt1_ne_nil c r)
      | cons p ps => simpa [joinWith, hr] using ih
    · cases hr : splitAt1 sep r with
      | nil => exact absurd hr (splitAt1_ne_nil sep r)
      | cons p ps =>
        rw [hr] at ih
        cases ps with
        | nil => simpa [joinWith] using ih
        | cons q qs => simpa [joinWith] using ih

section

variable {α : Type} {sep : α}

theorem joinWith_cons {part : List α} {parts : List (List α)} (h : parts ≠ []) :
    joinWith [sep] (part :: parts) = part ++ sep :: joinWith [sep] parts := by
  cases parts with
  | nil => exact absurd rfl h
  | cons q qs => simp [joinWith]

theorem joinWith_concat {parts : List (List α)} (h : parts ≠ []) (last : List α) :
    joinWith [sep] (parts ++ [last]) = joinWith [sep] parts ++ sep :: last := by
  induction parts with
  | nil => exact absurd rfl h
  | cons p ps ih =>
    cases ps with
    | nil => simp [joinWith]
    | cons q qs =>
      have hne : q :: qs ≠ [] := List.cons_ne_nil q qs
      have hconcat : q :: qs ++ [last] ≠ [] := List.cons_ne_nil q _
      rw [List.cons_append, joinWith_cons hconcat, ih hne, joinWith_cons hne, List.append_assoc,
        List.cons_append]

variable [DecidableEq α]

theorem splitAt1_append {part : List α} (h : sep ∉ part) (rest : List α) :
    splitAt1 sep (part ++ sep :: rest) = part :: splitAt1 sep rest := by
  induction part with
  | nil => simp [splitAt1]
  | cons c part ih =>
    rw [List.mem_cons, not_or] at h
    simp [splitAt1, Ne.symm h.1, ih h.2]

/-- Parts without the separator are what a cut gives back. -/
theorem splitAt1_joinWith {parts : List (List α)} (hne : parts ≠ []) (h : ∀ p ∈ parts, sep ∉ p) :
    splitAt1 sep (joinWith [sep] parts) = parts := by
  induction parts with
  | nil => exact absurd rfl hne
  | cons p ps ih =>
    have hp := h p List.mem_cons_self
    cases ps with
    | nil => exact splitAt1_of_not_mem hp
    | cons q qs =>
      rw [joinWith_cons (by simp), splitAt1_append hp, ih (by simp) fun x hx => h x (List.mem_cons_of_mem _ hx)]

/-- No part holds the separator. -/
theorem not_mem_of_mem_splitAt1 {s part : List α} (h : part ∈ splitAt1 sep s) : sep ∉ part := by
  induction s generalizing part with
  | nil =>
    cases List.mem_singleton.mp h
    exact List.not_mem_nil
  | cons c r ih =>
    unfold splitAt1 at h
    split at h
    · rcases List.mem_cons.mp h with rfl | hrest
      · exact List.not_mem_nil
      · exact ih hrest
    · next hc =>
      cases hr : splitAt1 sep r with
      | nil => exact absurd hr (splitAt1_ne_nil sep r)
      | cons p ps =>
        rw [hr] at h ih
        rcases List.mem_cons.mp h with rfl | hrest
        · rw [List.mem_cons, not_or]
          exact ⟨Ne.symm hc, ih List.mem_cons_self⟩
        · exact ih (List.mem_cons_of_mem _ hrest)

end

end EditorServices
