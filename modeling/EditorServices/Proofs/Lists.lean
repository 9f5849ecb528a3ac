import Mathlib.Data.List.Nodup
import Mathlib.Data.List.Pairwise
import Mathlib.Data.List.Perm.Basic

/-!
# `Proofs.Lists` — items of lists and their places

A place of a list is taken out or filled anew while the rest stays. So it is said of every item that it is
still there or is the one at that place, and of what counts that it is the same if that item does not count.

## Contents
- **Places.** `eq_take_append_cons_drop` and `perm_cons_eraseIdx`; `mem_eraseIdx_or` and `mem_set_or`.
- **What counts.** `filterMap_cons_toList`, `filterMap_eraseIdx` and `filterMap_eq_of_getElem?`.
- **Order and repetition.** `exists_last_of_mem`, `eq_of_pairwise`, `eq_of_nodup_flatMap`.
-/

namespace EditorServices

variable {α β : Type} {xs : List α} {i : Nat} {x y z : α}

/-! ## Places -/

/-- What stands at a place stands between what is before it and what is after it. -/
theorem eq_take_append_cons_drop (hi : xs[i]? = some x) : xs = xs.take i ++ x :: xs.drop (i + 1) := by
  obtain ⟨hlt, rfl⟩ := List.getElem?_eq_some_iff.mp hi
  rw [← List.drop_eq_getElem_cons hlt, List.take_append_drop]

/-- What stands at a place, and all else. -/
theorem perm_cons_eraseIdx (hi : xs[i]? = some x) : xs.Perm (x :: xs.eraseIdx i) := by
  obtain ⟨hlt, rfl⟩ := List.getElem?_eq_some_iff.mp hi
  exact (List.getElem_cons_eraseIdx_perm hlt).symm

/-- What stands elsewhere in a list is not taken out. -/
theorem mem_eraseIdx_or (hy : y ∈ xs) (hi : xs[i]? = some x) : y ∈ xs.eraseIdx i ∨ y = x := by
  obtain ⟨j, hj⟩ := List.getElem?_of_mem hy
  by_cases hji : j = i
  · subst hji
    rw [hj] at hi
    exact .inr (Option.some.inj hi)
  · exact .inl (List.mem_eraseIdx_iff_getElem?.mpr ⟨j, hji, hj⟩)

/-- Nor is it replaced. -/
theorem mem_set_or (hy : y ∈ xs) (hi : xs[i]? = some x) : y ∈ xs.set i z ∨ y = x := by
  obtain ⟨j, hj⟩ := List.getElem?_of_mem hy
  by_cases hji : i = j
  · subst hji
    rw [hj] at hi
    exact .inr (Option.some.inj hi)
  · refine .inl (List.mem_of_getElem? (i := j) ?_)
    rw [List.getElem?_set_ne hji, hj]

/-! ## What counts -/

theorem filterMap_cons_toList (f : α → Option β) (x : α) (xs : List α) :
    (x :: xs).filterMap f = (f x).toList ++ xs.filterMap f := by
  rw [List.filterMap_cons]
  cases f x <;> rfl

/-- What does not count leaves what counts as it is. -/
theorem filterMap_eraseIdx {count : α → Option β} (hi : xs[i]? = some x) (hx : count x = none) :
    (xs.eraseIdx i).filterMap count = xs.filterMap count := by
  rw [List.eraseIdx_eq_take_drop_succ]
  conv => rhs; rw [eq_take_append_cons_drop hi]
  rw [List.filterMap_append, List.filterMap_append, List.filterMap_cons_none hx]

/-- Only the places where a function has a value matter for a list. -/
theorem filterMap_eq_of_getElem? {f : α → Option β} {ys : List α}
    (h : ∀ i : Nat, (xs[i]?).bind f = (ys[i]?).bind f) : xs.filterMap f = ys.filterMap f := by
  induction xs generalizing ys with
  | nil =>
    refine (List.filterMap_eq_nil_iff.mpr fun y hy => ?_).symm
    obtain ⟨i, hi⟩ := List.getElem?_of_mem hy
    have hnone := h i
    rw [hi] at hnone
    exact hnone.symm
  | cons x xs ih =>
    cases ys with
    | nil =>
      refine List.filterMap_eq_nil_iff.mpr fun y hy => ?_
      obtain ⟨i, hi⟩ := List.getElem?_of_mem hy
      have hnone := h i
      rw [hi] at hnone
      exact hnone
    | cons y ys =>
      have hhead : f x = f y := h 0
      have htail : xs.filterMap f = ys.filterMap f := ih fun i => h (i + 1)
      rw [List.filterMap_cons, List.filterMap_cons, hhead, htail]

/-! ## Order and repetition -/

/-- An item of a list stands somewhere for the last time. -/
theorem exists_last_of_mem (h : x ∈ xs) : ∃ before after, xs = before ++ x :: after ∧ x ∉ after := by
  obtain ⟨after, before, heq, hafter⟩ := List.eq_append_cons_of_mem (List.mem_reverse.mpr h)
  refine ⟨before.reverse, after.reverse, ?_, by simpa using hafter⟩
  rw [← List.reverse_reverse xs, heq]
  simp

/-- Of two lists in the same strict order, the members say which list it is. -/
theorem eq_of_pairwise {r : α → α → Prop} {ys : List α} (hr : ∀ a b, r a b → ¬ r b a)
    (h : xs.Pairwise r) (h' : ys.Pairwise r) (hmem : ∀ a, a ∈ xs ↔ a ∈ ys) : xs = ys := by
  have hnodup : ∀ {m : List α}, m.Pairwise r → m.Nodup := by
    intro m hm
    refine hm.imp ?_
    rintro a b hab rfl
    exact hr a a hab hab
  refine List.Perm.eq_of_pairwise ?_ h h' ((List.perm_ext_iff_of_nodup (hnodup h) (hnodup h')).mpr hmem)
  intro a b _ _ hab hba
  exact absurd hba (hr a b hab)

/-- An item of what is put together without repetition comes from one place. -/
theorem eq_of_nodup_flatMap {f : α → List β} (h : (xs.flatMap f).Nodup) (hx : x ∈ xs) (hy : y ∈ xs) {b : β}
    (hbx : b ∈ f x) (hby : b ∈ f y) : x = y := by
  by_contra hne
  have : Std.Symm (Function.onFun List.Disjoint f) := ⟨fun _ _ hdisjoint _ hb ha => hdisjoint ha hb⟩
  exact (List.nodup_flatMap.mp h).2.forall hx hy hne hbx hby

end EditorServices
