import EditorServices.Highlight.Highlighter
import EditorServices.Proofs.Lists

/-!
# `Proofs.Highlight.Ascending` — indices in ascending order

Values by index and sets of indices are lists, and are meant to be in ascending order. The operations
keep the order, so that an index has one value at most and a list of pairs says the same as its look-up.

## Contents
- **Sets.** `LineSet.Ascending`, kept by insertion, removal and union; `LineSet.Ascending.ext`.
- **Values.** `Lines.Ascending`, kept by setting and removal; `Lines.Ascending.get?_of_mem` and
  `Lines.Ascending.ext`.
- **Gathered lines.** The lines of a range and those at dirty indices are in order.
-/

namespace EditorServices.Highlight

/-! ## Sets -/

namespace LineSet

/-- Each index is below all that come later. -/
def Ascending (s : LineSet) : Prop := s.Pairwise (· < ·)

variable {s t : LineSet}

theorem Ascending.insert (h : s.Ascending) (i : Int) : (s.insert i).Ascending := by
  induction s with
  | nil => exact List.pairwise_singleton _ i
  | cons j s ih =>
    obtain ⟨hj, hs⟩ := List.pairwise_cons.mp h
    rw [LineSet.insert]
    by_cases hlt : i < j
    · -- in front: what comes later is above `j`
      rw [if_pos hlt]
      refine List.pairwise_cons.mpr ⟨?_, h⟩
      intro k hk
      rcases List.mem_cons.mp hk with rfl | hk
      · exact hlt
      · exact Int.lt_trans hlt (hj k hk)
    · rw [if_neg hlt]
      by_cases heq : i = j
      · rw [if_pos heq]
        exact h
      · rw [if_neg heq]
        refine List.pairwise_cons.mpr ⟨?_, ih hs⟩
        intro k hk
        rcases mem_insert.mp hk with rfl | hk
        · omega
        · exact hj k hk

theorem Ascending.filter (h : s.Ascending) (p : Int → Bool) : Ascending (s.filter p) :=
  List.Pairwise.filter p h

theorem Ascending.erase (h : s.Ascending) (i : Int) : (s.erase i).Ascending := h.filter _

/-- The union of two sets in order: the induction is that of the merge of both. -/
theorem Ascending.union (hs : s.Ascending) (ht : t.Ascending) : (s.union t).Ascending := by
  fun_induction LineSet.union s t with
  | case1 t => exact ht
  | case2 s => exact hs
  | case3 i s j t hlt ih =>
    obtain ⟨hi, hs'⟩ := List.pairwise_cons.mp hs
    obtain ⟨hj, -⟩ := List.pairwise_cons.mp ht
    refine List.pairwise_cons.mpr ⟨?_, ih hs' ht⟩
    intro k hk
    rcases mem_union.mp hk with hk | hk
    · exact hi k hk
    · rcases List.mem_cons.mp hk with rfl | hk
      · exact hlt
      · exact Int.lt_trans hlt (hj k hk)
  | case4 i s t hlt ih =>
    obtain ⟨hi, hs'⟩ := List.pairwise_cons.mp hs
    obtain ⟨hj, ht'⟩ := List.pairwise_cons.mp ht
    refine List.pairwise_cons.mpr ⟨?_, ih hs' ht'⟩
    intro k hk
    rcases mem_union.mp hk with hk | hk
    · exact hi k hk
    · exact hj k hk
  | case5 i s j t hlt hne ih =>
    obtain ⟨hi, -⟩ := List.pairwise_cons.mp hs
    obtain ⟨hj, ht'⟩ := List.pairwise_cons.mp ht
    have hji : j < i := by omega
    refine List.pairwise_cons.mpr ⟨?_, ih hs ht'⟩
    intro k hk
    rcases mem_union.mp hk with hk | hk
    · rcases List.mem_cons.mp hk with rfl | hk
      · exact hji
      · exact Int.lt_trans hji (hi k hk)
    · exact hj k hk

/-- Two sets in order are equal if they have the same indices. -/
theorem Ascending.ext (hs : s.Ascending) (ht : t.Ascending) (h : ∀ i, i ∈ s ↔ i ∈ t) : s = t :=
  eq_of_pairwise (fun _ _ hij hji => Int.lt_irrefl _ (Int.lt_trans hij hji)) hs ht h

end LineSet

/-- The indices of a range are in order. -/
theorem ascending_indexRange (first last : Int) : LineSet.Ascending (indexRange first last) := by
  refine List.Pairwise.map _ ?_ List.pairwise_lt_range
  intro a b hab
  omega

/-! ## Values -/

namespace Lines

variable {α : Type} {ls ls' : Lines α}

/-- Each index is below all that come later. -/
def Ascending (ls : Lines α) : Prop := ls.Pairwise fun p q => p.1 < q.1

theorem ascending_nil : Ascending ([] : Lines α) := List.Pairwise.nil

theorem Ascending.filter (h : ls.Ascending) (keep : Int × α → Bool) :
    Ascending (List.filter keep ls) := List.Pairwise.filter keep h

/-- What is there after a value was set is the new value or was there before. -/
theorem mem_put {i : Int} {a : α} {p : Int × α} (h : p ∈ ls.put i a) : p = (i, a) ∨ p ∈ ls := by
  induction ls with
  | nil => exact Or.inl (List.mem_singleton.mp h)
  | cons q ls ih =>
    obtain ⟨j, b⟩ := q
    rw [put] at h
    by_cases hlt : i < j
    · rw [if_pos hlt] at h
      exact List.mem_cons.mp h
    · rw [if_neg hlt] at h
      by_cases heq : i = j
      · rw [if_pos heq] at h
        exact (List.mem_cons.mp h).imp id (List.mem_cons_of_mem (j, b))
      · rw [if_neg heq] at h
        rcases List.mem_cons.mp h with rfl | h
        · exact Or.inr List.mem_cons_self
        · exact (ih h).imp id (List.mem_cons_of_mem (j, b))

/-- Setting a value keeps the order. -/
theorem Ascending.put (h : ls.Ascending) (i : Int) (a : α) : (ls.put i a).Ascending := by
  induction ls with
  | nil => exact List.pairwise_singleton _ (i, a)
  | cons q ls ih =>
    obtain ⟨j, b⟩ := q
    obtain ⟨hj, hls⟩ := List.pairwise_cons.mp h
    rw [Lines.put]
    by_cases hlt : i < j
    · -- in front: what comes later is above `j`
      rw [if_pos hlt]
      refine List.pairwise_cons.mpr ⟨?_, h⟩
      intro p hp
      rcases List.mem_cons.mp hp with rfl | hp
      · exact hlt
      · exact Int.lt_trans hlt (hj p hp)
    · rw [if_neg hlt]
      by_cases heq : i = j
      · subst heq
        rw [if_pos rfl]
        exact List.pairwise_cons.mpr ⟨hj, hls⟩
      · rw [if_neg heq]
        refine List.pairwise_cons.mpr ⟨?_, ih hls⟩
        intro p hp
        rcases mem_put hp with rfl | hp
        · show j < i
          omega
        · exact hj p hp

/-- What a look-up finds is there. -/
theorem mem_of_get? {i : Int} {a : α} (h : ls.get? i = some a) : (i, a) ∈ ls := by
  obtain ⟨before, more, heq, -⟩ := List.lookup_eq_some_iff.mp h
  rw [heq]
  exact List.mem_append_right before List.mem_cons_self

/-- In order, an index has one value. -/
theorem Ascending.eq_of_mem (h : ls.Ascending) {i : Int} {a b : α} (ha : (i, a) ∈ ls) (hb : (i, b) ∈ ls) :
    a = b := by
  induction ls with
  | nil => exact absurd ha List.not_mem_nil
  | cons q ls ih =>
    obtain ⟨hq, hls⟩ := List.pairwise_cons.mp h
    rcases List.mem_cons.mp ha with rfl | hla
    · rcases List.mem_cons.mp hb with heq | hlb
      · exact (congrArg Prod.snd heq).symm
      · exact absurd (hq (i, b) hlb) (Int.lt_irrefl i)
    · rcases List.mem_cons.mp hb with rfl | hlb
      · exact absurd (hq (i, a) hla) (Int.lt_irrefl i)
      · exact ih hls hla hlb

/-- In order, a look-up finds what is there. -/
theorem Ascending.get?_of_mem (h : ls.Ascending) {i : Int} {a : α} (ha : (i, a) ∈ ls) :
    ls.get? i = some a := by
  cases hget : ls.get? i with
  | none => exact absurd rfl (bne_iff_ne.mp (List.lookup_eq_none_iff.mp hget (i, a) ha))
  | some b => rw [h.eq_of_mem ha (mem_of_get? hget)]

/-- Two in order are equal if a look-up finds the same in both. -/
theorem Ascending.ext (h : ls.Ascending) (h' : ls'.Ascending) (hget : ∀ i, ls.get? i = ls'.get? i) :
    ls = ls' := by
  refine eq_of_pairwise (fun _ _ hpq hqp => Int.lt_irrefl _ (Int.lt_trans hpq hqp)) h h' ?_
  rintro ⟨i, a⟩
  constructor
  · intro hmem
    exact mem_of_get? ((hget i).symm.trans (h.get?_of_mem hmem))
  · intro hmem
    exact mem_of_get? ((hget i).trans (h'.get?_of_mem hmem))

end Lines

/-! ## Gathered lines -/

/-- The lines of a list that are not served are some of its lines, in their order. -/
theorem Cache.unserved_sublist (c : Cache) (lines : List (Int × String)) :
    (c.unserved lines).Sublist lines := by
  induction lines with
  | nil => exact List.Sublist.refl []
  | cons p rest ih =>
    obtain ⟨i, text⟩ := p
    rw [unserved]
    cases c.served? i text with
    | some r => exact ih.cons (i, text)
    | none => exact ih.cons_cons (i, text)

namespace Highlighter

variable {textAt : Int → Except Failure String}

/-- The texts at some indices are under these indices. -/
theorem indices_of_textsAt {is : List Int} {lines : Lines String} (h : textsAt textAt is = .ok lines) :
    lines.map Prod.fst = is := by
  induction is generalizing lines with
  | nil =>
    cases h
    rfl
  | cons i is ih =>
    rw [textsAt] at h
    cases ht : textAt i with
    | error f =>
      rw [ht] at h
      cases h
    | ok text =>
      cases hm : textsAt textAt is with
      | error f =>
        rw [ht, hm] at h
        cases h
      | ok more =>
        rw [ht, hm] at h
        cases h
        rw [List.map_cons, ih hm]

/-- The texts from an index on are under that many indices from there. -/
theorem indices_of_textsFrom {n : Nat} {first : Int} {lines : Lines String}
    (h : textsFrom textAt first n = .ok lines) :
    lines.map Prod.fst = (List.range n).map fun k : Nat => first + (k : Int) := by
  induction n generalizing first lines with
  | zero =>
    cases h
    rfl
  | succ n ih =>
    rw [textsFrom] at h
    cases ht : textAt first with
    | error f =>
      rw [ht] at h
      cases h
    | ok text =>
      cases hm : textsFrom textAt (first + 1) n with
      | error f =>
        rw [ht, hm] at h
        cases h
      | ok more =>
        rw [ht, hm] at h
        cases h
        rw [List.map_cons, ih hm, List.range_succ_eq_map, List.map_cons, List.map_map]
        congr 1
        · simp
        · refine List.map_congr_left fun k _ => ?_
          simp only [Function.comp_apply]
          omega

/-- Lines are in order if their indices are. -/
theorem ascending_of_indices {α : Type} {lines : Lines α} (h : LineSet.Ascending (lines.map Prod.fst)) :
    lines.Ascending := List.pairwise_map.mp h

/-- The lines of a range that are not served are in order. -/
theorem ascending_unserved (c : Cache) {first last : Int} {lines : Lines String}
    (h : textsFrom textAt first (last - first + 1).toNat = .ok lines) :
    Lines.Ascending (c.unserved lines) := by
  have hall : lines.Ascending := by
    refine ascending_of_indices ?_
    rw [indices_of_textsFrom h]
    exact ascending_indexRange first last
  exact List.Pairwise.sublist (c.unserved_sublist lines) hall

/-- The lines at indices in order are in order. -/
theorem ascending_textsAt {s : LineSet} (hs : s.Ascending) {lines : Lines String}
    (h : textsAt textAt s = .ok lines) : lines.Ascending := by
  refine ascending_of_indices ?_
  rw [indices_of_textsAt h]
  exact hs

end Highlighter

end EditorServices.Highlight
