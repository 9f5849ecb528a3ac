/-!
# `Named` — values by name, in order of first insertion

## Contents
- **Operations.** Look-up, replacement in place, removal, overlay.
- **Laws.** What a look-up finds after a replacement; what is in an overlay; pairs of distinct names.
-/

namespace EditorServices

/-- Values by name. Operations keep the order in which names were first put. -/
abbrev Named (α : Type) := List (String × α)

namespace Named

variable {α : Type}

/-! ## Operations -/

/-- The value under a name. -/
def get? (ms : Named α) (name : String) : Option α := ms.lookup name

/-- Whether a name is present. -/
def has (ms : Named α) (name : String) : Bool := ms.any (·.1 == name)

/-- Sets the value under a name: in place if the name is present, at the end otherwise. -/
def put : Named α → String → α → Named α
  | [], name, v => [(name, v)]
  | (k, w) :: ms, name, v => if k = name then (k, v) :: ms else (k, w) :: put ms name v

/-- Removes a name. -/
def erase (ms : Named α) (name : String) : Named α := ms.filter (·.1 != name)

/-- All pairs of `override` put into `base`, in order. -/
def overlay (base override : Named α) : Named α :=
  override.foldl (fun ms p => ms.put p.1 p.2) base

/-- The values of a list of pairs in which a later pair replaces the value of an earlier one. -/
def ofPairs (pairs : List (String × α)) : Named α := overlay [] pairs

/-! ## Laws -/

@[simp] theorem get?_nil (name : String) : get? ([] : Named α) name = none := rfl

theorem get?_put_self (ms : Named α) (name : String) (v : α) :
    (ms.put name v).get? name = some v := by
  induction ms with
  | nil => simp [put, get?]
  | cons p ms ih =>
    obtain ⟨k, w⟩ := p
    by_cases h : k = name
    · simp [put, get?, h]
    · have h' : (name == k) = false := by simpa using fun e => h e.symm
      simpa [put, get?, List.lookup_cons, h, h'] using ih

theorem get?_put_of_ne {name other : String} (ms : Named α) (v : α) (h : other ≠ name) :
    (ms.put name v).get? other = ms.get? other := by
  induction ms with
  | nil =>
    have h' : (other == name) = false := by simpa using h
    simp [put, get?, List.lookup_cons, h']
  | cons p ms ih =>
    obtain ⟨k, w⟩ := p
    by_cases hk : k = name
    · subst hk
      have h' : (other == k) = false := by simpa using h
      simp [put, get?, List.lookup_cons, h']
    · simp only [put, hk, if_false, get?, List.lookup_cons]
      cases hk' : (other == k) with
      | true => rfl
      | false => simpa [get?] using ih

/-- What was put is new, and all else was there before. -/
theorem mem_put {ms : Named α} {name : String} {v : α} {p : String × α} (h : p ∈ ms.put name v) :
    p = (name, v) ∨ p ∈ ms := by
  induction ms with
  | nil => exact .inl (List.mem_singleton.mp h)
  | cons q ms ih =>
    obtain ⟨k, w⟩ := q
    unfold put at h
    split at h
    · next hk =>
      rcases List.mem_cons.mp h with rfl | hrest
      · exact .inl (hk ▸ rfl)
      · exact .inr (List.mem_cons_of_mem _ hrest)
    · rcases List.mem_cons.mp h with rfl | hrest
      · exact .inr List.mem_cons_self
      · exact (ih hrest).imp id (List.mem_cons_of_mem _)

/-- What is in an overlay was in one of its two parts. -/
theorem mem_overlay {base override : Named α} {p : String × α} (h : p ∈ base.overlay override) :
    p ∈ base ++ override := by
  unfold overlay at h
  induction override generalizing base with
  | nil => exact List.mem_append_left [] h
  | cons m override ih =>
    rcases List.mem_append.mp (ih h) with hput | hrest
    · rcases mem_put hput with rfl | hbase
      · exact List.mem_append_right base List.mem_cons_self
      · exact List.mem_append_left _ hbase
    · exact List.mem_append_right base (List.mem_cons_of_mem m hrest)

/-- What is laid over other names does not change what is under a name. -/
theorem get?_overlay_of_not_mem {name : String} (base : Named α) {override : Named α}
    (h : ∀ p ∈ override, p.1 ≠ name) : (base.overlay override).get? name = base.get? name := by
  unfold overlay
  induction override generalizing base with
  | nil => rfl
  | cons p override ih =>
    have hp := h p List.mem_cons_self
    rw [List.foldl_cons, ih (base.put p.1 p.2) fun q hq => h q (List.mem_cons_of_mem p hq),
      get?_put_of_ne base p.2 hp.symm]

/-- A name that is not there yet is put at the end. -/
theorem put_of_not_mem {name : String} (ms : Named α) (v : α) (h : name ∉ ms.map Prod.fst) :
    ms.put name v = ms ++ [(name, v)] := by
  induction ms with
  | nil => rfl
  | cons p ms ih =>
    obtain ⟨k, w⟩ := p
    rw [List.map_cons, List.mem_cons, not_or] at h
    rw [put, if_neg fun hk => h.1 hk.symm, ih h.2, List.cons_append]

/-- Pairs of distinct names are what they are the values of. -/
theorem ofPairs_of_nodup {pairs : List (String × α)} (h : (pairs.map Prod.fst).Nodup) :
    ofPairs pairs = pairs := by
  suffices hall : ∀ base : Named α, ((base ++ pairs).map Prod.fst).Nodup →
      overlay base pairs = base ++ pairs from hall [] h
  clear h
  unfold overlay
  induction pairs with
  | nil =>
    intro base _
    rw [List.append_nil]
    rfl
  | cons p pairs ih =>
    obtain ⟨name, v⟩ := p
    intro base hbase
    have hnew : name ∉ base.map Prod.fst := by
      intro hmem
      rw [List.map_append, List.nodup_append] at hbase
      exact hbase.2.2 name hmem name List.mem_cons_self rfl
    rw [List.foldl_cons, put_of_not_mem base v hnew, ih, List.append_assoc, List.singleton_append]
    rw [List.append_assoc, List.singleton_append]
    exact hbase

end Named

end EditorServices
