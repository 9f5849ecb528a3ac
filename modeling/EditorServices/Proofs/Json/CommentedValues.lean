import EditorServices.Proofs.Json.PlainTrees

/-!
# `Proofs.Json.CommentedValues` — commented texts are read as the values of their trees

A text that is read is laid out from a tree: the tokens of the tree, some trailing commas, and blanks and comments
between them. It is read as the value of that tree, unless the tree is nested too deeply.

## Contents
- **Trees of texts.** `Writes`, and `writes_iff` in terms of layouts.
- **Plain texts.** `readConfig_written_iff`.
- **Commented texts.** `Writes.readCommented`, and `readCommented_eq_ok_iff`.
-/

namespace EditorServices.Commented

variable {digits maxDepth : Option Nat} {v : Json} {t : Tree} {ts us : List Token} {s : List Char} {limits : Limits}

/-! ## Trees of texts -/

theorem Trailed.subset (h : Trailed ts us) : ts ⊆ us := by
  induction h with
  | nil => exact List.Subset.refl []
  | keep t _ ih => exact List.cons_subset_cons t ih
  | comma kind _ ih => exact List.Subset.trans (List.cons_subset_cons _ ih) (List.subset_cons_self _ _)

theorem Trailed.mem_cases (h : Trailed ts us) {u : Token} (hu : u ∈ us) : u ∈ ts ∨ u = .comma := by
  induction h with
  | nil => exact .inl hu
  | keep t _ ih =>
    rcases List.mem_cons.mp hu with rfl | hu
    · exact .inl List.mem_cons_self
    · exact (ih hu).imp (List.mem_cons_of_mem t) id
  | comma kind _ ih =>
    rcases List.mem_cons.mp hu with rfl | hu
    · exact .inr rfl
    · rcases List.mem_cons.mp hu with rfl | hu
      · exact .inl List.mem_cons_self
      · exact (ih hu).imp (List.mem_cons_of_mem _) id

/-- A text is the tokens of a tree, with some trailing commas and with blanks and comments between them. -/
def Writes (s : List Char) (t : Tree) : Prop := ∃ ts, CutsInto s ts ∧ Trailed t.tokens ts

/-- **In terms of layouts**: the tokens of the tree are written as such, each after a gap. -/
theorem writes_iff : Writes s t ↔ t.Formed ∧ ∃ ts, Trailed t.tokens ts ∧ Laid ts s := by
  constructor
  · rintro ⟨ts, hcut, htrailed⟩
    obtain ⟨hlaid, hformed⟩ := hcut.laid (isChain_of_feed (feed_of_trailed htrailed))
    exact ⟨fun tok htok => hformed tok (htrailed.subset htok), ts, htrailed, hlaid⟩
  · rintro ⟨hformed, ts, htrailed, hlaid⟩
    refine ⟨ts, hlaid.cutsInto (fun u hu => ?_) (isChain_of_feed (feed_of_trailed htrailed)), htrailed⟩
    rcases htrailed.mem_cases hu with hu | rfl
    · exact hformed u hu
    · trivial

theorem Writes.formed (h : Writes s t) : t.Formed := (writes_iff.mp h).1

/-! ## Plain texts -/

/-- **The tokens of a tree in a row are read as its value, and as nothing else.** -/
theorem readConfig_written_iff (h : t.Formed) (hdepth : ∀ n ∈ maxDepth, t.depth ≤ n) :
    Json.readConfig t.written (.strict digits maxDepth) = .ok v ↔ t.value? digits decode? = some v := by
  obtain ⟨c, r, hcr, hblank, -, hmark⟩ := h.head
  have hends : EndsValue [] := nofun
  have hread := fun r => @readAs digits maxDepth t h maxDepth (t.written.length + 1) [] v r hdepth
    (Nat.le_succ _) hends
  have hskip : skipBlanks t.written = t.written := by
    rw [hcr]
    exact skipBlanks_cons hblank r
  have hhead : t.written.head? ≠ some (Char.ofNat 0xfeff) := by
    rw [hcr]
    exact fun heq => hmark (Option.some.inj heq)
  simp only [List.append_nil] at hread
  have hlimit : (Dialect.strict digits maxDepth).maxDepth = maxDepth := rfl
  unfold Json.readConfig Json.readAll
  rw [if_neg hhead, hskip, hlimit]
  constructor
  · intro hok
    cases hx : readValue (.strict digits maxDepth) maxDepth (t.written.length + 1) t.written with
    | error fault =>
      rw [hx] at hok
      cases hok
    | ok p =>
      obtain ⟨x, r⟩ := p
      simp only [hx, bind, Except.bind] at hok
      split at hok
      · next hnil =>
        cases hok
        exact ((hread r).mp ⟨hx, hnil ▸ hends⟩).1
      · cases hok
  · intro hv
    rw [((hread []).mpr ⟨hv, rfl⟩).1]
    rfl

/-! ## Commented texts -/

/-- **A text that a tree is written as is read as what the tree is read as**, unless that is too deep. -/
theorem Writes.readCommented (h : Writes s t) (limits : Limits) : Json.readCommented s limits =
    if limits.nesting.any (· < (t.depth : Int)) then .error .tooDeep else Json.readKept t.tokens limits := by
  obtain ⟨ts, hcut, htrailed⟩ := h
  rw [Json.readCommented_eq, scan_of_cutsInto hcut (Nat.lt_succ_self _) (feed_of_trailed htrailed), if_pos rfl]
  dsimp only
  rw [List.reverse_reverse, deepest_tokens]

theorem depth_le_of_not_any (h : limits.nesting.any (· < (t.depth : Int)) = false) :
    ∀ n ∈ limits.depth, t.depth ≤ n := by
  intro n hn
  obtain ⟨k, hk, hle⟩ := limits.covered n hn
  rw [Option.mem_def.mp hk, Option.any_some, decide_eq_false_iff_not] at h
  omega

theorem readKept_eq_ok_iff (h : t.Formed) (hdepth : limits.nesting.any (· < (t.depth : Int)) = false) :
    Json.readKept t.tokens limits = .ok v ↔ t.value? limits.digits decode? = some v := by
  have hread : t.tokens.flatMap Token.written = t.written := rfl
  rw [← readConfig_written_iff h (depth_le_of_not_any hdepth), ← Limits.dialect]
  unfold Json.readKept
  rw [hread]
  cases Json.readConfig t.written limits.dialect <;> simp

/-- What is read is written as some tree. -/
theorem exists_writes (h : Json.readCommented s limits = .ok v) : ∃ t, Writes s t := by
  rw [Json.readCommented_eq] at h
  cases hscan : scan (s.length + 1) .initial s with
  | error f =>
    rw [hscan] at h
    cases h
  | ok kept =>
    obtain ⟨ts, -, hcut, hvalue, -⟩ := (scan_eq_ok_iff (Nat.lt_succ_self _)).mp hscan
    obtain ⟨t, ht⟩ := hvalue.exists_trailed
    exact ⟨t, ts, hcut, ht⟩

/-- **A text is read as a value exactly if a tree with that value is written as it**, and is not too deep. -/
theorem readCommented_eq_ok_iff : Json.readCommented s limits = .ok v ↔
    ∃ t, Writes s t ∧ limits.nesting.any (· < (t.depth : Int)) = false ∧
      t.value? limits.digits decode? = some v := by
  constructor
  · intro h
    obtain ⟨t, ht⟩ := exists_writes h
    rw [ht.readCommented] at h
    split at h
    · cases h
    · next hdepth =>
      have hdepth := Bool.eq_false_iff.mpr hdepth
      exact ⟨t, ht, hdepth, (readKept_eq_ok_iff ht.formed hdepth).mp h⟩
  · rintro ⟨t, ht, hdepth, hv⟩
    rw [ht.readCommented, hdepth, if_neg Bool.false_ne_true]
    exact (readKept_eq_ok_iff ht.formed hdepth).mpr hv

end EditorServices.Commented
