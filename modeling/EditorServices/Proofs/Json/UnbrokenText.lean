import EditorServices.Proofs.Json.Integers

/-!
# `Proofs.Json.UnbrokenText` — values written on one line have no line ends in them

A style without indentation breaks no line of its own. Then a line end could only come out of a string, and
there line feeds and carriage returns have escapes of their own in every style.

## Contents
- **Unbroken texts.** `Unbroken`, and how such texts are put together.
- **Numbers.** Integers and floating-point numbers.
- **Strings.** `unbroken_escapeChar` and `unbroken_quote`, for all styles.
- **Values.** `PrintStyle.IsFlat`, the styles that break no line, and `unbroken_print`.
-/

namespace EditorServices

/-! ## Unbroken texts -/

/-- A text without line feeds and carriage returns. -/
def Unbroken (s : List Char) : Prop := ∀ c ∈ s, c ≠ '\n' ∧ c ≠ '\r'

instance (s : List Char) : Decidable (Unbroken s) := List.decidableBAll _ s

namespace Unbroken

variable {c : Char} {s t : List Char}

theorem nil : Unbroken [] := fun _ hc => absurd hc List.not_mem_nil

theorem append_iff : Unbroken (s ++ t) ↔ Unbroken s ∧ Unbroken t := List.forall_mem_append

theorem append (hs : Unbroken s) (ht : Unbroken t) : Unbroken (s ++ t) := append_iff.mpr ⟨hs, ht⟩

theorem cons_iff : Unbroken (c :: s) ↔ (c ≠ '\n' ∧ c ≠ '\r') ∧ Unbroken s := List.forall_mem_cons

theorem cons (hc : c ≠ '\n' ∧ c ≠ '\r') (hs : Unbroken s) : Unbroken (c :: s) := cons_iff.mpr ⟨hc, hs⟩

theorem flatMap {α : Type} {f : α → List Char} {xs : List α} (h : ∀ x ∈ xs, Unbroken (f x)) :
    Unbroken (xs.flatMap f) := by
  intro c hc
  obtain ⟨x, hx, hcx⟩ := List.mem_flatMap.mp hc
  exact h x hx c hcx

theorem replicate (n : Nat) (hc : c ≠ '\n' ∧ c ≠ '\r') : Unbroken (List.replicate n c) := by
  intro d hd
  rwa [List.eq_of_mem_replicate hd]

theorem take (n : Nat) (h : Unbroken s) : Unbroken (s.take n) := fun c hc => h c (List.mem_of_mem_take hc)

theorem drop (n : Nat) (h : Unbroken s) : Unbroken (s.drop n) := fun c hc => h c (List.mem_of_mem_drop hc)

end Unbroken

/-! ## Numbers -/

theorem unbroken_decimalDigits (n : Nat) : Unbroken (decimalDigits n) := by
  intro c hc
  have hrange := isDigit_iff.mp (isDigit_of_mem hc)
  refine ⟨?_, ?_⟩
  · rintro rfl
    exact absurd hrange.1 (by decide)
  · rintro rfl
    exact absurd hrange.1 (by decide)

theorem unbroken_intDigits (n : Int) : Unbroken (intDigits n) := by
  unfold intDigits
  split
  · exact .cons (by decide) (unbroken_decimalDigits _)
  · exact unbroken_decimalDigits _

namespace DecimalLayout

variable {ds : List Char}

theorem unbroken_scientific (layout : DecimalLayout) (h : Unbroken ds) (top : Int) :
    Unbroken (layout.scientific ds top) := by
  have hsign : (if top < 0 then '-' else '+') ≠ '\n' ∧ (if top < 0 then '-' else '+') ≠ '\r' := by
    split <;> decide
  unfold scientific
  refine .append ?_ (.cons (by decide) (.cons hsign (.append (.replicate _ (by decide)) ?_)))
  · split
    · decide
    · exact h
    · obtain ⟨hd, hrest⟩ := Unbroken.cons_iff.mp h
      exact .cons hd (.cons (by decide) hrest)
  · exact unbroken_decimalDigits _

theorem unbroken_positional (h : Unbroken ds) (top : Int) : Unbroken (positional ds top) := by
  unfold positional
  split
  · exact .cons (by decide) (.cons (by decide) (.append (.replicate _ (by decide)) h))
  · refine .append (.append (h.take _) (.replicate _ (by decide))) (.cons (by decide) ?_)
    split
    · decide
    · exact h.drop _

end DecimalLayout

/-- A number has no line end in it, if the names of what is no number have none. -/
theorem Binary64.unbroken_text {layout : DecimalLayout} (hnan : Unbroken layout.nanText.toList)
    (hinfinity : Unbroken layout.infinityText.toList) (x : Binary64) : Unbroken (x.text layout).toList := by
  have hsign : Unbroken (if x.isNegative then ['-'] else []) := by
    split <;> decide
  unfold text
  split
  · exact hnan
  · dsimp only
    split
    · rw [String.toList_ofList]
      exact hsign.append hinfinity
    · split
      · rw [String.toList_ofList]
        exact hsign.append (by decide)
      · rw [String.toList_ofList]
        refine hsign.append ?_
        split
        · exact DecimalLayout.unbroken_positional (unbroken_decimalDigits _) _
        · exact layout.unbroken_scientific (unbroken_decimalDigits _) _

/-! ## Strings -/

theorem unbroken_unitEscape (n : Nat) : Unbroken (unitEscape n) := by
  have hdigit : ∀ k < 16, hexDigit k ≠ '\n' ∧ hexDigit k ≠ '\r' := by decide
  have hmod (k : Nat) : hexDigit (k % 16) ≠ '\n' ∧ hexDigit (k % 16) ≠ '\r' :=
    hdigit _ (Nat.mod_lt k (by decide))
  exact .cons (by decide) (.cons (by decide)
    (.cons (hmod _) (.cons (hmod _) (.cons (hmod _) (.cons (hmod _) .nil)))))

theorem unbroken_unicodeEscape (c : Char) : Unbroken (unicodeEscape c) := by
  unfold unicodeEscape
  dsimp only
  split
  · exact unbroken_unitEscape _
  · exact (unbroken_unitEscape _).append (unbroken_unitEscape _)

/-- The second character of a short escape is none of those that have one for being a line end. -/
theorem shortEscape?_unbroken {c e : Char} (h : shortEscape? c = some e) : e ≠ '\n' ∧ e ≠ '\r' := by
  unfold shortEscape? at h
  iterate 7
    split at h
    · cases h
      decide
  cases h

/-- Both line ends have short escapes. -/
theorem ne_of_shortEscape?_eq_none {c : Char} (h : shortEscape? c = none) : c ≠ '\n' ∧ c ≠ '\r' := by
  refine ⟨?_, ?_⟩
  · rintro rfl
    exact absurd h (by decide)
  · rintro rfl
    exact absurd h (by decide)

namespace PrintStyle

variable {style : PrintStyle}

/-- **No style lets a line end through.** -/
theorem unbroken_escapeChar (style : PrintStyle) (c : Char) : Unbroken (style.escapeChar c) := by
  unfold escapeChar
  split
  · next e he => exact .cons (by decide) (.cons (shortEscape?_unbroken he) .nil)
  · next hnone =>
    have hself : Unbroken [c] := .cons (ne_of_shortEscape?_eq_none hnone) .nil
    split
    · decide
    · split
      · exact unbroken_unitEscape _
      · split
        · split
          · exact unbroken_unitEscape _
          · exact unbroken_unicodeEscape c
        · split
          · exact unbroken_unitEscape _
          · exact hself

theorem unbroken_quote (style : PrintStyle) (s : String) : Unbroken (style.quote s) :=
  .cons (by decide) (.append (.flatMap fun c _ => style.unbroken_escapeChar c) (by decide))

/-! ## Values -/

/-- A style that writes everything on one line. -/
structure IsFlat (style : PrintStyle) : Prop where
  indent : style.indent = none
  afterComma : Unbroken style.afterComma
  afterColon : Unbroken style.afterColon
  nanText : Unbroken style.numbers.nanText.toList
  infinityText : Unbroken style.numbers.infinityText.toList

theorem isFlat_compact : compact.IsFlat := ⟨rfl, by decide, by decide, by decide, by decide⟩

theorem IsFlat.lineBreak (h : style.IsFlat) (level : Nat) : Unbroken (style.lineBreak level) := by
  unfold PrintStyle.lineBreak
  rw [h.indent]
  exact .nil

theorem IsFlat.separator (h : style.IsFlat) (level : Nat) : Unbroken (style.separator level) := by
  unfold PrintStyle.separator
  rw [h.indent]
  exact .cons (by decide) h.afterComma

end PrintStyle

namespace Json

variable {style : PrintStyle}

mutual

theorem unbroken_printAt (h : style.IsFlat) (level : Nat) (v : Json) : Unbroken (printAt style level v) := by
  cases v with
  | null =>
    rw [printAt]
    decide
  | bool b =>
    cases b with
    | false =>
      rw [printAt]
      decide
    | true =>
      rw [printAt]
      decide
  | int n =>
    rw [printAt]
    exact unbroken_intDigits n
  | float x =>
    rw [printAt]
    exact x.unbroken_text h.nanText h.infinityText
  | str s =>
    rw [printAt]
    exact style.unbroken_quote s
  | arr items =>
    cases items with
    | nil =>
      rw [printAt]
      decide
    | cons x xs =>
      rw [printAt]
      exact .cons (by decide) (((((h.lineBreak _).append (unbroken_printAt h _ x)).append
        (unbroken_printItems h _ xs)).append (h.lineBreak _)).append (by decide))
  | obj members =>
    cases members with
    | nil =>
      rw [printAt]
      decide
    | cons m ms =>
      obtain ⟨k, x⟩ := m
      have hmember := unbroken_printAt h (level + 1) x
      have hmore := unbroken_printMembers h (level + 1) ms
      rw [printAt]
      simp only [Unbroken.append_iff, Unbroken.cons_iff]
      have hbreak := h.lineBreak (level + 1)
      have hend := h.lineBreak level
      exact ⟨by decide, ⟨⟨⟨⟨⟨hbreak, style.unbroken_quote k⟩, by decide, h.afterColon⟩, hmember⟩, hmore⟩, hend⟩,
        by decide, .nil⟩

theorem unbroken_printItems (h : style.IsFlat) (level : Nat) (items : List Json) :
    Unbroken (printItems style level items) := by
  cases items with
  | nil =>
    rw [printItems]
    exact .nil
  | cons x xs =>
    rw [printItems]
    exact ((h.separator level).append (unbroken_printAt h level x)).append (unbroken_printItems h level xs)

theorem unbroken_printMembers (h : style.IsFlat) (level : Nat) (members : List (String × Json)) :
    Unbroken (printMembers style level members) := by
  cases members with
  | nil =>
    rw [printMembers]
    exact .nil
  | cons m ms =>
    obtain ⟨k, x⟩ := m
    have hmember := unbroken_printAt h level x
    have hmore := unbroken_printMembers h level ms
    rw [printMembers]
    simp only [Unbroken.append_iff, Unbroken.cons_iff]
    exact ⟨⟨⟨⟨h.separator level, style.unbroken_quote k⟩, by decide, h.afterColon⟩, hmember⟩, hmore⟩

end

/-- **A value printed on one line has no line end in it**, however deep it is nested. -/
theorem unbroken_print (h : style.IsFlat) (v : Json) : Unbroken (v.print style) := unbroken_printAt h 0 v

end Json

end EditorServices
