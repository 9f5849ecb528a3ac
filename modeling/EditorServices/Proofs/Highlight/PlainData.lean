import EditorServices.Highlight.Worker
import EditorServices.Proofs.Highlight.Tokenizing

/-!
# `Proofs.Highlight.PlainData` — spans that come back from a worker

A worker gives spans as plain data, which is checked when it is taken in. A span that is not nested too
deep comes back as it was, and the spans of lines are nested no deeper than two, so a worker's spans are
always taken in, and are those that the cache would have made itself.

## Contents
- **Round trip.** `Span.depth`, and `Span.check_toJson`.
- **Lines.** `StandsFor.readSpans_plainSpans`: what is read of the plain data of lines.
- **Kept tokenizers.** `KeptTokenizers.Honest`, and `Worker.Honest.readSpans_work`: which tokenizers a
  worker has kept makes no difference.
-/

namespace EditorServices.Highlight

open Schema

/-! ## Round trip -/

namespace Span

mutual

/-- How deep a span is nested; one for a span without children. -/
def depth : Span → Nat
  | .node _ _ _ cs => depths cs + 1

/-- The depth of the deepest of some spans. -/
def depths : List Span → Nat
  | [] => 0
  | c :: cs => max (depth c) (depths cs)

end

/-- A text that may be missing is read as it was written. -/
theorem nullable_ofText (s : Option String) : nullable string (.ofText? s) = .valid s := by
  cases s <;> rfl

mutual

/-- A span is read as it was written. The induction is on the span; the depth that is allowed falls by
one at each level. -/
theorem checkWithin_toJson (s : Span) (d : Nat) (h : s.depth ≤ d) : checkWithin d s.toJson = .valid s := by
  obtain ⟨text, scope, style, cs⟩ := s
  rw [depth] at h
  obtain ⟨d, rfl⟩ := Nat.exists_eq_add_of_le' (Nat.le_of_add_left_le h)
  have hcs : checkItems d 0 (toJsons cs) = .valid cs := checkItems_toJsons cs d 0 (by omega)
  rw [toJson, checkWithin]
  have htext : optional [("text", .str text), ("scope", .ofText? scope), ("style", .ofText? style),
      ("children", .arr (toJsons cs))] (.plain "text") "" string = .valid text := rfl
  have hscope : optional [("text", .str text), ("scope", .ofText? scope), ("style", .ofText? style),
      ("children", .arr (toJsons cs))] (.plain "scope") none (nullable string) = .valid scope := by
    show (nullable string (.ofText? scope)).under _ = _
    rw [nullable_ofText]
    rfl
  have hstyle : optional [("text", .str text), ("scope", .ofText? scope), ("style", .ofText? style),
      ("children", .arr (toJsons cs))] (.plain "style") none (nullable string) = .valid style := by
    show (nullable string (.ofText? style)).under _ = _
    rw [nullable_ofText]
    rfl
  have hchildren : checkChildren d [("text", .str text), ("scope", .ofText? scope),
      ("style", .ofText? style), ("children", .arr (toJsons cs))] = .valid cs := by
    simp [checkChildren, hcs, Checked.under]
  rw [htext, hscope, hstyle, hchildren]
  rfl

theorem checkItems_toJsons (cs : List Span) (d n : Nat) (h : depths cs ≤ d) :
    checkItems d n (toJsons cs) = .valid cs := by
  match cs with
  | [] => rw [toJsons, checkItems]
  | c :: cs =>
    rw [depths] at h
    rw [toJsons, checkItems, checkWithin_toJson c d (by omega), checkItems_toJsons cs d (n + 1) (by omega)]
    rfl

end

/-- **A span that is not nested too deep is read as it was written.** -/
theorem check_toJson {s : Span} (h : s.depth ≤ maxDepth) : check s.toJson = .valid s :=
  checkWithin_toJson s maxDepth h

/-- The depth of some spans is bounded by any bound of the depth of each. -/
theorem depths_le {cs : List Span} {n : Nat} (h : ∀ c ∈ cs, c.depth ≤ n) : depths cs ≤ n := by
  induction cs with
  | nil => exact Nat.zero_le n
  | cons c cs ih =>
    rw [depths]
    exact Nat.max_le.mpr ⟨h c List.mem_cons_self, ih fun c' hc' => h c' (List.mem_cons_of_mem c hc')⟩

end Span

/-! ## Lines -/

namespace Tokenizer

variable {t u : Tokenizer}

/-- The span of a line is nested no deeper than two: a root with its tokens. -/
theorem depth_of_meaning {line : String} {s : Span} (h : u.meaning line = .ok s) : s.depth ≤ 2 := by
  unfold meaning at h
  cases htokens : u.lexer.tokens? line.toList with
  | error reason =>
    rw [htokens] at h
    cases h
  | ok tokens =>
    rw [htokens] at h
    cases h
    rw [Theme.lineSpan, Span.depth]
    refine Nat.succ_le_succ (Span.depths_le ?_)
    intro c hc
    obtain ⟨token, -, rfl⟩ := List.mem_map.mp hc
    exact Nat.le_refl 1

theorem depth_of_answer {line : String} {s : Span} (h : u.answer line = some s) : s.depth ≤ 2 := by
  unfold answer at h
  by_cases he : line.isEmpty = true
  · rw [if_pos he] at h
    cases h
  · rw [if_neg he] at h
    cases hm : u.meaning line with
    | ok s' =>
      rw [hm] at h
      cases h
      exact depth_of_meaning hm
    | error f =>
      rw [hm] at h
      cases h
      exact Nat.le_succ 1

/-- What is shown for lines, under their indices. -/
def answers (t : Tokenizer) (lines : Lines String) : Lines (Option Span) :=
  lines.map fun p => (p.1, t.answer p.2)

end Tokenizer

/-- A span that may be missing is taken in as it was given. -/
theorem readSpan_of_depth {span : Option Span} (h : ∀ s, span = some s → s.depth ≤ Span.maxDepth) :
    readSpan ((span.map Span.toJson).getD .null) = .ok span := by
  cases span with
  | none => rfl
  | some s =>
    have hread : readSpan s.toJson = ((Span.check s.toJson).outcome "Span").map some := by
      cases s
      rfl
    show readSpan s.toJson = _
    rw [hread, Span.check_toJson (h s rfl)]
    rfl

namespace Tokenizer

variable {t u : Tokenizer}

theorem StandsFor.plainSpan_snd (h : t.StandsFor u) (line : String) :
    (t.plainSpan line).2.StandsFor u := h.spanOf_snd line

/-- A line's plain data is read as what is shown for the line. -/
theorem StandsFor.readSpan_plainSpan (h : t.StandsFor u) (line : String) :
    readSpan (t.plainSpan line).1 = .ok (u.answer line) := by
  show readSpan (((t.spanOf line).1.map Span.toJson).getD .null) = _
  rw [h.spanOf_fst]
  exact readSpan_of_depth fun s hs => Nat.le_trans (depth_of_answer hs) (by decide)

/-- **The plain data of lines is read as what is shown for them.** -/
theorem StandsFor.readSpans_plainSpans (h : t.StandsFor u) (lines : Lines String) :
    readSpans (t.plainSpans lines).1 = .ok (u.answers lines) ∧ (t.plainSpans lines).2.StandsFor u := by
  induction lines generalizing t with
  | nil => exact ⟨rfl, h⟩
  | cons p rest ih =>
    obtain ⟨i, line⟩ := p
    obtain ⟨hread, hstands⟩ := ih (h.plainSpan_snd line)
    refine ⟨?_, hstands⟩
    show readSpans ((i, (t.plainSpan line).1) :: ((t.plainSpan line).2.plainSpans rest).1) = _
    rw [readSpans, h.readSpan_plainSpan, hread]
    rfl

end Tokenizer

/-! ## Kept tokenizers -/

namespace KeptTokenizers

variable {stock : Stock} {kept : KeptTokenizers}

/-- Each tokenizer stands for a new one of the names it is kept under. -/
def Honest (stock : Stock) (kept : KeptTokenizers) : Prop :=
  ∀ p ∈ kept, p.2.StandsFor (Tokenizer.new stock p.1.1 p.1.2).1

/-- The tokenizer that is used stands for a new one, whether it was kept or is new. -/
theorem Honest.pick (h : kept.Honest stock) (language theme : String) :
    (kept.pick stock language theme).StandsFor (Tokenizer.new stock language theme).1 := by
  unfold KeptTokenizers.pick
  cases hk : kept.lookup (language, theme) with
  | none => exact Tokenizer.standsFor_new stock language theme
  | some t =>
    obtain ⟨before, more, heq, -⟩ := List.lookup_eq_some_iff.mp hk
    have hmem : ((language, theme), t) ∈ kept := by
      rw [heq]
      exact List.mem_append_right before List.mem_cons_self
    exact h _ hmem

theorem Honest.keep (h : kept.Honest stock) {language theme : String} {t : Tokenizer}
    (ht : t.StandsFor (Tokenizer.new stock language theme).1) :
    (kept.keep language theme t).Honest stock := by
  intro p hp
  rcases List.mem_cons.mp (List.mem_of_mem_take hp) with rfl | hp
  · exact ht
  · exact h p (List.mem_filter.mp hp).1

end KeptTokenizers

namespace Worker

variable {stock : Stock} {w : Worker}

/-- A worker whose kept tokenizers are honest. -/
def Honest (stock : Stock) (w : Worker) : Prop := w.kept.Honest stock

theorem honest_new (stock : Stock) (origin : WorkerOrigin) : (new origin).Honest stock := by
  intro p hp
  exact absurd hp List.not_mem_nil

/-- **What a worker gives for lines is read as what a new tokenizer shows for them.** -/
theorem Honest.readSpans_work (h : w.Honest stock) (language theme : String) (lines : Lines String) :
    readSpans (w.work stock language theme lines).1 =
      .ok ((Tokenizer.new stock language theme).1.answers lines) :=
  ((KeptTokenizers.Honest.pick h language theme).readSpans_plainSpans lines).1

theorem Honest.work (h : w.Honest stock) (language theme : String) (lines : Lines String) :
    (w.work stock language theme lines).2.Honest stock :=
  KeptTokenizers.Honest.keep h ((KeptTokenizers.Honest.pick h language theme).readSpans_plainSpans lines).2

end Worker

end EditorServices.Highlight
