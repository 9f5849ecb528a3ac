import EditorServices.Proofs.Json.CommentedTokens
import Mathlib.Data.List.Chain

/-!
# `Proofs.Json.CommentedLayout` — tokens with blanks and comments between them

A text that is cut into tokens is those tokens in a row, as they are written, with a gap before each of them:
blanks and comments. The converse needs a reason why the lexer stops where a token ends. Strings have an end of
their own. Numbers and words do not; but after one of them the grammar allows only a comma or a closing token,
which cannot be taken for a part of it, and neither can what a gap starts with.

## Contents
- **Gaps.** `Gap`, which is skipped, and `exists_skipped`.
- **Rows.** `Apart`, which rows of tokens that the machine takes are.
- **Layouts.** `Laid`; `CutsInto.laid` and `Laid.cutsInto`.
- **Parts of layouts.** `Leads`, put together from gaps and tokens.
-/

namespace EditorServices.Commented

/-! ## Gaps -/

/-- What a comment starts with. -/
def commentMarks : List (List Char) := [['#'], ['/', '/']]

/-- Blanks and comments, each comment with the line feed that ends it. -/
inductive Gap : List Char → Prop
  | nil : Gap []
  | blank {c : Char} {g : List Char} (skipped : isSkipped c = true) (more : Gap g) : Gap (c :: g)
  | comment {mark body g : List Char} (marks : mark ∈ commentMarks) (line : '\n' ∉ body) (more : Gap g) :
      Gap (mark ++ (body ++ '\n' :: g))

theorem Gap.append {g g' : List Char} (h : Gap g) (h' : Gap g') : Gap (g ++ g') := by
  induction h with
  | nil => exact h'
  | blank skipped _ ih => exact .blank skipped ih
  | comment marks line _ ih =>
    rw [List.append_assoc, List.append_assoc]
    exact .comment marks line ih

theorem gap_of_blanks {g : List Char} (h : ∀ c ∈ g, isSkipped c = true) : Gap g := by
  induction g with
  | nil => exact .nil
  | cons c g ih => exact .blank (h c List.mem_cons_self) (ih fun d hd => h d (List.mem_cons_of_mem c hd))

theorem skipIgnored_blank {c : Char} (h : isSkipped c = true) (r : List Char) :
    skipIgnored false (c :: r) = skipIgnored false r := by
  rw [skipIgnored, if_pos h]

theorem skipIgnored_mark {mark : List Char} (h : mark ∈ commentMarks) (r : List Char) :
    skipIgnored false (mark ++ r) = skipIgnored true r := by
  simp only [commentMarks, List.mem_cons, List.not_mem_nil, or_false] at h
  rcases h with rfl | rfl <;> rfl

theorem skipIgnored_comment {body : List Char} (h : '\n' ∉ body) (r : List Char) :
    skipIgnored true (body ++ '\n' :: r) = skipIgnored false r := by
  induction body with
  | nil => rw [List.nil_append, skipIgnored, if_pos rfl]
  | cons c body ih =>
    have hc : c ≠ '\n' := fun heq => h (heq ▸ List.mem_cons_self)
    rw [List.cons_append, skipIgnored, if_neg hc]
    exact ih (List.not_mem_of_not_mem_cons h)

/-- A gap is skipped. -/
theorem Gap.skipIgnored_append {g : List Char} (h : Gap g) (s : List Char) :
    skipIgnored false (g ++ s) = skipIgnored false s := by
  induction h with
  | nil => rfl
  | blank skipped _ ih => rw [List.cons_append, skipIgnored_blank skipped, ih]
  | comment marks line _ ih =>
    rw [List.append_assoc, skipIgnored_mark marks, List.append_assoc, List.cons_append,
      skipIgnored_comment line, ih]

/-- What starts neither a blank nor a comment. -/
theorem skipIgnored_stop {c : Char} {r : List Char} (hblank : isSkipped c = false) (hhash : c ≠ '#')
    (hsolidus : c ≠ '/') : skipIgnored false (c :: r) = c :: r := by
  rw [skipIgnored, hblank, if_neg (by decide), if_neg hhash, if_neg fun h => hsolidus h.1]

/-- What is skipped before a token: a gap, and in a comment first the rest of its line. -/
def Skipped : Bool → List Char → Prop
  | false, g => Gap g
  | true, g => ∃ body more, '\n' ∉ body ∧ Gap more ∧ g = body ++ '\n' :: more

/-- After two solidi there is the rest of a comment, of which the first character is the second of them. -/
theorem gap_of_solidi {g rest : List Char} (h : Skipped true g) (hhead : (g ++ rest).head? = some '/') :
    Gap ('/' :: g) := by
  obtain ⟨body, more, hbody, hmore, rfl⟩ := h
  cases body with
  | nil => cases hhead
  | cons c body =>
    cases hhead
    exact .comment (show ['/', '/'] ∈ commentMarks by decide) (List.not_mem_of_not_mem_cons hbody) hmore

/-- **What is skipped before a token is a gap.** -/
theorem exists_skipped (inComment : Bool) (s : List Char) (h : skipIgnored inComment s ≠ []) :
    ∃ g, Skipped inComment g ∧ s = g ++ skipIgnored inComment s := by
  fun_induction skipIgnored inComment s with
  | case1 => exact absurd rfl h
  | case2 r ih =>
    obtain ⟨g, hg, hr⟩ := ih h
    exact ⟨'\n' :: g, ⟨[], g, List.not_mem_nil, hg, rfl⟩, congrArg ('\n' :: ·) hr⟩
  | case3 c r hc ih =>
    obtain ⟨_, ⟨body, more, hbody, hmore, rfl⟩, hr⟩ := ih h
    exact ⟨c :: (body ++ '\n' :: more), ⟨c :: body, more,
      List.not_mem_cons_of_ne_of_not_mem (fun heq => hc heq.symm) hbody, hmore, rfl⟩, congrArg (c :: ·) hr⟩
  | case4 c r hblank ih =>
    obtain ⟨g, hg, hr⟩ := ih h
    exact ⟨c :: g, .blank hblank hg, congrArg (c :: ·) hr⟩
  | case5 r _ ih =>
    obtain ⟨_, ⟨body, more, hbody, hmore, rfl⟩, hr⟩ := ih h
    exact ⟨'#' :: (body ++ '\n' :: more), .comment (show ['#'] ∈ commentMarks by decide) hbody hmore,
      congrArg ('#' :: ·) hr⟩
  | case6 c r _ _ hsolidi ih =>
    obtain ⟨g, hg, hr⟩ := ih h
    obtain ⟨rfl, hhead⟩ := hsolidi
    exact ⟨'/' :: g, gap_of_solidi hg (hr ▸ hhead), congrArg ('/' :: ·) hr⟩
  | case7 c r _ _ _ => exact ⟨[], .nil, rfl⟩

/-! ## Rows -/

/-- A token that may come right after a scalar. -/
def Separates (t : Token) : Prop := t = .comma ∨ t = .closeBrace ∨ t = .closeBracket

/-- Two tokens that may come one after the other: the second one separates if the first one is a scalar. -/
def Apart (t u : Token) : Prop := (∃ s, t = .scalar s) → Separates u

section

variable {m m' : Machine} {t : Token} {ts : List Token}

theorem close_scalar (m : Machine) (s : List Char) : m.close (.scalar s) = none := by
  unfold Machine.close
  split
  · next heq => cases heq
  · next heq => cases heq
  · rfl

/-- After a scalar a value is over. -/
theorem expecting_of_step_scalar {s : List Char} (h : m.step (.scalar s) = some m') :
    m'.expecting = Machine.afterValue m'.nesting := by
  obtain ⟨expecting, nesting, kept⟩ := m
  cases expecting with
  | value =>
    cases h
    rfl
  | firstItem | nextItem =>
    unfold Machine.step at h
    simp only [close_scalar, Option.none_or, reduceCtorEq, if_false] at h
    cases h
    rfl
  | firstMember | nextMember | afterItem | afterMember | onlyEnd =>
    unfold Machine.step at h
    simp [close_scalar, Machine.takeName] at h
  | colon | nothing => cases h

/-- When a value is over, there is a comma or a closing token. -/
theorem separates_of_step (hm : m.expecting = Machine.afterValue m.nesting) (h : m.step t = some m') :
    Separates t := by
  have hclose : ∀ m', m.close t = some m' → Separates t := by
    intro m' hclose
    unfold Machine.close at hclose
    split at hclose
    · exact .inr (.inl rfl)
    · exact .inr (.inr rfl)
    · cases hclose
  have hcomma : ∀ next, (if t = .comma then some next else m.close t) = some m' → Separates t := by
    intro next hstep
    by_cases ht : t = .comma
    · exact .inl ht
    · rw [if_neg ht] at hstep
      exact hclose m' hstep
  unfold Machine.step at h
  rw [hm] at h
  cases hn : m.nesting with
  | nil =>
    rw [hn] at h
    cases h
  | cons kind outer =>
    rw [hn] at h
    cases kind <;> exact hcomma _ h

/-- **Tokens that the machine takes may come one after the other.** -/
theorem isChain_of_feed (h : m.feed ts = some m') : ts.IsChain Apart := by
  induction ts generalizing m with
  | nil => exact .nil
  | cons t rest ih =>
    obtain ⟨next, hstep, hrest⟩ := Option.bind_eq_some_iff.mp h
    cases rest with
    | nil => exact .singleton t
    | cons u rest =>
      -- only the step right after a scalar matters: it finds the machine behind a value
      refine List.isChain_cons_cons.mpr ⟨?_, ih hrest⟩
      rintro ⟨s, rfl⟩
      obtain ⟨_, hnext, -⟩ := Option.bind_eq_some_iff.mp hrest
      exact separates_of_step (expecting_of_step_scalar hstep) hnext

end

/-! ## Layouts -/

/-- Tokens as they are written, each after a gap. After the last one a comment need not have an end. -/
inductive Laid : List Token → List Char → Prop
  | nil {s : List Char} (ignored : skipIgnored false s = []) : Laid [] s
  | cons {g s : List Char} {t : Token} {ts : List Token} (gap : Gap g) (more : Laid ts s) :
      Laid (t :: ts) (g ++ (t.written ++ s))

section

variable {s last : List Char} {t : Token} {ts : List Token}

theorem isScalarChar_of_isSkipped {c : Char} (h : isSkipped c = true) : isScalarChar c = false := by
  unfold isSkipped isJsonBlank at h
  simp only [Bool.or_eq_true, beq_iff_eq, or_assoc] at h
  rcases h with rfl | rfl | rfl | rfl | h
  iterate 4 rfl
  rw [← Char.ofNat_toNat c, h]
  rfl

theorem isSkipped_of_isScalarChar {c : Char} (h : isScalarChar c = true) : isSkipped c = false :=
  Bool.eq_false_iff.mpr fun hskipped => Bool.false_ne_true ((isScalarChar_of_isSkipped hskipped).symm.trans h)

theorem isJsonBlank_of_isScalarChar {c : Char} (h : isScalarChar c = true) : isJsonBlank c = false :=
  (Bool.or_eq_false_iff.mp (isSkipped_of_isScalarChar h)).1

/-- A character of a scalar is not ignored. -/
theorem skipIgnored_of_isScalarChar {c : Char} (h : isScalarChar c = true) (r : List Char) :
    skipIgnored false (c :: r) = c :: r := by
  exact skipIgnored_stop (isSkipped_of_isScalarChar h) (ne_of_isScalarChar h rfl) (ne_of_isScalarChar h rfl)

theorem endsScalar_of_ignored (h : skipIgnored false s = []) : EndsScalar s := by
  cases s with
  | nil => exact endsScalar_nil
  | cons c r =>
    refine endsScalar_cons (Bool.eq_false_iff.mpr fun hc => ?_) r
    rw [skipIgnored_of_isScalarChar hc] at h
    cases h

/-- What a gap starts with cannot go on with a scalar. -/
theorem Gap.endsScalar_append {g : List Char} (hgap : Gap g) (hs : EndsScalar s) : EndsScalar (g ++ s) := by
  cases hgap with
  | nil => exact hs
  | blank skipped _ => exact endsScalar_cons (isScalarChar_of_isSkipped skipped) _
  | comment marks _ _ =>
    simp only [commentMarks, List.mem_cons, List.not_mem_nil, or_false] at marks
    rcases marks with rfl | rfl
    · exact endsScalar_cons rfl _
    · exact endsScalar_cons rfl _

theorem Separates.written (h : Separates t) : ∃ c, t.written = [c] ∧ isScalarChar c = false := by
  rcases h with rfl | rfl | rfl
  · exact ⟨',', rfl, rfl⟩
  · exact ⟨'}', rfl, rfl⟩
  · exact ⟨']', rfl, rfl⟩

/-- After a token there is nothing that goes on with it. -/
theorem Laid.endedBy (h : Laid ts s) (t : Token) (hchain : (t :: ts).IsChain Apart) : t.EndedBy s := by
  intro text ht
  cases h with
  | nil ignored => exact endsScalar_of_ignored ignored
  | @cons g s u ts gap more =>
    obtain ⟨c, hc, hends⟩ := ((List.isChain_cons_cons.mp hchain).1 ⟨text, ht⟩).written
    rw [hc]
    exact gap.endsScalar_append (endsScalar_cons hends s)

/-- A token that is written as one is not ignored. -/
theorem skipIgnored_written (h : t.Formed) (s : List Char) :
    skipIgnored false (t.written ++ s) = t.written ++ s := by
  cases t with
  | text l =>
    obtain ⟨body, -, rfl⟩ := h
    exact skipIgnored_stop rfl (by decide) (by decide)
  | scalar n =>
    have hn : scalarText n = some n := h
    obtain ⟨c, r, rfl⟩ := List.exists_cons_of_ne_nil (scalarText_ne_nil hn)
    exact skipIgnored_of_isScalarChar (isScalarChar_of_mem_scalarText hn c List.mem_cons_self) (r ++ s)
  | _ => exact skipIgnored_stop rfl (by decide) (by decide)

/-- **A layout is cut into its tokens.** -/
theorem Laid.cutsInto (h : Laid ts s) (hformed : ∀ t ∈ ts, t.Formed) (hchain : ts.IsChain Apart) :
    CutsInto s ts := by
  induction h with
  | nil ignored => exact ⟨_, .nil _, ignored⟩
  | @cons g s t ts gap more ih =>
    obtain ⟨last, hcut, hlast⟩ := ih (fun u hu => hformed u (List.mem_cons_of_mem t hu)) hchain.tail
    have ht := hformed t List.mem_cons_self
    refine ⟨last, .cons ?_ hcut, hlast⟩
    rw [gap.skipIgnored_append, skipIgnored_written ht, nextToken_written ht (more.endedBy t hchain)]

/-- Before a token that is found there is a gap. -/
theorem exists_gap {rest : List Char} (token : nextToken (skipIgnored false s) = some (t, rest))
    (hends : t.EndedBy rest) : ∃ g, Gap g ∧ t.Formed ∧ s = g ++ (t.written ++ rest) := by
  obtain ⟨ht, hs⟩ := formed_of_nextToken token hends
  have hne : skipIgnored false s ≠ [] := by
    intro hnil
    rw [hnil] at token
    cases token
  obtain ⟨g, hgap, hg⟩ := exists_skipped false s hne
  rw [hs] at hg
  exact ⟨g, hgap, ht, hg⟩

/-- **A text that is cut into tokens is a layout of them.** -/
theorem CutsInto.laid (h : CutsInto s ts) (hchain : ts.IsChain Apart) :
    Laid ts s ∧ ∀ t ∈ ts, t.Formed := by
  obtain ⟨last, hcut, hlast⟩ := h
  induction hcut with
  | nil s => exact ⟨.nil hlast, nofun⟩
  | @cons s rest last t ts token more ih =>
    obtain ⟨hlaid, hformed⟩ := ih hchain.tail hlast
    obtain ⟨g, hgap, ht, rfl⟩ := exists_gap token (hlaid.endedBy t hchain)
    refine ⟨.cons hgap hlaid, fun u hu => ?_⟩
    rcases List.mem_cons.mp hu with rfl | hu
    · exact ht
    · exact hformed u hu

end

/-! ## Parts of layouts -/

/-- A text is the start of a layout that starts with some tokens, whatever comes after it. -/
def Leads (ts : List Token) (s : List Char) : Prop := ∀ us r, Laid us r → Laid (ts ++ us) (s ++ r)

section

variable {g s s' : List Char} {ts ts' : List Token}

theorem Leads.append (h : Leads ts s) (h' : Leads ts' s') : Leads (ts ++ ts') (s ++ s') := by
  intro us r hr
  rw [List.append_assoc, List.append_assoc]
  exact h _ _ (h' us r hr)

theorem leads_token (t : Token) : Leads [t] t.written := fun _ _ hr => .cons .nil hr

/-- Blanks and comments may be put in anywhere between tokens. -/
theorem Gap.leads (h : Gap g) : Leads [] g := by
  intro us r hr
  cases hr with
  | nil ignored => exact .nil ((h.skipIgnored_append r).trans ignored)
  | cons gap more =>
    rw [← List.append_assoc]
    exact .cons (h.append gap) more

theorem Leads.laid (h : Leads ts s) : Laid ts s := by
  have hlaid := h [] [] (.nil rfl)
  rw [List.append_nil, List.append_nil] at hlaid
  exact hlaid

end

end EditorServices.Commented
