import EditorServices.Highlight.Tokenizer

/-!
# `Proofs.Highlight.Tokenizing` — what was noted makes no difference

A tokenizer notes the styles that it looked up, so that two tokenizers of one lexer and one theme differ
as soon as they have seen different lines. As long as every note is what the theme says, they still make
the same spans of every line.

## Contents
- **Meaning.** `Tokenizer.meaning` and `Tokenizer.answer`: what a lexer and a theme make of a line, with
  no notes at all.
- **Honest notes.** `Tokenizer.Honest`, and `StandsFor`, an honest tokenizer of the same lexer and theme.
- **Steps.** Each step of a tokenizer yields what is meant and gives a tokenizer that stands for the same.
-/

namespace EditorServices.Highlight

/-! ## Meaning -/

namespace Theme

/-- The span of a token in a theme. -/
def tokenSpan (theme : Theme) (token : Token) : Span :=
  .node (String.ofList token.text) (some token.scope.text) (theme.styleText? token.scope) []

/-- The span of a line of tokens in a theme. -/
def lineSpan (theme : Theme) (tokens : List Token) : Span :=
  .node "" none none ((tokens.filter fun token => !token.text.isEmpty).map theme.tokenSpan)

end Theme

namespace Tokenizer

/-- What a lexer and a theme make of a line. -/
def meaning (t : Tokenizer) (line : String) : Except Failure Span :=
  match t.lexer.tokens? line.toList with
  | .ok tokens => .ok (t.theme.lineSpan tokens)
  | .error reason => .error (.tokenize (t.refusal reason))

/-- What is shown for a line: nothing for the empty line, a run without style for one that the lexer
refuses. -/
def answer (t : Tokenizer) (line : String) : Option Span :=
  if line.isEmpty then none
  else match t.meaning line with
    | .ok s => some s
    | .error _ => some (.plain line)

/-! ## Honest notes -/

/-- Every style that was noted is what the theme says. -/
def Honest (t : Tokenizer) : Prop := ∀ p ∈ t.styles, p.2 = t.theme.styleText? p.1

/-- An honest tokenizer of the same lexer and theme as another one. -/
structure StandsFor (t u : Tokenizer) : Prop where
  lexer : t.lexer = u.lexer
  theme : t.theme = u.theme
  honest : t.Honest

/-- A new tokenizer has no notes. -/
theorem standsFor_new (stock : Stock) (language theme : String) :
    (new stock language theme).1.StandsFor (new stock language theme).1 := by
  refine ⟨rfl, rfl, ?_⟩
  intro p hp
  exact absurd hp List.not_mem_nil

/-- What is found among honest notes is what the theme says. -/
theorem Honest.of_lookup {t : Tokenizer} (h : t.Honest) {s : Scope} {style : Option String}
    (hs : t.styles.lookup s = some style) : style = t.theme.styleText? s := by
  obtain ⟨before, more, heq, -⟩ := List.lookup_eq_some_iff.mp hs
  have hmem : (s, style) ∈ t.styles := by
    rw [heq]
    exact List.mem_append_right before List.mem_cons_self
  exact h (s, style) hmem

/-! ## Steps -/

variable {t u : Tokenizer}

/-- The style of a scope is the theme's, whether it was noted or not. -/
theorem StandsFor.styleOf_fst (h : t.StandsFor u) (s : Scope) :
    (t.styleOf s).1 = u.theme.styleText? s := by
  unfold styleOf
  rw [← h.theme]
  cases hs : t.styles.lookup s with
  | some style => exact h.honest.of_lookup hs
  | none => rfl

theorem StandsFor.styleOf_snd (h : t.StandsFor u) (s : Scope) : (t.styleOf s).2.StandsFor u := by
  unfold styleOf
  cases t.styles.lookup s with
  | some style => exact h
  | none =>
    -- the new note is what the theme said just now
    refine ⟨h.lexer, h.theme, ?_⟩
    intro p hp
    rcases List.mem_cons.mp hp with rfl | hp
    · rfl
    · exact h.honest p hp

theorem StandsFor.tokenSpan_fst (h : t.StandsFor u) (token : Token) :
    (t.tokenSpan token).1 = u.theme.tokenSpan token := by
  show Span.node _ _ (t.styleOf token.scope).1 [] = _
  rw [h.styleOf_fst]
  rfl

theorem StandsFor.tokenSpan_snd (h : t.StandsFor u) (token : Token) :
    (t.tokenSpan token).2.StandsFor u := h.styleOf_snd token.scope

/-- The spans of tokens, one after the other: the induction is on the tokens, and what is noted for one
is there for the next. -/
theorem StandsFor.tokenSpans (h : t.StandsFor u) (tokens : List Token) :
    (t.tokenSpans tokens).1 = tokens.map u.theme.tokenSpan ∧ (t.tokenSpans tokens).2.StandsFor u := by
  induction tokens generalizing t with
  | nil => exact ⟨rfl, h⟩
  | cons token rest ih =>
    obtain ⟨hspans, hstands⟩ := ih (h.tokenSpan_snd token)
    refine ⟨?_, hstands⟩
    show (t.tokenSpan token).1 :: ((t.tokenSpan token).2.tokenSpans rest).1 = _
    rw [hspans, h.tokenSpan_fst]
    rfl

theorem StandsFor.lineSpan (h : t.StandsFor u) (tokens : List Token) :
    (t.lineSpan tokens).1 = u.theme.lineSpan tokens ∧ (t.lineSpan tokens).2.StandsFor u := by
  obtain ⟨hspans, hstands⟩ := h.tokenSpans (tokens.filter fun token => !token.text.isEmpty)
  refine ⟨?_, hstands⟩
  show Span.node "" none none (t.tokenSpans _).1 = _
  rw [hspans]
  rfl

/-- **A line is highlighted as its lexer and theme say, whatever was noted.** -/
theorem StandsFor.highlight_fst (h : t.StandsFor u) (line : String) :
    (t.highlight line).1 = u.meaning line := by
  unfold highlight meaning
  rw [h.lexer]
  cases u.lexer.tokens? line.toList with
  | ok tokens =>
    show Except.ok (t.lineSpan tokens).1 = _
    rw [(h.lineSpan tokens).1]
  | error reason =>
    show Except.error (Failure.tokenize (t.refusal reason)) = _
    rw [refusal, h.lexer]
    rfl

theorem StandsFor.highlight_snd (h : t.StandsFor u) (line : String) :
    (t.highlight line).2.StandsFor u := by
  unfold highlight
  cases t.lexer.tokens? line.toList with
  | ok tokens => exact (h.lineSpan tokens).2
  | error reason => exact h

/-- **A line is shown as its lexer and theme say, whatever was noted.** -/
theorem StandsFor.spanOf_fst (h : t.StandsFor u) (line : String) : (t.spanOf line).1 = u.answer line := by
  unfold spanOf answer
  rw [← h.highlight_fst line]
  by_cases he : line.isEmpty = true
  · rw [if_pos he, if_pos he]
  · rw [if_neg he, if_neg he]
    generalize t.highlight line = x
    obtain ⟨result, t'⟩ := x
    cases result <;> rfl

theorem StandsFor.spanOf_snd (h : t.StandsFor u) (line : String) : (t.spanOf line).2.StandsFor u := by
  unfold spanOf
  have ht := h.highlight_snd line
  by_cases he : line.isEmpty = true
  · rw [if_pos he]
    exact h
  · rw [if_neg he]
    revert ht
    generalize t.highlight line = x
    obtain ⟨result, t'⟩ := x
    intro ht
    cases result <;> exact ht

end Tokenizer

end EditorServices.Highlight
