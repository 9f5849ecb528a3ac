import EditorServices.Proofs.Highlight.Transparency

/-!
# `Proofs.Highlight.Coverage` — the text that a highlighted line covers

The lexers for plain text and for JSON cut whatever they are given without loss, malformed JSON too, and a
span drops only tokens without text. Yet a line is prepared before it is cut, and that is where text goes:
a mark of byte order at its start is dropped, and a carriage return, such as the one that is left when a
document with two-character line ends is split at its line feeds, is read as a line feed.

## Contents
- **Preparing.** `Lexer.prepare_eq_self_iff`: the lines that are cut as they are.
- **Cutting.** `Lexer.Covering`, the lexers that take every text and cover it; plain text and JSON.
- **Spans.** `Span.Covers`, and the span of covering tokens.
- **Lines.** `line_covered`: what a highlighted line covers, whether a tokenizer or a cache made it, and
  exactly which lines are covered as they are.
-/

namespace EditorServices.Highlight

/-! ## Preparing -/

namespace Lexer

/-- **A text is cut as it is exactly if it does not start with a mark of byte order and has no carriage
return.** -/
theorem prepare_eq_self_iff {text : List Char} :
    prepare text = text ↔ text.head? ≠ some '\uFEFF' ∧ '\r' ∉ text := by
  unfold prepare
  split
  · next r =>
    -- the mark is gone, and no line end makes up for it
    refine ⟨fun h => ?_, fun h => absurd rfl h.1⟩
    have hlength := length_universalNewlines_le r
    rw [h, List.length_cons] at hlength
    omega
  · next hmark =>
    rw [universalNewlines_eq_self_iff]
    refine ⟨fun h => ⟨fun hhead => ?_, h⟩, And.right⟩
    obtain ⟨r, hr⟩ := List.head?_eq_some_iff.mp hhead
    exact hmark r hr

/-! ## Cutting -/

/-- A lexer that cuts every text, and whose tokens make up the text. -/
def Covering (l : Lexer) : Prop := ∀ text, ∃ tokens, l.cut text = .ok tokens ∧ Token.covered tokens = text

theorem covering_unstructured (name : String) : (unstructured name).Covering :=
  fun text => ⟨cutPlain text, rfl, covered_cutPlain text⟩

theorem covering_json : json.Covering := fun text =>
  ⟨_, rfl, (JsonRuns.covered_labelled _).trans (JsonRuns.flatMap_text_runs text)⟩

end Lexer

/-! ## Spans -/

/-- A span as a line has it: a root without text whose children all have text and cover the line. -/
structure Span.Covers (span : Span) (text : List Char) : Prop where
  root : span.text = ""
  children : ∀ child ∈ span.children, child.text ≠ ""
  covered : span.plainText = text

namespace Theme

variable (theme : Theme)

/-- The span of a token covers the token. -/
theorem plainText_tokenSpan (token : Token) : (theme.tokenSpan token).plainText = token.text := by
  show (String.ofList token.text).toList ++ [] = token.text
  rw [List.append_nil, String.toList_ofList]

theorem plainTexts_tokenSpans (tokens : List Token) :
    Span.plainTexts (tokens.map theme.tokenSpan) = Token.covered tokens := by
  induction tokens with
  | nil => rfl
  | cons token rest ih =>
    show (theme.tokenSpan token).plainText ++ Span.plainTexts (rest.map theme.tokenSpan) = _
    rw [theme.plainText_tokenSpan, ih]
    rfl

/-- Tokens without text cover nothing. -/
theorem covered_filter (tokens : List Token) :
    Token.covered (tokens.filter fun token => !token.text.isEmpty) = Token.covered tokens := by
  induction tokens with
  | nil => rfl
  | cons token rest ih =>
    cases he : token.text with
    | nil =>
      rw [List.filter_cons_of_neg (by simp [he]), ih]
      show _ = token.text ++ Token.covered rest
      rw [he, List.nil_append]
    | cons c r =>
      rw [List.filter_cons_of_pos (by simp [he])]
      show token.text ++ Token.covered (rest.filter _) = token.text ++ Token.covered rest
      rw [ih]

/-- **The span of a line covers what the line's tokens cover**, and no child of it is empty. -/
theorem lineSpan_covers (tokens : List Token) : (theme.lineSpan tokens).Covers (Token.covered tokens) := by
  refine ⟨rfl, ?_, ?_⟩
  · intro child hchild
    obtain ⟨token, htoken, rfl⟩ := List.mem_map.mp hchild
    have hne : token.text ≠ [] := by simpa using (List.mem_filter.mp htoken).2
    show String.ofList token.text ≠ ""
    exact fun h => hne (String.ofList_injective h)
  · show Span.plainTexts _ = _
    rw [theme.plainTexts_tokenSpans, covered_filter]

end Theme

/-! ## Lines -/

namespace Tokenizer

/-- The tokenizer after it highlighted some lines. -/
def afterLines (t : Tokenizer) (lines : List String) : Tokenizer :=
  lines.foldl (fun t line => (t.highlight line).2) t

theorem StandsFor.afterLines {t u : Tokenizer} (h : t.StandsFor u) (lines : List String) :
    (t.afterLines lines).StandsFor u := by
  induction lines generalizing t with
  | nil => exact h
  | cons line rest ih => exact ih (h.highlight_snd line)

/-- A line means a span that covers the line as it is prepared. -/
theorem meaning_covers {t : Tokenizer} (h : t.lexer.Covering) (line : String) :
    ∃ span, t.meaning line = .ok span ∧ span.Covers (Lexer.prepare line.toList) := by
  obtain ⟨tokens, hcut, hcovered⟩ := h (Lexer.prepare line.toList)
  refine ⟨t.theme.lineSpan tokens, ?_, ?_⟩
  · unfold meaning Lexer.tokens?
    rw [hcut]
  · rw [← hcovered]
    exact t.theme.lineSpan_covers tokens

/-- What is shown for a line that has text is what it means. -/
theorem answer_of_meaning {t : Tokenizer} {line : String} {span : Span} (hline : line ≠ "")
    (h : t.meaning line = .ok span) : t.answer line = some span := by
  unfold answer
  rw [if_neg (by simpa [String.isEmpty_iff] using hline), h]

end Tokenizer

/-- **What a highlighted line covers.** With the lexer for plain text or for JSON, whatever the theme and
whatever was highlighted before, a tokenizer makes a span of every line that has text; a cache shows the same
span after every course of actions, whether it has it or makes it. The root has no text of its own and every
child has some. The span covers the line as it is prepared; it covers the line itself exactly if the line
does not start with a mark of byte order and has no carriage return. -/
theorem line_covered (stock : Stock) (language : String) (config : HighlightConfig) (threshold : Numeral)
    (given : Option WorkerOrigin) (listener : Listener) (holds : Bool) (before : List String)
    (actions : List Action) (i : Int) (line : String)
    (hlexer : (Tokenizer.new stock language config.theme).1.lexer = .plain ∨
      (Tokenizer.new stock language config.theme).1.lexer = .json)
    (hline : line ≠ "") :
    let tokenizer := (Tokenizer.new stock language config.theme).1.afterLines before
    let h := (Highlighter.new stock language config threshold given listener holds).1.after actions
    ∃ span, (tokenizer.highlight line).1 = .ok span ∧ (h.cache.line i line).1 = some span ∧
      span.text = "" ∧ (∀ child ∈ span.children, child.text ≠ "") ∧
      span.plainText = Lexer.prepare line.toList ∧
      (span.plainText = line.toList ↔ line.toList.head? ≠ some '\uFEFF' ∧ '\r' ∉ line.toList) := by
  intro tokenizer h
  let s : Setting := ⟨stock, language, config.theme⟩
  have hcovering : s.tokenizer.lexer.Covering := by
    rcases hlexer with hplain | hjson
    · show (Tokenizer.new stock language config.theme).1.lexer.Covering
      rw [hplain]
      exact Lexer.covering_unstructured _
    · show (Tokenizer.new stock language config.theme).1.lexer.Covering
      rw [hjson]
      exact Lexer.covering_json
  obtain ⟨span, hmeaning, hspan⟩ := Tokenizer.meaning_covers hcovering line
  have hmade : tokenizer.StandsFor s.tokenizer :=
    (Tokenizer.standsFor_new stock language config.theme).afterLines before
  have hshown : h.Sound s :=
    (Highlighter.sound_new s config.worker config.batchThreshold threshold given listener holds).after actions
  refine ⟨span, (hmade.highlight_fst line).trans hmeaning, ?_, hspan.root, hspan.children, hspan.covered, ?_⟩
  · exact (hshown.cache.line i line).1.trans (Tokenizer.answer_of_meaning hline hmeaning)
  · rw [hspan.covered]
    exact Lexer.prepare_eq_self_iff

/-- Malformed JSON is covered as it is, by a cache that showed another text of the line before. -/
theorem unclosed_name_covered :
    let h := (Highlighter.new LexerEntry.standard "json" ⟨"native", 1, .thread⟩ (.whole 1) none .absent
      true).1.after [.look 0 "\x7b", .invalidateLines [0]]
    (Tokenizer.new LexerEntry.standard "json" "native").1.lexer = .json ∧ "\x7b\"a: \t" ≠ "" ∧
      ∃ span, (h.cache.line 0 "\x7b\"a: \t").1 = some span ∧ span.plainText = "\x7b\"a: \t".toList := by
  intro h
  have hlexer : (Tokenizer.new LexerEntry.standard "json" "native").1.lexer = .json := rfl
  have hline : "\x7b\"a: \t" ≠ "" := by decide
  obtain ⟨span, -, hshown, -, -, -, hcovered⟩ := line_covered LexerEntry.standard "json"
    ⟨"native", 1, .thread⟩ (.whole 1) none .absent true [] [.look 0 "\x7b", .invalidateLines [0]] 0
    "\x7b\"a: \t" (.inr hlexer) hline
  exact ⟨hlexer, hline, span, hshown, hcovered.mpr (by decide)⟩

/-- A carriage return inside a line is shown as a line feed. -/
theorem carriage_return_lost :
    ∃ span, ((Tokenizer.new LexerEntry.standard "plaintext" "monokai").1.highlight "a\rb").1 = .ok span ∧
      span.plainText = "a\nb".toList ∧ span.plainText ≠ "a\rb".toList :=
  ⟨.node "" none none [.node "a\nb" (some "Token.Text") (some "#f8f8f2") []], by rfl, by decide, by decide⟩

end EditorServices.Highlight
