import EditorServices.Proofs.Json.CommentedText
import Mathlib.Data.List.Find
import Mathlib.Data.List.TakeWhile

/-!
# `Proofs.Json.CommentedTokens` — what tokens look like

A token is found where it is written, but that depends on what follows. A string has an end of its own. A
number or a word goes on as long as it can, so it is found as it stands only if the text after it cannot go on
with it. Then it is what would be found if nothing followed at all.

## Contents
- **Strings.** `Enclosed`, what may stand between quotes, and `readText_eq_some_iff`.
- **Scalars.** `scalarText`, the word or number at the start of a text; `EndsScalar`, what cannot go on with
  one.
- **Tokens.** `Token.Formed`; `nextToken_written` and `formed_of_nextToken`.
-/

namespace EditorServices.Commented

/-! ## Strings -/

/-- What may stand between the quotes of a string: no line feed, and no quote but after a backslash. -/
inductive Enclosed : List Char → Prop
  | nil : Enclosed []
  | plain {c : Char} {r : List Char} (quote : c ≠ '"') (backslash : c ≠ '\\') (line : c ≠ '\n')
      (more : Enclosed r) : Enclosed (c :: r)
  | escaped {c : Char} {r : List Char} (line : c ≠ '\n') (more : Enclosed r) : Enclosed ('\\' :: c :: r)

theorem readText_cons {escaped : Bool} {c : Char} {r : List Char} (hline : c ≠ '\n')
    (hquote : ¬ (c = '"' ∧ escaped = false)) : readText escaped (c :: r) =
      (readText (c = '\\' ∧ escaped = false) r).map fun (s, rest) => (c :: s, rest) := by
  rw [readText, if_neg hline, if_neg hquote]

theorem Enclosed.readText {body : List Char} (h : Enclosed body) (rest : List Char) :
    readText false (body ++ '"' :: rest) = some (body ++ ['"'], rest) := by
  induction h with
  | nil => rfl
  | @plain c r quote backslash line _ ih =>
    have hescape : decide (c = '\\' ∧ false = false) = false := decide_eq_false fun h => backslash h.1
    rw [List.cons_append, readText_cons line fun h => quote h.1, hescape, ih]
    rfl
  | @escaped c r line _ ih =>
    have hescape : decide (c = '\\' ∧ true = false) = false := decide_eq_false fun h => Bool.noConfusion h.2
    rw [List.cons_append, readText_cons (by decide) (by decide)]
    show (EditorServices.Commented.readText true _).map _ = _
    rw [List.cons_append, readText_cons line fun h => Bool.noConfusion h.2, hescape, ih]
    rfl

/-- What is taken for a string is enclosed; after a backslash that is so from the second character on. -/
theorem enclosed_of_readText {escaped : Bool} {s text rest : List Char}
    (h : readText escaped s = some (text, rest)) :
    ∃ first body, (if escaped then ∃ c, first = [c] ∧ c ≠ '\n' else first = []) ∧ Enclosed body ∧
      text = first ++ (body ++ ['"']) ∧ s = first ++ (body ++ '"' :: rest) := by
  -- a backslash hands the character after it on to the case of `escaped`, which puts it into `first`
  induction s generalizing escaped text with
  | nil => cases h
  | cons c r ih =>
    by_cases hline : c = '\n'
    · rw [readText, if_pos hline] at h
      cases h
    by_cases hquote : c = '"' ∧ escaped = false
    · rw [readText, if_neg hline, if_pos hquote] at h
      cases h
      rw [hquote.1, hquote.2]
      exact ⟨[], [], rfl, .nil, rfl, rfl⟩
    rw [readText_cons hline hquote] at h
    obtain ⟨⟨more, rest'⟩, hread, heq⟩ := Option.map_eq_some_iff.mp h
    cases heq
    obtain ⟨first, body, hfirst, hbody, rfl, rfl⟩ := ih hread
    cases escaped with
    | true =>
      have hnot : decide (c = '\\' ∧ true = false) = false := decide_eq_false fun h => Bool.noConfusion h.2
      rw [hnot] at hfirst
      cases hfirst
      exact ⟨[c], body, ⟨c, rfl, hline⟩, hbody, rfl, rfl⟩
    | false =>
      have hc : c ≠ '"' := fun heq => hquote ⟨heq, rfl⟩
      by_cases hbackslash : c = '\\'
      · subst hbackslash
        obtain ⟨d, rfl, hd⟩ := hfirst
        exact ⟨[], _, rfl, .escaped hd hbody, rfl, rfl⟩
      · have hnot : decide (c = '\\' ∧ false = false) = false := decide_eq_false fun h => hbackslash h.1
        rw [hnot] at hfirst
        cases hfirst
        exact ⟨[], c :: body, rfl, .plain hc hbackslash hline hbody, rfl, rfl⟩

theorem readText_eq_some_iff {s text rest : List Char} : readText false s = some (text, rest) ↔
    ∃ body, Enclosed body ∧ text = body ++ ['"'] ∧ s = body ++ '"' :: rest := by
  constructor
  · intro h
    obtain ⟨first, body, rfl, hbody, htext, hs⟩ := enclosed_of_readText h
    exact ⟨body, hbody, htext, hs⟩
  · rintro ⟨body, hbody, rfl, rfl⟩
    exact hbody.readText rest

/-! ## Scalars -/

/-- The characters of numbers and words. -/
def isScalarChar (c : Char) : Bool := isDigit c || c.isAlpha || c == '.' || c == '+' || c == '-'

theorem ne_of_isScalarChar {c d : Char} (hc : isScalarChar c = true) (hd : isScalarChar d = false) : c ≠ d :=
  fun heq => Bool.false_ne_true (hd.symm.trans (heq ▸ hc))

/-- A text cannot go on a number or a word. -/
def EndsScalar (rest : List Char) : Prop := ∀ c ∈ rest.head?, isScalarChar c = false

theorem endsScalar_nil : EndsScalar [] := nofun

theorem endsScalar_cons {c : Char} (h : isScalarChar c = false) (r : List Char) : EndsScalar (c :: r) := by
  intro d hd
  cases hd
  exact h

theorem EndsScalar.takeWhile_append {rest : List Char} (h : EndsScalar rest) {p : Char → Bool}
    (hp : ∀ c, p c = true → isScalarChar c = true) (s : List Char) :
    (s ++ rest).takeWhile p = s.takeWhile p := by
  induction s with
  | nil =>
    cases rest with
    | nil => rfl
    | cons c r =>
      have hc : p c = false := Bool.eq_false_iff.mpr fun hpc =>
        Bool.false_ne_true ((h c rfl).symm.trans (hp c hpc))
      rw [List.nil_append, List.takeWhile_cons, hc]
      rfl
  | cons c s ih => rw [List.cons_append, List.takeWhile_cons, List.takeWhile_cons, ih]

theorem isScalarChar_of_isDigit (c : Char) (h : isDigit c = true) : isScalarChar c = true := by
  unfold isScalarChar
  rw [h]
  rfl

/-! ### Parts of a number -/

/-- The sign at the start of a text. -/
def signText (s : List Char) : List Char :=
  match s with
  | '+' :: _ => ['+']
  | '-' :: _ => ['-']
  | _ => []

/-- The point at the start of a text with the digits after it. -/
def fractionText (s : List Char) : List Char :=
  match s with
  | '.' :: r => '.' :: r.takeWhile isDigit
  | _ => []

/-- The number at the start of a text in its parts. -/
theorem numberText_eq (s : List Char) : numberText s =
    let s₁ := s.drop (signText s).length
    let s₂ := s₁.drop (s₁.takeWhile isDigit).length
    if (s₁.takeWhile isDigit).isEmpty && (fractionText s₂).length < 2 then none
    else some (signText s ++ s₁.takeWhile isDigit ++ fractionText s₂ ++
      exponentText (s₂.drop (fractionText s₂).length)) := rfl

theorem signText_cons (c : Char) (r : List Char) :
    signText (c :: r) = if c = '+' ∨ c = '-' then [c] else [] := by
  unfold signText
  split
  · next heq =>
    cases heq
    rfl
  · next heq =>
    cases heq
    rfl
  · next hplus hminus =>
    have hnot : ¬ (c = '+' ∨ c = '-') := by
      rintro (rfl | rfl)
      · exact hplus r rfl
      · exact hminus r rfl
    rw [if_neg hnot]

theorem fractionText_cons (c : Char) (r : List Char) :
    fractionText (c :: r) = if c = '.' then c :: r.takeWhile isDigit else [] := by
  unfold fractionText
  split
  · next heq =>
    cases heq
    rfl
  · next hpoint => rw [if_neg fun heq : c = '.' => hpoint r (by rw [heq])]

/-- The exponent at the start of a text in its parts. -/
theorem exponentText_cons (c : Char) (r : List Char) : exponentText (c :: r) =
    if c = 'e' ∨ c = 'E' then
      if ((r.drop (signText r).length).takeWhile isDigit).isEmpty then []
      else c :: (signText r ++ (r.drop (signText r).length).takeWhile isDigit)
    else [] := rfl

/-! ### They are at the start -/

theorem signText_isPrefix (s : List Char) : signText s <+: s := by
  cases s with
  | nil => exact List.nil_prefix
  | cons c r =>
    rw [signText_cons]
    split
    · exact List.prefix_append [c] r
    · exact List.nil_prefix

theorem fractionText_isPrefix (s : List Char) : fractionText s <+: s := by
  cases s with
  | nil => exact List.nil_prefix
  | cons c r =>
    rw [fractionText_cons]
    split
    · exact (List.prefix_cons_inj c).mpr (List.takeWhile_prefix isDigit)
    · exact List.nil_prefix

/-- A part at the start, and another one at the start of what is left. -/
theorem append_isPrefix {p q s : List Char} (hp : p <+: s) (hq : q <+: s.drop p.length) : p ++ q <+: s := by
  obtain ⟨r, rfl⟩ := hp
  rw [List.drop_left] at hq
  exact (List.prefix_append_right_inj p).mpr hq

theorem exponentText_isPrefix (s : List Char) : exponentText s <+: s := by
  cases s with
  | nil => exact List.nil_prefix
  | cons c r =>
    rw [exponentText_cons]
    split
    · split
      · exact List.nil_prefix
      · exact (List.prefix_cons_inj c).mpr (append_isPrefix (signText_isPrefix r) (List.takeWhile_prefix isDigit))
    · exact List.nil_prefix

theorem numberText_isPrefix {s n : List Char} (h : numberText s = some n) : n <+: s := by
  rw [numberText_eq] at h
  obtain ⟨-, hn⟩ := Option.ite_none_left_eq_some.mp h
  rw [← Option.some.inj hn, List.append_assoc, List.append_assoc]
  refine append_isPrefix (signText_isPrefix s) (append_isPrefix (List.takeWhile_prefix isDigit) ?_)
  exact append_isPrefix (fractionText_isPrefix _) (exponentText_isPrefix _)

/-! ### They do not depend on what follows -/

section

variable {rest : List Char} (h : EndsScalar rest)
include h

theorem EndsScalar.signText_append (s : List Char) : signText (s ++ rest) = signText s := by
  cases s with
  | nil =>
    cases rest with
    | nil => rfl
    | cons c r =>
      have hnot : ¬ (c = '+' ∨ c = '-') := by
        rintro (rfl | rfl) <;> cases h _ rfl
      rw [List.nil_append, signText_cons, if_neg hnot]
      rfl
  | cons c s => rw [List.cons_append, signText_cons, signText_cons]

theorem EndsScalar.fractionText_append (s : List Char) : fractionText (s ++ rest) = fractionText s := by
  cases s with
  | nil =>
    cases rest with
    | nil => rfl
    | cons c r =>
      have hnot : c ≠ '.' := by
        rintro rfl
        cases h _ rfl
      rw [List.nil_append, fractionText_cons, if_neg hnot]
      rfl
  | cons c s =>
    rw [List.cons_append, fractionText_cons, fractionText_cons, h.takeWhile_append isScalarChar_of_isDigit]

theorem EndsScalar.exponentText_append (s : List Char) : exponentText (s ++ rest) = exponentText s := by
  cases s with
  | nil =>
    cases rest with
    | nil => rfl
    | cons c r =>
      have hnot : ¬ (c = 'e' ∨ c = 'E') := by
        rintro (rfl | rfl) <;> cases h _ rfl
      rw [List.nil_append, exponentText_cons, if_neg hnot]
      rfl
  | cons c s =>
    rw [List.cons_append, exponentText_cons, exponentText_cons, h.signText_append,
      List.drop_append_of_le_length (signText_isPrefix s).length_le, h.takeWhile_append isScalarChar_of_isDigit]

/-- A number ends where it would end without what follows. -/
theorem EndsScalar.numberText_append (s : List Char) : numberText (s ++ rest) = numberText s := by
  rw [numberText_eq, numberText_eq]
  dsimp only
  rw [h.signText_append, List.drop_append_of_le_length (signText_isPrefix s).length_le,
    h.takeWhile_append isScalarChar_of_isDigit,
    List.drop_append_of_le_length (List.takeWhile_prefix isDigit).length_le, h.fractionText_append,
    List.drop_append_of_le_length (fractionText_isPrefix _).length_le, h.exponentText_append]

end

/-! ### What they are made of -/

theorem isScalarChar_of_mem_signText {s : List Char} {c : Char} (h : c ∈ signText s) : isScalarChar c = true := by
  cases s with
  | nil => cases h
  | cons d r =>
    rw [signText_cons] at h
    split at h
    · next hd =>
      cases List.mem_singleton.mp h
      rcases hd with rfl | rfl <;> rfl
    · cases h

theorem isScalarChar_of_mem_takeWhile {s : List Char} {c : Char} (h : c ∈ s.takeWhile isDigit) :
    isScalarChar c = true := isScalarChar_of_isDigit c (List.mem_takeWhile_imp h)

theorem isScalarChar_of_mem_fractionText {s : List Char} {c : Char} (h : c ∈ fractionText s) :
    isScalarChar c = true := by
  cases s with
  | nil => cases h
  | cons d r =>
    rw [fractionText_cons] at h
    split at h
    · next hd =>
      rcases List.mem_cons.mp h with rfl | h
      · rw [hd]
        rfl
      · exact isScalarChar_of_mem_takeWhile h
    · cases h

theorem isScalarChar_of_mem_exponentText {s : List Char} {c : Char} (h : c ∈ exponentText s) :
    isScalarChar c = true := by
  cases s with
  | nil => cases h
  | cons d r =>
    rw [exponentText_cons] at h
    split at h
    · next hd =>
      split at h
      · cases h
      · rcases List.mem_cons.mp h with rfl | h
        · rcases hd with rfl | rfl <;> rfl
        · rcases List.mem_append.mp h with h | h
          · exact isScalarChar_of_mem_signText h
          · exact isScalarChar_of_mem_takeWhile h
    · cases h

theorem isScalarChar_of_mem_numberText {s n : List Char} (h : numberText s = some n) {c : Char} (hc : c ∈ n) :
    isScalarChar c = true := by
  rw [numberText_eq] at h
  obtain ⟨-, hn⟩ := Option.ite_none_left_eq_some.mp h
  rw [← Option.some.inj hn, List.mem_append, List.mem_append, List.mem_append] at hc
  rcases hc with ((hc | hc) | hc) | hc
  · exact isScalarChar_of_mem_signText hc
  · exact isScalarChar_of_mem_takeWhile hc
  · exact isScalarChar_of_mem_fractionText hc
  · exact isScalarChar_of_mem_exponentText hc

/-! ### Words and numbers -/

/-- The word or number at the start of a text. -/
def scalarText (s : List Char) : Option (List Char) := (words.find? (·.isPrefixOf s)).or (numberText s)

theorem isScalarChar_of_mem_words : ∀ w ∈ words, ∀ c ∈ w, isScalarChar c = true := by
  have hall : words.all (·.all isScalarChar) = true := by decide
  simpa only [List.all_eq_true] using hall

theorem EndsScalar.isPrefixOf_append {rest : List Char} (h : EndsScalar rest) {w : List Char}
    (hw : ∀ c ∈ w, isScalarChar c = true) (s : List Char) : w.isPrefixOf (s ++ rest) = w.isPrefixOf s := by
  induction w generalizing s with
  | nil => rw [List.isPrefixOf_nil_left, List.isPrefixOf_nil_left]
  | cons c w ih =>
    cases s with
    | nil =>
      cases rest with
      | nil => rfl
      | cons d r =>
        have hne : (c == d) = false := by
          rw [beq_eq_false_iff_ne]
          rintro rfl
          exact Bool.false_ne_true ((h c rfl).symm.trans (hw c List.mem_cons_self))
        rw [List.nil_append, List.isPrefixOf_cons_cons, hne]
        rfl
    | cons d s =>
      rw [List.cons_append, List.isPrefixOf_cons_cons, List.isPrefixOf_cons_cons,
        ih fun x hx => hw x (List.mem_cons_of_mem c hx)]

/-- **A number or a word ends where it would end without what follows.** -/
theorem EndsScalar.scalarText_append {rest : List Char} (h : EndsScalar rest) (s : List Char) :
    scalarText (s ++ rest) = scalarText s := by
  have hwords : words.find? (·.isPrefixOf (s ++ rest)) = words.find? (·.isPrefixOf s) :=
    List.find?_congr fun w hw => h.isPrefixOf_append (isScalarChar_of_mem_words w hw) s
  unfold scalarText
  rw [hwords, h.numberText_append]

theorem scalarText_cases {s n : List Char} (h : scalarText s = some n) :
    (n ∈ words ∧ n <+: s) ∨ numberText s = some n := by
  rcases Option.or_eq_some_iff.mp h with h | ⟨-, h⟩
  · have hstarts := List.find?_some h
    exact .inl ⟨List.mem_of_find?_eq_some h, List.isPrefixOf_iff_prefix.mp hstarts⟩
  · exact .inr h

theorem scalarText_isPrefix {s n : List Char} (h : scalarText s = some n) : n <+: s := by
  rcases scalarText_cases h with ⟨-, h⟩ | h
  · exact h
  · exact numberText_isPrefix h

theorem scalarText_ne_nil {s n : List Char} (h : scalarText s = some n) : n ≠ [] := by
  rcases scalarText_cases h with ⟨h, -⟩ | h
  · exact words_ne_nil h
  · exact numberText_ne_nil h

theorem isScalarChar_of_mem_scalarText {s n : List Char} (h : scalarText s = some n) :
    ∀ c ∈ n, isScalarChar c = true := by
  intro c hc
  rcases scalarText_cases h with ⟨h, -⟩ | h
  · exact isScalarChar_of_mem_words n h c hc
  · exact isScalarChar_of_mem_numberText h hc

/-- What tokens of one character are, and what strings start with. -/
def marks : List Char := ['{', '}', '[', ']', ',', ':', '"']

theorem nextToken_of_not_mem_marks {c : Char} (h : c ∉ marks) (r : List Char) :
    nextToken (c :: r) = (scalarText (c :: r)).map fun n => (.scalar n, (c :: r).drop n.length) := by
  simp only [marks, List.mem_cons, List.not_mem_nil, or_false, not_or] at h
  obtain ⟨h₁, h₂, h₃, h₄, h₅, h₆, h₇⟩ := h
  unfold nextToken
  dsimp only
  rw [if_neg h₁, if_neg h₂, if_neg h₃, if_neg h₄, if_neg h₅, if_neg h₆, if_neg h₇]
  unfold scalarText
  cases words.find? (·.isPrefixOf (c :: r)) <;> rfl

theorem nextToken_ne_scalar {c : Char} (h : c ∈ marks) (r n rest : List Char) :
    nextToken (c :: r) ≠ some (.scalar n, rest) := by
  intro heq
  simp only [marks, List.mem_cons, List.not_mem_nil, or_false] at h
  rcases h with rfl | rfl | rfl | rfl | rfl | rfl | rfl
  iterate 6 cases heq
  obtain ⟨_, -, heq⟩ := Option.map_eq_some_iff.mp heq
  cases heq

theorem isScalarChar_of_mem_marks : ∀ c ∈ marks, isScalarChar c = false := by
  have hall : marks.all (! isScalarChar ·) = true := by decide
  simpa only [List.all_eq_true, Bool.not_eq_true'] using hall

/-- A scalar is found exactly where a word or a number is. -/
theorem nextToken_eq_scalar_iff {s n rest : List Char} :
    nextToken s = some (.scalar n, rest) ↔ scalarText s = some n ∧ s = n ++ rest := by
  constructor
  · intro h
    cases s with
    | nil => cases h
    | cons c r =>
      by_cases hc : c ∈ marks
      · exact absurd h (nextToken_ne_scalar hc r n rest)
      · rw [nextToken_of_not_mem_marks hc] at h
        obtain ⟨m, hm, heq⟩ := Option.map_eq_some_iff.mp h
        cases heq
        exact ⟨hm, (List.prefix_iff_eq_append.mp (scalarText_isPrefix hm)).symm⟩
  · rintro ⟨h, rfl⟩
    obtain ⟨c, n, rfl⟩ := List.exists_cons_of_ne_nil (scalarText_ne_nil h)
    have hc : c ∉ marks := fun hmem => Bool.false_ne_true
      ((isScalarChar_of_mem_marks c hmem).symm.trans (isScalarChar_of_mem_scalarText h c List.mem_cons_self))
    rw [List.cons_append, nextToken_of_not_mem_marks hc, ← List.cons_append, h, Option.map_some,
      List.drop_left]

/-! ## Tokens -/

/-- A token that is written as one: a string is enclosed in quotes, and a scalar is a whole word or number. -/
def Token.Formed : Token → Prop
  | .text s => ∃ body, Enclosed body ∧ s = '"' :: (body ++ ['"'])
  | .scalar s => scalarText s = some s
  | _ => True

/-- What has to follow a token so that it is found as it stands. -/
def Token.EndedBy (t : Token) (rest : List Char) : Prop := ∀ s, t = .scalar s → EndsScalar rest

theorem Token.endedBy_text (s rest : List Char) : (Token.text s).EndedBy rest := nofun

/-- A string is found exactly where an enclosed one is. -/
theorem nextToken_quote_eq_some_iff {r rest : List Char} {t : Token} :
    nextToken ('"' :: r) = some (t, rest) ↔
      ∃ body, Enclosed body ∧ t = .text ('"' :: (body ++ ['"'])) ∧ r = body ++ '"' :: rest := by
  show (readText false r).map (fun (text, rest) => (Token.text ('"' :: text), rest)) = _ ↔ _
  rw [Option.map_eq_some_iff]
  constructor
  · rintro ⟨⟨text, rest'⟩, hread, heq⟩
    cases heq
    obtain ⟨body, hbody, rfl, rfl⟩ := readText_eq_some_iff.mp hread
    exact ⟨body, hbody, rfl, rfl⟩
  · rintro ⟨body, hbody, rfl, rfl⟩
    exact ⟨_, hbody.readText rest, rfl⟩

/-- **A token is found where it is written.** -/
theorem nextToken_written {t : Token} {rest : List Char} (h : t.Formed) (hends : t.EndedBy rest) :
    nextToken (t.written ++ rest) = some (t, rest) := by
  cases t with
  | text s =>
    obtain ⟨body, hbody, rfl⟩ := h
    rw [Token.written, List.cons_append, List.append_assoc]
    exact nextToken_quote_eq_some_iff.mpr ⟨body, hbody, rfl, rfl⟩
  | scalar s =>
    refine nextToken_eq_scalar_iff.mpr ⟨?_, rfl⟩
    rw [Token.written, (hends s rfl).scalarText_append]
    exact h
  | _ => rfl

/-- A token of one character. -/
theorem exists_nextToken_mark {c : Char} (h : c ∈ marks) (hquote : c ≠ '"') (r : List Char) :
    ∃ t, nextToken (c :: r) = some (t, r) ∧ t.written = [c] ∧ t.Formed := by
  simp only [marks, List.mem_cons, List.not_mem_nil, or_false] at h
  rcases h with rfl | rfl | rfl | rfl | rfl | rfl | rfl
  · exact ⟨.openBrace, rfl, rfl, trivial⟩
  · exact ⟨.closeBrace, rfl, rfl, trivial⟩
  · exact ⟨.openBracket, rfl, rfl, trivial⟩
  · exact ⟨.closeBracket, rfl, rfl, trivial⟩
  · exact ⟨.comma, rfl, rfl, trivial⟩
  · exact ⟨.colon, rfl, rfl, trivial⟩
  · exact absurd rfl hquote

/-- **What is found is written as a token.** -/
theorem formed_of_nextToken {s rest : List Char} {t : Token} (h : nextToken s = some (t, rest))
    (hends : t.EndedBy rest) : t.Formed ∧ s = t.written ++ rest := by
  cases s with
  | nil => cases h
  | cons c r =>
    by_cases hquote : c = '"'
    · subst hquote
      obtain ⟨body, hbody, rfl, rfl⟩ := nextToken_quote_eq_some_iff.mp h
      refine ⟨⟨body, hbody, rfl⟩, ?_⟩
      rw [Token.written, List.cons_append, List.append_assoc]
      rfl
    by_cases hmark : c ∈ marks
    · obtain ⟨t', ht', hwritten, hformed⟩ := exists_nextToken_mark hmark hquote r
      cases ht'.symm.trans h
      exact ⟨hformed, by rw [hwritten]; rfl⟩
    · rw [nextToken_of_not_mem_marks hmark] at h
      obtain ⟨n, hn, heq⟩ := Option.map_eq_some_iff.mp h
      cases heq
      have hsplit := (List.prefix_iff_eq_append.mp (scalarText_isPrefix hn)).symm
      rw [hsplit, (hends n rfl).scalarText_append] at hn
      exact ⟨hn, hsplit⟩

end EditorServices.Commented
