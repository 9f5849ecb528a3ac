import EditorServices.Proofs.Json.CommentedGrammar

/-!
# `Proofs.Json.CommentedText` — why a commented text is not read

Reading a text goes wrong in one of four ways. The grammar is broken, by a token in the wrong place or by a
text that ends too early; no token starts at some place before that; the nesting is too deep; or what is left
without comments and trailing commas is no plain JSON. The first and the third are told apart from the others
by those who read files, and are described here without the machine that finds them: by the tokens that the
text is cut into, and by the values that the rules allow.

## Contents
- **Tokens.** `nextToken` takes at least one character, so that there is enough fuel.
- **Cuts.** `Cut`, tokens off the start of a text; `CutsInto`, a whole text.
- **Scanning.** `scan_of_cut`, and `scan_cases`, its outcomes.
- **Faults.** `Misplaced` and `TooDeep`, and exactly when they are found.
-/

namespace EditorServices.Commented

variable {m m' : Machine} {t : Token} {ts : List Token} {s rest : List Char} {fuel : Nat}

/-! ## Tokens -/

theorem length_skipIgnored_le (inComment : Bool) (s : List Char) :
    (skipIgnored inComment s).length ≤ s.length := by
  induction s generalizing inComment with
  | nil => exact Nat.le_refl _
  | cons c r ih =>
    have hskipped : ∀ b, (skipIgnored b r).length ≤ (c :: r).length := fun b => Nat.le_succ_of_le (ih b)
    cases inComment with
    | true =>
      unfold skipIgnored
      split <;> exact hskipped _
    | false =>
      unfold skipIgnored
      split
      · exact hskipped _
      · split
        · exact hskipped _
        · split
          · exact hskipped _
          · exact Nat.le_refl _

theorem length_readText_le {escaped : Bool} {text : List Char} (h : readText escaped s = some (text, rest)) :
    rest.length ≤ s.length := by
  induction s generalizing escaped text with
  | nil => cases h
  | cons c r ih =>
    unfold readText at h
    split at h
    · cases h
    · split at h
      · cases h
        exact Nat.le_succ _
      · obtain ⟨⟨text', rest'⟩, hread, heq⟩ := Option.map_eq_some_iff.mp h
        cases heq
        exact Nat.le_succ_of_le (ih hread)

/-- A number has at least one character, a digit. -/
theorem numberText_ne_nil {n : List Char} (h : numberText s = some n) : n ≠ [] := by
  unfold numberText at h
  dsimp only at h
  obtain ⟨hdigits, heq⟩ := Option.ite_none_left_eq_some.mp h
  rintro rfl
  have hnil := Option.some.inj heq
  rw [List.append_eq_nil_iff, List.append_eq_nil_iff, List.append_eq_nil_iff] at hnil
  obtain ⟨⟨⟨-, hwhole⟩, hfraction⟩, -⟩ := hnil
  rw [hfraction, hwhole] at hdigits
  exact hdigits rfl

theorem words_ne_nil {w : List Char} (h : w ∈ words) : w ≠ [] := by
  rintro rfl
  revert h
  decide

/-- **A token takes at least one character.** -/
theorem length_nextToken_lt (h : nextToken s = some (t, rest)) : rest.length < s.length := by
  cases s with
  | nil => cases h
  | cons c r =>
    have hdrop : ∀ taken : List Char, taken ≠ [] →
        ((c :: r).drop taken.length).length < (c :: r).length := by
      intro taken htaken
      have hpos := List.length_pos_iff.mpr htaken
      rw [List.length_drop, List.length_cons]
      omega
    have hsign : ∀ x : Token, some (x, r) = some (t, rest) → rest.length < (c :: r).length := by
      intro x hx
      cases hx
      exact Nat.lt_succ_self _
    unfold nextToken at h
    dsimp only at h
    -- a sign, a string, a word or a number
    split at h
    · exact hsign _ h
    · split at h
      · exact hsign _ h
      · split at h
        · exact hsign _ h
        · split at h
          · exact hsign _ h
          · split at h
            · exact hsign _ h
            · split at h
              · exact hsign _ h
              · split at h
                · obtain ⟨⟨text, rest'⟩, hread, heq⟩ := Option.map_eq_some_iff.mp h
                  cases heq
                  exact Nat.lt_succ_of_le (length_readText_le hread)
                · split at h
                  · next w hw =>
                    cases h
                    exact hdrop w (words_ne_nil (List.mem_of_find?_eq_some hw))
                  · obtain ⟨n, hn, heq⟩ := Option.map_eq_some_iff.mp h
                    cases heq
                    exact hdrop n (numberText_ne_nil hn)

/-! ## Cuts -/

/-- Tokens cut off the start of a text one after the other, and the text after them. Blanks and comments
before a token go with it. -/
inductive Cut : List Char → List Token → List Char → Prop
  | nil (s : List Char) : Cut s [] s
  | cons {s rest last : List Char} {t : Token} {ts : List Token}
      (token : nextToken (skipIgnored false s) = some (t, rest)) (more : Cut rest ts last) :
      Cut s (t :: ts) last

/-- A text is cut into tokens as a whole: nothing is left but blanks and comments. -/
def CutsInto (s : List Char) (ts : List Token) : Prop :=
  ∃ last, Cut s ts last ∧ skipIgnored false last = []

/-! ## Scanning -/

/-- One token, and on with the rest. -/
theorem scan_cons (h : nextToken (skipIgnored false s) = some (t, rest)) (m : Machine) (fuel : Nat) :
    scan (fuel + 1) m s = match m.step t with
      | none => .error .misplaced
      | some m' => scan fuel m' rest := by
  rw [scan]
  cases hs : skipIgnored false s with
  | nil =>
    rw [hs] at h
    cases h
  | cons c r =>
    dsimp only
    cases hm : m.step t with
    | none => simp only [← hs, h, hm]
    | some m' => simp only [← hs, h, hm]

/-- The end of the text. -/
theorem scan_nil (h : skipIgnored false s = []) (m : Machine) (fuel : Nat) :
    scan (fuel + 1) m s = if m.expecting = .nothing then .ok m.kept.reverse else .error .misplaced := by
  unfold scan
  rw [h]

/-- A place where no token starts. -/
theorem scan_stuck (hs : skipIgnored false s ≠ []) (h : nextToken (skipIgnored false s) = none)
    (m : Machine) (fuel : Nat) : scan (fuel + 1) m s = .error .noToken := by
  unfold scan
  cases heq : skipIgnored false s with
  | nil => exact absurd heq hs
  | cons c r =>
    dsimp only
    rw [← heq, h]

/-- The rest after a token needs less fuel. -/
theorem fuel_rest (h : nextToken (skipIgnored false s) = some (t, rest)) (hfuel : s.length < fuel + 1) :
    rest.length < fuel := by
  have h₁ := length_nextToken_lt h
  have h₂ := length_skipIgnored_le false s
  omega

/-- **What the scan does to the tokens at the start of a text**: it goes on with the rest, or stops at a
token in the wrong place. -/
theorem scan_of_cut {last : List Char} (hcut : Cut s ts last) (hfuel : s.length < fuel) (m : Machine) :
    (∀ m', m.feed ts = some m' → ∃ fuel', last.length < fuel' ∧ scan fuel m s = scan fuel' m' last) ∧
      (m.feed ts = none → scan fuel m s = .error .misplaced) := by
  induction hcut generalizing m fuel with
  | nil s =>
    refine ⟨fun m' h => ?_, fun h => ?_⟩
    · cases h
      exact ⟨fuel, hfuel, rfl⟩
    · cases h
  | @cons s rest last t ts token more ih =>
    cases fuel with
    | zero => exact absurd hfuel (Nat.not_lt_zero _)
    | succ fuel =>
      have hrest := ih (fuel_rest token hfuel)
      rw [scan_cons token]
      show (∀ m', (m.step t).bind _ = some m' → _) ∧ ((m.step t).bind _ = none → _)
      cases m.step t with
      | none =>
        refine ⟨fun m' h => ?_, fun _ => rfl⟩
        cases h
      | some next => exact hrest next

/-- **Everything that can come of a scan**: the text ends, a token stands in the wrong place, or no token
starts at some place. -/
theorem scan_cases (s : List Char) (hfuel : s.length < fuel) (m : Machine) :
    (∃ ts m', CutsInto s ts ∧ m.feed ts = some m' ∧
      scan fuel m s = if m'.expecting = .nothing then .ok m'.kept.reverse else .error .misplaced) ∨
    (∃ ts last, Cut s ts last ∧ m.feed ts = none ∧ scan fuel m s = .error .misplaced) ∨
    scan fuel m s = .error .noToken := by
  induction fuel generalizing m s with
  | zero => exact absurd hfuel (Nat.not_lt_zero _)
  | succ fuel ih =>
    by_cases hs : skipIgnored false s = []
    · exact .inl ⟨[], m, ⟨s, .nil s, hs⟩, rfl, scan_nil hs m fuel⟩
    · cases token : nextToken (skipIgnored false s) with
      | none => exact .inr (.inr (scan_stuck hs token m fuel))
      | some p =>
        obtain ⟨t, rest⟩ := p
        rw [scan_cons token]
        cases hstep : m.step t with
        | none =>
          have hnone : m.feed [t] = none := by
            unfold Machine.feed
            rw [hstep]
            rfl
          exact .inr (.inl ⟨[t], rest, .cons token (.nil rest), hnone, rfl⟩)
        | some next =>
          have hfeed : ∀ ts, m.feed (t :: ts) = next.feed ts := by
            intro ts
            show (m.step t).bind _ = _
            rw [hstep]
            rfl
          rcases ih rest (fuel_rest token hfuel) next with
            ⟨ts, m', ⟨last, hcut, hlast⟩, hm', hscan⟩ | ⟨ts, last, hcut, hm', hscan⟩ | hscan
          · exact .inl ⟨t :: ts, m', ⟨last, .cons token hcut, hlast⟩, (hfeed ts).trans hm', hscan⟩
          · exact .inr (.inl ⟨t :: ts, last, .cons token hcut, (hfeed ts).trans hm', hscan⟩)
          · exact .inr (.inr hscan)

/-! ## Faults -/

/-- The grammar is broken: no value starts with the first tokens of the text, or the text ends and its tokens
are no value. -/
def Misplaced (s : List Char) : Prop :=
  (∃ ts last, Cut s ts last ∧ ¬ Viable ts) ∨ ∃ ts, CutsInto s ts ∧ ¬ Value ts

/-- The text is a value by the rules, but arrays and objects are nested too deeply. -/
def TooDeep (s : List Char) : Prop := ∃ ts, CutsInto s ts ∧ Value ts ∧ maxDepth < deepest 0 ts

/-- The end of a text that was cut into tokens. -/
theorem scan_of_cutsInto (hcut : CutsInto s ts) (hfuel : s.length < fuel) (h : m.feed ts = some m') :
    scan fuel m s = if m'.expecting = .nothing then .ok m'.kept.reverse else .error .misplaced := by
  obtain ⟨last, hcut, hlast⟩ := hcut
  obtain ⟨fuel', hfuel', hscan⟩ := (scan_of_cut hcut hfuel m).1 m' h
  rw [hscan]
  cases fuel' with
  | zero => exact absurd hfuel' (Nat.not_lt_zero _)
  | succ fuel' => exact scan_nil hlast m' fuel'

/-- **A token in the wrong place is found exactly if the grammar is broken.** -/
theorem scan_eq_misplaced_iff (hfuel : s.length < fuel) :
    scan fuel .initial s = .error .misplaced ↔ Misplaced s := by
  constructor
  · intro hscan
    rcases scan_cases s hfuel .initial with ⟨ts, m', hcut, hfeed, heq⟩ | ⟨ts, last, hcut, hfeed, -⟩ | heq
    · refine .inr ⟨ts, hcut, fun hvalue => ?_⟩
      obtain ⟨m'', hfeed', hend⟩ := value_iff_accepted.mp hvalue
      cases hfeed.symm.trans hfeed'
      rw [heq, if_pos hend] at hscan
      cases hscan
    · refine .inl ⟨ts, last, hcut, fun hviable => ?_⟩
      obtain ⟨m', hfeed'⟩ := viable_iff_fed.mp hviable
      cases hfeed.symm.trans hfeed'
    · rw [heq] at hscan
      cases hscan
  · rintro (⟨ts, last, hcut, hviable⟩ | ⟨ts, hcut, hvalue⟩)
    · refine (scan_of_cut hcut hfuel .initial).2 ?_
      cases hfeed : Machine.initial.feed ts with
      | none => rfl
      | some m' => exact absurd (viable_iff_fed.mpr ⟨m', hfeed⟩) hviable
    · cases hfeed : Machine.initial.feed ts with
      | none =>
        obtain ⟨last, hcut, -⟩ := hcut
        exact (scan_of_cut hcut hfuel .initial).2 hfeed
      | some m' =>
        rw [scan_of_cutsInto hcut hfuel hfeed, if_neg]
        intro hend
        exact hvalue (value_iff_accepted.mpr ⟨m', hfeed, hend⟩)

/-- A text is scanned to its end exactly if it is cut into the tokens of a value; what is kept is as deep. -/
theorem scan_eq_ok_iff (hfuel : s.length < fuel) {kept : List Token} :
    scan fuel .initial s = .ok kept ↔
      ∃ ts m', CutsInto s ts ∧ Value ts ∧ Machine.initial.feed ts = some m' ∧ kept = m'.kept.reverse := by
  constructor
  · intro hscan
    rcases scan_cases s hfuel .initial with ⟨ts, m', hcut, hfeed, heq⟩ | ⟨ts, last, -, -, heq⟩ | heq
    · rw [heq] at hscan
      by_cases hend : m'.expecting = .nothing
      · rw [if_pos hend] at hscan
        cases hscan
        exact ⟨ts, m', hcut, value_iff_accepted.mpr ⟨m', hfeed, hend⟩, hfeed, rfl⟩
      · rw [if_neg hend] at hscan
        cases hscan
    · rw [heq] at hscan
      cases hscan
    · rw [heq] at hscan
      cases hscan
  · rintro ⟨ts, m', hcut, hvalue, hfeed, rfl⟩
    obtain ⟨m'', hfeed', hend⟩ := value_iff_accepted.mp hvalue
    cases hfeed.symm.trans hfeed'
    rw [scan_of_cutsInto hcut hfuel hfeed, if_pos hend]

end EditorServices.Commented

namespace EditorServices.Json

open Commented

variable {s : List Char} {kept : List Token} {limits : Limits}

/-- Reads the tokens that are left as plain JSON. -/
def readKept (kept : List Token) (limits : Limits) : Except Fault Json :=
  match Json.readConfig (kept.flatMap Token.written) limits.dialect with
  | .ok v => .ok v
  | .error e => .error (.plain e (kept.flatMap Token.written))

/-- Reading plain JSON goes wrong in its own way only. -/
theorem readKept_ne {f : Fault} (hf : ∀ e plain, f ≠ .plain e plain) : readKept kept limits ≠ .error f := by
  unfold readKept
  intro h
  cases hread : Json.readConfig (kept.flatMap Token.written) limits.dialect with
  | ok v =>
    rw [hread] at h
    cases h
  | error e =>
    rw [hread] at h
    cases h
    exact hf _ _ rfl

/-- A commented text is scanned, and then what is left is read. -/
theorem readCommented_eq (s : List Char) (limits : Limits) :
    Json.readCommented s limits = match scan (s.length + 1) .initial s with
      | .error f => .error f
      | .ok kept =>
        if limits.nesting.any (· < deepest 0 kept) then .error .tooDeep else readKept kept limits := by
  unfold Json.readCommented plainText
  cases scan (s.length + 1) .initial s with
  | error f => rfl
  | ok kept =>
    by_cases hdeep : limits.nesting.any (· < deepest 0 kept) = true
    · simp only [bind, Except.bind, if_pos hdeep]
    · simp only [bind, Except.bind, if_neg hdeep]
      rfl

theorem exceeded_usual {depth : Int} : Limits.usual.nesting.any (· < depth) = true ↔ maxDepth < depth :=
  decide_eq_true_iff

/-- **Reading finds a token in the wrong place exactly if the grammar is broken.** -/
theorem readCommented_eq_misplaced_iff : Json.readCommented s = .error .misplaced ↔ Misplaced s := by
  rw [← scan_eq_misplaced_iff (Nat.lt_succ_self s.length), readCommented_eq]
  cases scan (s.length + 1) .initial s with
  | error f =>
    constructor <;> intro h <;> cases h <;> rfl
  | ok kept =>
    dsimp only
    refine ⟨fun h => ?_, fun h => by cases h⟩
    split at h
    · cases h
    · refine absurd h (readKept_ne fun e plain heq => ?_)
      cases heq

/-- **Reading gives up on the nesting exactly if a value by the rules is nested too deeply.** -/
theorem readCommented_eq_tooDeep_iff : Json.readCommented s = .error .tooDeep ↔ TooDeep s := by
  have hfuel := Nat.lt_succ_self s.length
  rw [readCommented_eq]
  constructor
  · intro h
    cases hscan : scan (s.length + 1) .initial s with
    | error f =>
      rw [hscan] at h
      cases h
      -- the scan knows nothing of depth
      rcases scan_cases s hfuel .initial with ⟨ts, m', -, -, heq⟩ | ⟨ts, last, -, -, heq⟩ | heq
      · rw [heq] at hscan
        split at hscan <;> cases hscan
      · rw [heq] at hscan
        cases hscan
      · rw [heq] at hscan
        cases hscan
    | ok kept =>
      rw [hscan] at h
      dsimp only at h
      split at h
      · next hdeep =>
        obtain ⟨ts, m', hcut, hvalue, hfeed, rfl⟩ := (scan_eq_ok_iff hfuel).mp hscan
        rw [exceeded_usual, deepest_kept hfeed] at hdeep
        exact ⟨ts, hcut, hvalue, hdeep⟩
      · refine absurd h (readKept_ne fun e plain heq => ?_)
        cases heq
  · rintro ⟨ts, hcut, hvalue, hdeep⟩
    obtain ⟨m', hfeed, -⟩ := value_iff_accepted.mp hvalue
    rw [(scan_eq_ok_iff hfuel).mpr ⟨ts, m', hcut, hvalue, hfeed, rfl⟩]
    dsimp only
    rw [if_pos]
    rw [exceeded_usual, deepest_kept hfeed]
    exact hdeep

end EditorServices.Json
