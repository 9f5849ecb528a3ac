import EditorServices.Proofs.Json.CommentedTokens
import EditorServices.Proofs.Json.Escapes

/-!
# `Proofs.Json.PlainStrings` — what is written between quotes

What stands between the quotes of a string is spelled character by character: as the character itself, or by an
escape. What follows counts in one place only. The escape of a high surrogate and one of a low surrogate right
after it are one character, while a high surrogate that no low one follows stands alone.

## Contents
- **Spellings.** `Spelled`, one character; `Spelling`, a row of them.
- **Reading.** `readString_eq_ok_iff`, in terms of `decode?`.
- **Parts.** `Spelling.append` and `Spelling.of_append_brace`, and what follows a row of characters.
- **Writing.** `decode?_escape`, what a style writes is read as what it was.
-/

namespace EditorServices

open Commented (Enclosed readText_eq_some_iff)

variable {c : Char} {e r s t u w cs ds rest opening : List Char}

/-! ## Spellings -/

/-- A text starts with the escape of a low surrogate. -/
def StartsLow (s : List Char) : Prop :=
  ∃ a b c d n r, s = '\\' :: 'u' :: a :: b :: c :: d :: r ∧ hex4Value? a b c d = some n ∧ isLowSurrogate n = true

/-- A way to write a character, if some text follows. -/
inductive Spelled : List Char → Char → List Char → Prop
  | plain {c : Char} {r : List Char} (quote : c ≠ '"') (backslash : c ≠ '\\') (least : 32 ≤ c.toNat) :
      Spelled [c] c r
  | short {c e : Char} {r : List Char} (meaning : unescape? e = some c) (other : e ≠ 'u') : Spelled ['\\', e] c r
  | unit {a b c d : Char} {n : Nat} {r : List Char} (value : hex4Value? a b c d = some n)
      (alone : isHighSurrogate n = true → ¬ StartsLow r) : Spelled ['\\', 'u', a, b, c, d] (unitChar n) r
  | pair {a b c d a' b' c' d' : Char} {n m : Nat} {r : List Char} (value : hex4Value? a b c d = some n)
      (value' : hex4Value? a' b' c' d' = some m) (high : isHighSurrogate n = true)
      (low : isLowSurrogate m = true) :
      Spelled ['\\', 'u', a, b, c, d, '\\', 'u', a', b', c', d'] (pairChar n m) r

/-- A way to write characters, if some text follows. -/
inductive Spelling : List Char → List Char → List Char → Prop
  | nil (r : List Char) : Spelling [] [] r
  | cons {e u cs r : List Char} {c : Char} (first : Spelled e c (u ++ r)) (more : Spelling u cs r) :
      Spelling (e ++ u) (c :: cs) r

/-- The characters that are written between two quotes. -/
def decode? (s : List Char) : Option (List Char) :=
  match readString false [] (s ++ ['"']) with
  | .ok (cs, []) => some cs
  | _ => none

/-! ## Reading -/

theorem readString_quote (opening rest : List Char) : readString false opening ('"' :: rest) = .ok ([], rest) := by
  rw [readString, if_pos rfl]

/-- The escape of one unit, with at least one character after it. -/
theorem readEscape_hex {start : List Char} {a b c d : Char} {n : Nat} (h : hex4Value? a b c d = some n)
    (hr : r ≠ []) : readEscape opening start ('u' :: a :: b :: c :: d :: r) = readUnit n r := by
  obtain ⟨x, r, rfl⟩ := List.exists_cons_of_ne_nil hr
  simp only [readEscape, if_true, h]

/-- The escape of a high surrogate that stands alone, though what follows may be no escape at all. -/
theorem readUnit_alone {n : Nat} (opening : List Char) (h : isHighSurrogate n = true → ¬ StartsLow r) :
    readUnit n r = .ok (unitChar n, r) ∨
      ∃ fault, readUnit n r = .error fault ∧ readString false opening r = .error fault := by
  unfold readUnit
  split
  · next hhigh =>
    split
    · next a b c d last r' =>
      split
      · next hvalue =>
        refine .inr ⟨_, rfl, readString_failed false ?_⟩
        simp only [readEscape, if_true, hvalue, List.tail_cons]
      · next m hvalue =>
        rw [if_neg fun hlow => h hhigh ⟨a, b, c, d, m, last :: r', rfl, hvalue, hlow⟩]
        exact .inl rfl
    · exact .inl rfl
  · exact .inl rfl

theorem readUnit_joined {a b c d : Char} {n m : Nat} (hhigh : isHighSurrogate n = true)
    (h : hex4Value? a b c d = some m) (hlow : isLowSurrogate m = true) (hr : r ≠ []) :
    readUnit n ('\\' :: 'u' :: a :: b :: c :: d :: r) = .ok (pairChar n m, r) := by
  obtain ⟨x, r, rfl⟩ := List.exists_cons_of_ne_nil hr
  simp only [readUnit, hhigh, if_true, h, hlow]

/-- **A character is read from its spelling**, if it is not the last thing in the text. -/
theorem Spelled.readString (h : Spelled e c r) (opening : List Char) (hr : r ≠ []) :
    readString false opening (e ++ r) = prependChar c (EditorServices.readString false opening r) := by
  cases h with
  | plain quote backslash least => exact readString_plain false quote backslash least
  | short meaning other => exact readString_escaped false (readEscape_letter other meaning)
  | @unit a b c d n _ value alone =>
    rcases readUnit_alone opening alone with hread | ⟨fault, hread, hfault⟩
    · exact readString_escaped false ((readEscape_hex value hr).trans hread)
    · rw [hfault]
      exact readString_failed false ((readEscape_hex value hr).trans hread)
  | pair value value' high low =>
    refine readString_escaped false ?_
    exact (readEscape_hex value (List.cons_ne_nil _ _)).trans (readUnit_joined high value' low hr)

/-- The escape of a low surrogate has to be followed by something. -/
theorem not_startsLow (hfits : ∀ a b c d last r', r ≠ '\\' :: 'u' :: a :: b :: c :: d :: last :: r')
    (hread : readString false opening r = .ok (cs, rest)) : ¬ StartsLow r := by
  rintro ⟨a, b, c, d, n, r', rfl, -, -⟩
  cases r' with
  | nil => cases (readString_failed false (readEscape_cut (r := [a, b, c, d]) (Nat.lt_succ_self 4))).symm.trans hread
  | cons last r' => exact hfits a b c d last r' rfl

/-- The escape of a unit, with what joins it. -/
theorem spelled_of_readUnit {x y z w : Char} {n : Nat} (hvalue : hex4Value? x y z w = some n)
    (h : readUnit n s = .ok (c, r)) (hread : readString false opening r = .ok (cs, rest)) :
    ∃ e, Spelled ('\\' :: 'u' :: x :: y :: z :: w :: e) c r ∧ s = e ++ r := by
  unfold readUnit at h
  split at h
  · next hhigh =>
    split at h
    · next a b c d last s =>
      split at h
      · cases h
      · next m hm =>
        split at h
        · next hlow =>
          obtain ⟨hc, hr⟩ := Prod.mk.inj (Except.ok.inj h)
          rw [← hc, ← hr]
          exact ⟨_, .pair hvalue hm hhigh hlow, rfl⟩
        · next hlow =>
          cases h
          refine ⟨[], .unit hvalue ?_, rfl⟩
          rintro - ⟨_, _, _, _, k, _, hs, hk, hklow⟩
          cases hs
          cases hm.symm.trans hk
          exact hlow hklow
    · next hfits =>
      cases h
      exact ⟨[], .unit hvalue fun _ => not_startsLow hfits hread, rfl⟩
  · next hhigh =>
    cases h
    exact ⟨[], .unit hvalue fun h => absurd h hhigh, rfl⟩

/-- **An escape that is read, with all that comes after it, is a spelling.** -/
theorem spelled_of_readEscape {start : List Char} (h : readEscape opening start s = .ok (c, r))
    (hread : readString false opening r = .ok (cs, rest)) : ∃ e, Spelled ('\\' :: e) c r ∧ s = e ++ r := by
  unfold readEscape at h
  split at h
  · cases h
  · next e s =>
    split at h
    · next heq =>
      subst heq
      split at h
      · next x y z w last s =>
        split at h
        · cases h
        · next n hvalue =>
          obtain ⟨e, he, hs⟩ := spelled_of_readUnit hvalue h hread
          exact ⟨_, he, by rw [hs]; rfl⟩
      · cases h
    · next hother =>
      split at h
      · cases h
      · next d hmeaning =>
        cases h
        exact ⟨[e], .short hmeaning hother, rfl⟩

theorem Spelled.ne_nil (h : Spelled e c r) : e ≠ [] := by
  cases h <;> exact List.cons_ne_nil _ _

/-- **A string that is read is a spelling up to a quote.** -/
theorem exists_spelling (h : readString false opening s = .ok (cs, rest)) :
    ∃ u, s = u ++ '"' :: rest ∧ Spelling u cs ('"' :: rest) := by
  induction hn : s.length using Nat.strong_induction_on generalizing s cs with
  | _ n ih =>
    cases s with
    | nil =>
      rw [readString] at h
      cases h
    | cons c r =>
      rw [readString] at h
      split at h
      · next hquote =>
        cases h
        exact ⟨[], by rw [hquote]; rfl, .nil _⟩
      · next hquote =>
        -- one character, and on with what comes after it
        have hmore : ∀ {e r' d x}, Spelled e d r' → c :: r = e ++ r' →
            readString false opening r' = x → prependChar d x = .ok (cs, rest) →
            ∃ u, c :: r = u ++ '"' :: rest ∧ Spelling u cs ('"' :: rest) := by
          intro e r' d x he hs hx hcs
          cases x with
          | error fault => cases hcs
          | ok p =>
            obtain ⟨cs', rest'⟩ := p
            cases hcs
            have hlt : r'.length < n := by
              have hpos := List.length_pos_iff.mpr he.ne_nil
              rw [← hn, hs, List.length_append]
              omega
            obtain ⟨u, rfl, hu⟩ := ih _ hlt hx rfl
            exact ⟨e ++ u, by rw [hs, List.append_assoc], .cons he hu⟩
        split at h
        · next hbackslash =>
          split at h
          · cases h
          · next d r' hescape =>
            cases hx : readString false opening r' with
            | error fault =>
              rw [hx] at h
              cases h
            | ok p =>
              obtain ⟨e, he, hs⟩ := spelled_of_readEscape hescape hx
              exact hmore he (by rw [hbackslash, hs]; rfl) rfl h
        · next hbackslash =>
          split at h
          · cases h
          · next hcontrol =>
            have hleast : 32 ≤ c.toNat := Nat.le_of_not_lt fun hlt => hcontrol (.inr ⟨hlt, rfl⟩)
            exact hmore (.plain hquote hbackslash hleast) rfl rfl h

/-- **A string is read from its spelling.** -/
theorem Spelling.readString (h : Spelling u cs r) (opening : List Char) (hr : r ≠ []) :
    readString false opening (u ++ r) =
      (EditorServices.readString false opening r).map fun (ds, rest) => (cs ++ ds, rest) := by
  induction h with
  | nil r =>
    cases hread : EditorServices.readString false opening r <;> simp [hread, Except.map]
  | @cons e u cs r c first _ ih =>
    rw [List.append_assoc, first.readString opening (by simp [hr]), ih hr]
    cases EditorServices.readString false opening r <;> rfl

/-! ## What follows -/

theorem not_startsLow_cons (hc : c ≠ '\\') (r : List Char) : ¬ StartsLow (c :: r) := by
  rintro ⟨_, _, _, _, _, _, heq, -⟩
  exact hc (List.cons.inj heq).1

theorem not_startsLow_quote (r : List Char) : ¬ StartsLow ('"' :: r) := not_startsLow_cons (by decide) r

/-- What comes after the spelling of a character does not make it the escape of a low surrogate. -/
theorem Spelled.startsLow_append (h : Spelled e c r) (hs : StartsLow (e ++ s)) (t : List Char) :
    StartsLow (e ++ t) := by
  obtain ⟨a, b, c', d, n, r', heq, hvalue, hlow⟩ := hs
  cases h with
  | plain _ backslash _ => exact absurd (List.cons.inj heq).1 backslash
  | short _ other => exact absurd (List.cons.inj (List.cons.inj heq).2).1 other
  | unit _ _ =>
    cases heq
    exact ⟨_, _, _, _, n, t, rfl, hvalue, hlow⟩
  | pair _ _ _ _ =>
    cases heq
    exact ⟨_, _, _, _, n, _, rfl, hvalue, hlow⟩

/-- Nor does what comes after a spelling. -/
theorem Spelling.startsLow_append (h : Spelling u cs r) (hne : u ≠ []) (hs : StartsLow (u ++ s)) (t : List Char) :
    StartsLow (u ++ t) := by
  cases h with
  | nil _ => exact absurd rfl hne
  | cons first _ =>
    rw [List.append_assoc] at hs ⊢
    exact first.startsLow_append hs _

/-- **Of what follows a spelling only the escape of a low surrogate counts.** -/
theorem Spelling.of_follows (h : Spelling u cs r) (hlow : StartsLow s → StartsLow r) : Spelling u cs s := by
  induction h with
  | nil r => exact .nil s
  | @cons e u cs r c first more ih =>
    refine .cons ?_ (ih hlow)
    cases first with
    | plain quote backslash least => exact .plain quote backslash least
    | short meaning other => exact .short meaning other
    | pair value value' high low => exact .pair value value' high low
    | unit value alone =>
      refine .unit value fun hhigh hs => alone hhigh ?_
      by_cases hu : u = []
      · subst hu
        exact hlow hs
      · exact more.startsLow_append hu hs _

/-- **The characters between quotes are those of a spelling.** -/
theorem decode?_eq_some_iff : decode? u = some cs ↔ Spelling u cs ['"'] := by
  unfold decode?
  constructor
  · intro h
    split at h
    · next hread =>
      cases h
      obtain ⟨u', hu, hspelling⟩ := exists_spelling hread
      rw [List.append_cancel_right hu]
      exact hspelling
    · cases h
  · intro h
    have hread := h.readString [] (List.cons_ne_nil _ _)
    rw [readString_quote] at hread
    rw [hread]
    simp only [Except.map, List.append_nil]

/-- **What a string is read as**, whatever comes after it. -/
theorem readString_eq_ok_iff :
    readString false opening s = .ok (cs, rest) ↔ ∃ u, s = u ++ '"' :: rest ∧ decode? u = some cs := by
  constructor
  · intro h
    obtain ⟨u, hs, hu⟩ := exists_spelling h
    have hspelling : Spelling u cs ['"'] := hu.of_follows fun hlow => absurd hlow (not_startsLow_quote [])
    exact ⟨u, hs, decode?_eq_some_iff.mpr hspelling⟩
  · rintro ⟨u, rfl, hu⟩
    have hspelling : Spelling u cs ('"' :: rest) :=
      (decode?_eq_some_iff.mp hu).of_follows fun hlow => absurd hlow (not_startsLow_quote rest)
    rw [hspelling.readString opening (List.cons_ne_nil _ _), readString_quote]
    simp only [Except.map, List.append_nil]

/-! ## Digits -/

theorem exists_hexValue? {a b c d : Char} {n : Nat} (h : hex4Value? a b c d = some n) :
    ∀ x ∈ [a, b, c, d], hexValue? x ≠ none := by
  unfold hex4Value? at h
  split at h
  · next ha hb hc hd =>
    intro x hx
    simp only [List.mem_cons, List.not_mem_nil, or_false] at hx
    rcases hx with rfl | rfl | rfl | rfl <;> simp_all
  · cases h

/-- What has no meaning as a digit or after a backslash is not part of an escape. -/
theorem Spelled.not_mem_tail (h : Spelled e c r) {x : Char} (hdigit : hexValue? x = none)
    (hletter : unescape? x = none) (hu : x ≠ 'u') (hbackslash : x ≠ '\\') : x ∉ e.tail := by
  have hfour : ∀ {a b c d : Char} {n : Nat}, hex4Value? a b c d = some n → x ∉ [a, b, c, d] :=
    fun hvalue hmem => exists_hexValue? hvalue x hmem hdigit
  cases h with
  | plain _ _ _ => exact List.not_mem_nil
  | @short _ letter _ meaning _ =>
    intro hmem
    cases List.mem_singleton.mp hmem
    cases hletter.symm.trans meaning
  | unit value _ =>
    intro hmem
    rcases List.mem_cons.mp hmem with heq | hmem
    · exact hu heq
    · exact hfour value hmem
  | @pair a b c d a' b' c' d' _ _ _ value value' _ _ =>
    have h₁ := hfour value
    have h₂ := hfour value'
    simp only [List.tail_cons, List.mem_cons, List.not_mem_nil, or_false, not_or] at h₁ h₂ ⊢
    exact ⟨hu, h₁.1, h₁.2.1, h₁.2.2.1, h₁.2.2.2, hbackslash, hu, h₂⟩

/-! ## Parts -/

theorem enclosed_digits (h : ∀ x ∈ ds, hexValue? x ≠ none) (hu : Enclosed u) : Enclosed (ds ++ u) := by
  induction ds with
  | nil => exact hu
  | cons d ds ih =>
    have hd : hexValue? d ≠ none := h d List.mem_cons_self
    refine .plain ?_ ?_ ?_ (ih fun x hx => h x (List.mem_cons_of_mem d hx))
    all_goals
      rintro rfl
      exact hd rfl

/-- A character is not written with a line feed, and with a quote only after a backslash. -/
theorem Spelled.enclosed (h : Spelled e c r) (hu : Enclosed u) : Enclosed (e ++ u) := by
  have hunit : ∀ {a b c d : Char} {n : Nat} {u : List Char}, hex4Value? a b c d = some n → Enclosed u →
      Enclosed ('\\' :: 'u' :: ([a, b, c, d] ++ u)) :=
    fun hvalue hu => .escaped (by decide) (enclosed_digits (exists_hexValue? hvalue) hu)
  cases h with
  | plain quote backslash least =>
    refine .plain quote backslash ?_ hu
    rintro rfl
    exact absurd least (by decide)
  | short meaning _ =>
    refine .escaped ?_ hu
    rintro rfl
    cases meaning
  | unit value _ => exact hunit value hu
  | pair value value' _ _ => exact hunit value (hunit value' hu)

theorem Spelling.enclosed (h : Spelling u cs r) : Enclosed u := by
  induction h with
  | nil r => exact .nil
  | cons first _ ih => exact first.enclosed ih

/-- **A string in quotes is read as what is between them**, and nothing else is. -/
theorem readString_enclosed_iff (hu : Enclosed u) :
    readString false opening (u ++ '"' :: s) = .ok (cs, rest) ↔ decode? u = some cs ∧ rest = s := by
  rw [readString_eq_ok_iff]
  constructor
  · rintro ⟨w, heq, hw⟩
    have hboth := (hu.readText s).symm.trans (heq ▸ (decode?_eq_some_iff.mp hw).enclosed.readText rest)
    obtain ⟨hbody, hrest⟩ := Prod.mk.inj (Option.some.inj hboth)
    rw [List.append_cancel_right hbody]
    exact ⟨hw, hrest.symm⟩
  · rintro ⟨hu, rfl⟩
    exact ⟨u, rfl, hu⟩

theorem Spelling.append (h : Spelling u cs (w ++ r)) (h' : Spelling w ds r) : Spelling (u ++ w) (cs ++ ds) r := by
  generalize hs : w ++ r = s at h
  induction h with
  | nil s => exact h'
  | @cons e u cs s c first _ ih =>
    subst hs
    rw [List.append_assoc]
    refine .cons ?_ (ih rfl)
    rw [List.append_assoc]
    exact first

/-- **At a brace a spelling falls into two.** -/
theorem Spelling.of_append_brace {brace : Char} (hbrace : brace = '{' ∨ brace = '}')
    (h : Spelling (u ++ brace :: w) cs r) :
    ∃ ds ds', cs = ds ++ brace :: ds' ∧ Spelling u ds (brace :: (w ++ r)) ∧ Spelling w ds' r := by
  generalize hs : u ++ brace :: w = s at h
  induction h generalizing u with
  | nil r => cases (List.append_eq_nil_iff.mp hs).2
  | @cons e v cs r c first more ih =>
    have htail : brace ∉ e.tail := by
      rcases hbrace with rfl | rfl <;> exact first.not_mem_tail rfl rfl (by decide) (by decide)
    cases u with
    | nil =>
      -- the brace is the first character, and stands for itself
      cases first with
      | plain _ _ _ =>
        cases hs
        exact ⟨[], cs, rfl, .nil _, more⟩
      | _ =>
        rcases hbrace with rfl | rfl <;> cases hs
    | cons x u =>
      -- it comes after the first character: otherwise it would be inside of an escape
      obtain ⟨m, hu, hv⟩ : ∃ m, x :: u = e ++ m ∧ v = m ++ brace :: w := by
        rcases List.append_eq_append_iff.mp hs with ⟨m, he, hm⟩ | ⟨m, hu, hv⟩
        · cases m with
          | nil => exact ⟨[], by rw [List.append_nil, he, List.append_nil], hm.symm⟩
          | cons y m =>
            rw [he, ← (List.cons.inj hm).1] at htail
            exact absurd (List.mem_append_right u List.mem_cons_self) htail
        · exact ⟨m, hu, hv⟩
      obtain ⟨ds, ds', rfl, hds, hw⟩ := ih hv.symm
      rw [hv, List.append_assoc] at first
      rw [hu]
      exact ⟨c :: ds, ds', rfl, .cons first hds, hw⟩

/-! ## Writing -/

/-- Characters that stand for themselves. -/
def IsVerbatim (s : List Char) : Prop := ∀ c ∈ s, c ≠ '"' ∧ c ≠ '\\' ∧ 32 ≤ c.toNat

instance (s : List Char) : Decidable (IsVerbatim s) := List.decidableBAll _ s

theorem IsVerbatim.spelling (h : IsVerbatim s) (r : List Char) : Spelling s s r := by
  induction s with
  | nil => exact .nil r
  | cons c s ih =>
    obtain ⟨quote, backslash, least⟩ := h c List.mem_cons_self
    exact .cons (.plain quote backslash least) (ih fun d hd => h d (List.mem_cons_of_mem c hd))

theorem Escaped.spelled (h : Escaped c e) (r : List Char) : Spelled e c r := by
  cases h with
  | plain quote backslash least _ => exact .plain quote backslash least
  | short meaning other _ => exact .short meaning other
  | @unit n bound whole =>
    have hunit : unitChar n = Char.ofNat n := by
      rw [unitChar, whole]
      rfl
    have hlow : isHighSurrogate n = true → ¬ StartsLow r := fun hhigh => by
      unfold isPairHalf at whole
      unfold isHighSurrogate at hhigh
      simp only [Bool.and_eq_false_iff, Bool.and_eq_true, decide_eq_true_eq, decide_eq_false_iff_not] at *
      omega
    rw [← hunit]
    exact .unit (hex4Value?_hex4 bound) hlow
  | @pair high low isHigh isLow =>
    have hhigh := hex4Value?_hex4 (lt_of_isHighSurrogate isHigh)
    have hlow := hex4Value?_hex4 (lt_of_isLowSurrogate isLow)
    exact .pair hhigh hlow isHigh isLow

/-- **A style writes a character in a way to write it**, unless halves of pairs are shown. -/
theorem spelled_escapeChar {style : PrintStyle} (hstyle : style.showsHalves = false) (c : Char) (r : List Char) :
    Spelled (style.escapeChar c) c r := by
  unfold PrintStyle.escapeChar
  cases hs : shortEscape? c with
  | some e =>
    obtain ⟨hmeaning, hother, -⟩ := shortEscape?_eq_some hs
    exact .short hmeaning hother
  | none =>
    dsimp only
    split
    · next hsolidus =>
      rw [hsolidus.1]
      exact .short rfl (by decide)
    split
    · next hcontrol => exact (escaped_small (by omega)).spelled r
    next hleast =>
    split
    · rw [hstyle]
      exact (escaped_unicodeEscape c).spelled r
    split
    · next hdelete =>
      have hunit := escaped_small (c := c) (by omega)
      rw [hdelete.2] at hunit
      exact hunit.spelled r
    · refine .plain ?_ ?_ (Nat.le_of_not_lt hleast)
      · rintro rfl
        cases hs
      · rintro rfl
        cases hs

/-- **What a style writes between quotes is read as what it was.** -/
theorem decode?_escape {style : PrintStyle} (hstyle : style.showsHalves = false) (s : List Char) :
    decode? (style.escape s) = some s := by
  refine decode?_eq_some_iff.mpr ?_
  induction s with
  | nil => exact .nil _
  | cons c s ih => exact .cons (spelled_escapeChar hstyle c _) ih

end EditorServices
