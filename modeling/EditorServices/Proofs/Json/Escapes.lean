import EditorServices.Json.Printer
import EditorServices.Json.Reader

/-!
# `Proofs.Json.Escapes` — strings of messages are read as they were written

On the wire every character of a string has one of four forms: it stands for itself, or there is an escape
of two characters, of one code unit, or of a surrogate pair. Each form is read as the character, and a form
of which the end is missing is not read at all. Strings follow by induction.

## Contents
- **Code units.** `hex4Value?_hex4`.
- **Forms.** `Escaped`, and `escaped_wire`: the wire writes each character in one of the forms.
- **Reading.** `Escaped.readString`, and `Escaped.cut` for a form that breaks off.
- **Strings.** `readString_escape` and `readString_cut`.
-/

namespace EditorServices

/-! ## Code units -/

theorem toNat_ofNat {n : Nat} (h : n < 0xd800) : (Char.ofNat n).toNat = n := by
  have hv : n.isValidChar := Or.inl h
  rw [Char.ofNat, dif_pos hv]
  rfl

theorem hexValue?_hexDigit {n : Nat} (h : n < 16) : hexValue? (hexDigit n) = some n := by
  unfold hexDigit
  by_cases hn : n < 10
  · rw [if_pos hn]
    have hc : (Char.ofNat (48 + n)).toNat = 48 + n := toNat_ofNat (by omega)
    have hrange : '0' ≤ Char.ofNat (48 + n) ∧ Char.ofNat (48 + n) ≤ '9' := by
      simp only [Char.le_def, UInt32.le_iff_toNat_le]
      change 48 ≤ (Char.ofNat (48 + n)).toNat ∧ (Char.ofNat (48 + n)).toNat ≤ 57
      omega
    unfold hexValue?
    rw [if_pos hrange, hc]
    congr 1
    omega
  · rw [if_neg hn]
    have hc : (Char.ofNat (87 + n)).toNat = 87 + n := toNat_ofNat (by omega)
    have hout : ¬('0' ≤ Char.ofNat (87 + n) ∧ Char.ofNat (87 + n) ≤ '9') := by
      simp only [Char.le_def, UInt32.le_iff_toNat_le]
      change ¬(48 ≤ (Char.ofNat (87 + n)).toNat ∧ (Char.ofNat (87 + n)).toNat ≤ 57)
      omega
    have hrange : 'a' ≤ Char.ofNat (87 + n) ∧ Char.ofNat (87 + n) ≤ 'f' := by
      simp only [Char.le_def, UInt32.le_iff_toNat_le]
      change 97 ≤ (Char.ofNat (87 + n)).toNat ∧ (Char.ofNat (87 + n)).toNat ≤ 102
      omega
    unfold hexValue?
    rw [if_neg hout, if_pos hrange, hc]
    congr 1
    omega

/-- The four digits of a code unit have its value. -/
theorem hex4Value?_hex4 {n : Nat} (h : n < 0x10000) :
    hex4Value? (hexDigit (n / 4096 % 16)) (hexDigit (n / 256 % 16)) (hexDigit (n / 16 % 16))
      (hexDigit (n % 16)) = some n := by
  unfold hex4Value?
  rw [hexValue?_hexDigit (Nat.mod_lt _ (by decide)), hexValue?_hexDigit (Nat.mod_lt _ (by decide)),
    hexValue?_hexDigit (Nat.mod_lt _ (by decide)), hexValue?_hexDigit (Nat.mod_lt _ (by decide))]
  show some (((n / 4096 % 16 * 16 + n / 256 % 16) * 16 + n / 16 % 16) * 16 + n % 16) = some n
  congr 1
  omega

/-! ## Forms -/

/-- The ways to write a character in a string. -/
inductive Escaped : Char → List Char → Prop
  | plain {c : Char} (quote : c ≠ '"') (backslash : c ≠ '\\') (least : 32 ≤ c.toNat) (ascii : c.toNat < 128) :
      Escaped c [c]
  | short {c e : Char} (meaning : unescape? e = some c) (other : e ≠ 'u') (ascii : e.toNat < 128) :
      Escaped c ['\\', e]
  | unit {n : Nat} (bound : n < 0x10000) (whole : isPairHalf n = false) :
      Escaped (Char.ofNat n) (unitEscape n)
  | pair {high low : Nat} (isHigh : isHighSurrogate high = true) (isLow : isLowSurrogate low = true) :
      Escaped (pairChar high low) (unitEscape high ++ unitEscape low)

theorem shortEscape?_eq_some {c e : Char} (h : shortEscape? c = some e) :
    unescape? e = some c ∧ e ≠ 'u' ∧ e.toNat < 128 := by
  unfold shortEscape? at h
  -- five characters with a name, then two that are told by their number
  iterate 5
    split at h
    · next hc =>
      cases h
      subst hc
      decide
  iterate 2
    split at h
    · next hc =>
      cases h
      rw [← Char.ofNat_toNat c, hc]
      decide
  cases h

/-- A character of one unit is escaped by its number. -/
theorem escaped_small {c : Char} (h : c.toNat < 0x10000) : Escaped c (unitEscape c.toNat) := by
  have hvalid : c.toNat < 0xd800 ∨ 0xdfff < c.toNat ∧ c.toNat < 0x110000 := c.valid
  have hwhole : isPairHalf c.toNat = false := by
    unfold isPairHalf
    simp only [Bool.and_eq_false_iff, decide_eq_false_iff_not]
    omega
  have hunit := Escaped.unit h hwhole
  rw [Char.ofNat_toNat] at hunit
  exact hunit

/-- A character that is no surrogate is escaped as one unit or as a pair. -/
theorem escaped_unicodeEscape (c : Char) : Escaped c (unicodeEscape c) := by
  have hvalid : c.toNat < 0xd800 ∨ 0xdfff < c.toNat ∧ c.toNat < 0x110000 := c.valid
  unfold unicodeEscape
  dsimp only
  by_cases hsmall : c.toNat < 0x10000
  · rw [if_pos hsmall]
    exact escaped_small hsmall
  · rw [if_neg hsmall]
    have hhigh : isHighSurrogate (0xd800 + (c.toNat - 0x10000) / 1024) = true := by
      unfold isHighSurrogate
      simp only [Bool.and_eq_true, decide_eq_true_eq]
      omega
    have hlow : isLowSurrogate (0xdc00 + (c.toNat - 0x10000) % 1024) = true := by
      unfold isLowSurrogate
      simp only [Bool.and_eq_true, decide_eq_true_eq]
      omega
    have hpair := Escaped.pair hhigh hlow
    have hchar : pairChar (0xd800 + (c.toNat - 0x10000) / 1024) (0xdc00 + (c.toNat - 0x10000) % 1024) = c := by
      unfold pairChar
      rw [show 0x10000 + (0xd800 + (c.toNat - 0x10000) / 1024 - 0xd800) * 1024
        + (0xdc00 + (c.toNat - 0x10000) % 1024 - 0xdc00) = c.toNat by omega]
      exact Char.ofNat_toNat c
    rw [hchar] at hpair
    exact hpair

/-- **On the wire every character has one of the forms.** -/
theorem escaped_wire (c : Char) : Escaped c (PrintStyle.wire.escapeChar c) := by
  unfold PrintStyle.escapeChar
  cases hs : shortEscape? c with
  | some e =>
    obtain ⟨hmeaning, hother, hascii⟩ := shortEscape?_eq_some hs
    exact .short hmeaning hother hascii
  | none =>
    dsimp only
    by_cases hslash : c = '/' ∧ PrintStyle.wire.escapeSolidus = true
    · rw [if_pos hslash, hslash.1]
      exact .short rfl (by decide) (by decide)
    rw [if_neg hslash]
    by_cases hcontrol : c.toNat < 32
    · rw [if_pos hcontrol]
      exact escaped_small (by omega)
    rw [if_neg hcontrol]
    by_cases hbeyond : PrintStyle.wire.asciiOnly = true ∧ 128 ≤ c.toNat
    · rw [if_pos hbeyond]
      exact escaped_unicodeEscape c
    · rw [if_neg hbeyond]
      have hnodelete : ¬(PrintStyle.wire.escapeDelete = true ∧ c.toNat = 127) := by
        rintro ⟨hdelete, -⟩
        cases hdelete
      rw [if_neg hnodelete]
      have hascii : c.toNat < 128 := Nat.lt_of_not_le fun hle => hbeyond ⟨rfl, hle⟩
      refine .plain ?_ ?_ (by omega) hascii
      · rintro rfl
        cases hs
      · rintro rfl
        cases hs

/-- A form has ASCII characters only. -/
theorem Escaped.ascii {c : Char} {e : List Char} (h : Escaped c e) : ∀ x ∈ e, x.toNat < 128 := by
  have hdigit : ∀ n, n < 16 → (hexDigit n).toNat < 128 := by
    intro n hn
    unfold hexDigit
    by_cases hsmall : n < 10
    · rw [if_pos hsmall, toNat_ofNat (by omega)]
      omega
    · rw [if_neg hsmall, toNat_ofNat (by omega)]
      omega
  have hunit : ∀ n, ∀ x ∈ unitEscape n, x.toNat < 128 := by
    intro n x hx
    unfold unitEscape hex4 at hx
    simp only [List.mem_cons, List.not_mem_nil, or_false] at hx
    rcases hx with rfl | rfl | rfl | rfl | rfl | rfl
    · decide
    · decide
    all_goals exact hdigit _ (Nat.mod_lt _ (by decide))
  cases h with
  | plain _ _ _ hascii =>
    intro x hx
    rw [List.mem_singleton.mp hx]
    exact hascii
  | short _ _ hascii =>
    intro x hx
    simp only [List.mem_cons, List.not_mem_nil, or_false] at hx
    rcases hx with rfl | rfl
    · decide
    · exact hascii
  | unit _ _ => exact hunit _
  | pair _ _ =>
    intro x hx
    rcases List.mem_append.mp hx with hx | hx
    · exact hunit _ x hx
    · exact hunit _ x hx

/-! ## Reading -/

variable {c : Char} {e r opening start : List Char}

theorem readString_plain (raw : Bool) (hquote : c ≠ '"') (hbackslash : c ≠ '\\') (hleast : 32 ≤ c.toNat) :
    readString raw opening (c :: r) = prependChar c (readString raw opening r) := by
  rw [readString, if_neg hquote, if_neg hbackslash, if_neg]
  omega

/-- An escape is read as the character that it stands for. -/
theorem readString_escaped (raw : Bool) (h : readEscape opening ('\\' :: e) e = .ok (c, r)) :
    readString raw opening ('\\' :: e) = prependChar c (readString raw opening r) := by
  rw [readString, if_neg (by decide), if_pos rfl]
  split
  · next hfail =>
    rw [h] at hfail
    cases hfail
  · next hread =>
    rw [h] at hread
    cases hread
    rfl

/-- An escape that cannot be read fails the string. -/
theorem readString_failed (raw : Bool) {fault : ReadError}
    (h : readEscape opening ('\\' :: e) e = .error fault) :
    readString raw opening ('\\' :: e) = .error fault := by
  rw [readString, if_neg (by decide), if_pos rfl]
  split
  · next hfail =>
    rw [h] at hfail
    cases hfail
    rfl
  · next hread =>
    rw [h] at hread
    cases hread

/-- The escape of two characters. -/
theorem readEscape_letter {letter : Char} (hother : letter ≠ 'u') (hmeaning : unescape? letter = some c) :
    readEscape opening start (letter :: r) = .ok (c, r) := by
  unfold readEscape
  simp only [hother, if_false, hmeaning]

/-- The escape of one unit, with at least one character after it. -/
theorem readEscape_unit {n : Nat} (hn : n < 0x10000) (hr : r ≠ []) :
    readEscape opening start ('u' :: (hex4 n ++ r)) = readUnit n r := by
  obtain ⟨x, r', rfl⟩ := List.exists_cons_of_ne_nil hr
  unfold hex4
  simp only [List.cons_append, List.nil_append, readEscape, if_true, hex4Value?_hex4 hn]

theorem readUnit_whole {n : Nat} (hwhole : isPairHalf n = false) (r : List Char) :
    readUnit n r = .ok (Char.ofNat n, r) := by
  have hnothigh : isHighSurrogate n = false := by
    unfold isPairHalf at hwhole
    unfold isHighSurrogate
    simp only [Bool.and_eq_false_iff, decide_eq_false_iff_not] at *
    omega
  unfold readUnit unitChar
  rw [hnothigh, hwhole]
  rfl

theorem lt_of_isHighSurrogate {n : Nat} (h : isHighSurrogate n = true) : n < 0x10000 := by
  unfold isHighSurrogate at h
  simp only [Bool.and_eq_true, decide_eq_true_eq] at h
  omega

theorem lt_of_isLowSurrogate {n : Nat} (h : isLowSurrogate n = true) : n < 0x10000 := by
  unfold isLowSurrogate at h
  simp only [Bool.and_eq_true, decide_eq_true_eq] at h
  omega

theorem readUnit_pair {high low : Nat} (hhigh : isHighSurrogate high = true)
    (hlow : isLowSurrogate low = true) (hr : r ≠ []) :
    readUnit high (unitEscape low ++ r) = .ok (pairChar high low, r) := by
  obtain ⟨x, r', rfl⟩ := List.exists_cons_of_ne_nil hr
  have hdigits := hex4Value?_hex4 (lt_of_isLowSurrogate hlow)
  unfold readUnit unitEscape hex4
  simp only [hhigh, if_true, List.cons_append, List.nil_append, hdigits, hlow]

/-- **A form is read as its character**, if it is not the last thing in the text. -/
theorem Escaped.readString (h : Escaped c e) (opening : List Char) (hr : r ≠ []) :
    readString true opening (e ++ r) = prependChar c (EditorServices.readString true opening r) := by
  cases h with
  | plain hquote hbackslash hleast _ => exact readString_plain true hquote hbackslash hleast
  | short hmeaning hother _ => exact readString_escaped true (readEscape_letter hother hmeaning)
  | @unit n hbound hwhole =>
    refine readString_escaped true ?_
    exact (readEscape_unit hbound hr).trans (readUnit_whole hwhole r)
  | @pair high low hhigh hlow =>
    rw [List.append_assoc]
    refine readString_escaped true ?_
    have hmore : unitEscape low ++ r ≠ [] := List.cons_ne_nil _ _
    exact (readEscape_unit (lt_of_isHighSurrogate hhigh) hmore).trans (readUnit_pair hhigh hlow hr)

/-- The reader fails on a text. -/
def Fails {α : Type} (x : Except ReadError α) : Prop := ∃ fault, x = .error fault

theorem Fails.prependChar {x : Except ReadError (List Char × List Char)} (h : Fails x) (c : Char) :
    Fails (prependChar c x) := by
  obtain ⟨fault, rfl⟩ := h
  exact ⟨fault, rfl⟩

theorem fails_readString_nil (raw : Bool) (opening : List Char) : Fails (readString raw opening []) := by
  rw [readString]
  exact ⟨_, rfl⟩

/-- A backslash and `u` with fewer than five characters after them. -/
theorem readEscape_cut (hlength : r.length < 5) :
    readEscape opening start ('u' :: r) = .error ⟨.badUnicodeEscape, 'u' :: r⟩ := by
  rw [readEscape, if_pos rfl]
  intro a b c d last rest hr
  rw [hr] at hlength
  simp only [List.length_cons] at hlength
  omega

/-- What a text breaks off to, if it breaks off in its first part or in its second. -/
theorem cut_append {α : Type} {q a b : List α} (h : q <+: a ++ b) :
    q <+: a ∨ ∃ q', q' ≠ [] ∧ q = a ++ q' ∧ q' <+: b := by
  rcases List.prefix_or_prefix_of_prefix h (List.prefix_append a b) with hqa | ⟨q', rfl⟩
  · exact Or.inl hqa
  · by_cases hq' : q' = []
    · left
      exact ⟨[], by rw [hq', List.append_nil, List.append_nil]⟩
    · exact Or.inr ⟨q', hq', rfl, (List.prefix_append_right_inj a).mp h⟩

/-- The escape of a unit that breaks off, or after which nothing comes. -/
theorem fails_unitEscape {n : Nat} (raw : Bool) (opening : List Char) {q : List Char}
    (hq : q <+: unitEscape n) : Fails (readString raw opening q) := by
  unfold unitEscape at hq
  rcases List.prefix_cons_iff.mp hq with rfl | ⟨q₁, rfl, hq₁⟩
  · exact fails_readString_nil raw opening
  rcases List.prefix_cons_iff.mp hq₁ with rfl | ⟨q₂, rfl, hq₂⟩
  · exact ⟨_, readString_failed raw rfl⟩
  · have hlength : q₂.length ≤ 4 := hq₂.length_le
    exact ⟨_, readString_failed raw (readEscape_cut (by omega))⟩

/-- Half of a pair, with less than a whole second escape after it. -/
theorem readUnit_half {n : Nat} (hlength : r.length < 7) : readUnit n r = .ok (unitChar n, r) := by
  unfold readUnit
  by_cases hhigh : isHighSurrogate n = true
  · rw [if_pos hhigh]
    split
    · simp only [List.length_cons] at hlength
      omega
    · rfl
  · rw [if_neg hhigh]

/-- **A form that breaks off, or after which nothing comes, is not read.** -/
theorem Escaped.cut (h : Escaped c e) (opening : List Char) {q : List Char} (hq : q <+: e) :
    Fails (EditorServices.readString true opening q) := by
  cases h with
  | plain hquote hbackslash hleast _ =>
    rcases List.prefix_cons_iff.mp hq with rfl | ⟨q₁, rfl, hq₁⟩
    · exact fails_readString_nil true opening
    · rw [List.prefix_nil.mp hq₁, readString_plain true hquote hbackslash hleast]
      exact (fails_readString_nil true opening).prependChar c
  | short hmeaning hother _ =>
    rcases List.prefix_cons_iff.mp hq with rfl | ⟨q₁, rfl, hq₁⟩
    · exact fails_readString_nil true opening
    rcases List.prefix_cons_iff.mp hq₁ with rfl | ⟨q₂, rfl, hq₂⟩
    · exact ⟨_, readString_failed true rfl⟩
    · rw [List.prefix_nil.mp hq₂, readString_escaped true (readEscape_letter hother hmeaning)]
      exact (fails_readString_nil true opening).prependChar c
  | unit _ _ => exact fails_unitEscape true opening hq
  | @pair high low hhigh hlow =>
    rcases cut_append hq with hq | ⟨q', hne, rfl, hq'⟩
    · exact fails_unitEscape true opening hq
    · -- the first escape is read as a half that stands alone, and the second breaks off
      have hlength : q'.length ≤ 6 := hq'.length_le
      have hread : readEscape opening (unitEscape high ++ q') ('u' :: (hex4 high ++ q')) =
          .ok (unitChar high, q') :=
        (readEscape_unit (lt_of_isHighSurrogate hhigh) hne).trans (readUnit_half (by omega))
      have hstring : EditorServices.readString true opening (unitEscape high ++ q') = _ :=
        readString_escaped true hread
      rw [hstring]
      exact (fails_unitEscape true opening hq').prependChar _

/-! ## Strings -/

/-- **A string is read as it was written**, up to its closing quote. -/
theorem readString_escape (s opening rest : List Char) :
    readString true opening (PrintStyle.wire.escape s ++ '"' :: rest) = .ok (s, rest) := by
  induction s with
  | nil =>
    show readString true opening ('"' :: rest) = _
    rw [readString, if_pos rfl]
  | cons c s ih =>
    have hmore : PrintStyle.wire.escape s ++ '"' :: rest ≠ [] := by simp
    show readString true opening ((PrintStyle.wire.escapeChar c ++ PrintStyle.wire.escape s) ++ '"' :: rest) = _
    rw [List.append_assoc, (escaped_wire c).readString opening hmore, ih]
    rfl

/-- **A string that breaks off is not read.** -/
theorem readString_cut (s opening : List Char) {q : List Char} (hq : q <+: PrintStyle.wire.escape s ++ ['"'])
    (hne : q ≠ PrintStyle.wire.escape s ++ ['"']) : Fails (readString true opening q) := by
  induction s generalizing q with
  | nil =>
    rcases List.prefix_cons_iff.mp hq with rfl | ⟨q', rfl, hq'⟩
    · exact fails_readString_nil true opening
    · rw [List.prefix_nil.mp hq'] at hne
      exact absurd rfl hne
  | cons c s ih =>
    have hsplit : PrintStyle.wire.escape (c :: s) ++ ['"'] =
        PrintStyle.wire.escapeChar c ++ (PrintStyle.wire.escape s ++ ['"']) := List.append_assoc _ _ _
    rw [hsplit] at hq hne
    rcases cut_append hq with hq | ⟨q', hq'ne, rfl, hq'⟩
    · exact (escaped_wire c).cut opening hq
    · rw [(escaped_wire c).readString opening hq'ne]
      refine (ih hq' ?_).prependChar c
      rintro rfl
      exact hne rfl

end EditorServices
