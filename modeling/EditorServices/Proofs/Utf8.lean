import EditorServices.Text.Utf8Fault

/-!
# `Proofs.Utf8` — texts are read from the bytes that they are written as

A character is written as one to four bytes. The first one tells how many there are, the others hold six bits
each, and the number that they make up is no less than what needs that many bytes.

## Contents
- **Bytes.** What single bytes are read as.
- **Characters.** One lemma for each length, and `utf8Decode?_utf8Char`.
- **Texts.** `utf8Decode?_utf8Encode`, and `readFileText_utf8Encode` for files.
-/

namespace EditorServices

/-! ## Bytes -/

theorem toNat_byte {n : Nat} (h : n < 256) : (UInt8.ofNat n).toNat = n := by
  rw [UInt8.toNat_ofNat']
  omega

/-- A byte in a range, and one above it. -/
theorem byte_between {a low high : UInt8} (hlow : low.toNat ≤ a.toNat) (hhigh : a.toNat < high.toNat) :
    low ≤ a ∧ a < high :=
  ⟨UInt8.le_iff_toNat_le.mpr hlow, UInt8.lt_iff_toNat_lt.mpr hhigh⟩

theorem not_byte_lt {a high : UInt8} (h : high.toNat ≤ a.toNat) : ¬ a < high := fun hlt =>
  Nat.not_lt.mpr h (UInt8.lt_iff_toNat_lt.mp hlt)

/-- A byte that holds six bits. -/
theorem tailBits?_ofNat {n : Nat} (h : n < 64) : tailBits? (UInt8.ofNat (0x80 + n)) = some n := by
  have hbyte : (UInt8.ofNat (0x80 + n)).toNat = 0x80 + n := toNat_byte (by omega)
  have hlow : (0x80 : UInt8).toNat ≤ (UInt8.ofNat (0x80 + n)).toNat := by
    rw [hbyte]
    exact Nat.le_add_right 0x80 n
  have hhigh : (UInt8.ofNat (0x80 + n)).toNat < (0xc0 : UInt8).toNat := by
    rw [hbyte]
    exact Nat.add_lt_add_left h 0x80
  unfold tailBits?
  rw [if_pos (byte_between hlow hhigh), hbyte, Nat.add_sub_cancel_left]

theorem scalar?_toNat {c : Char} {least : Nat} (h : least ≤ c.toNat) : scalar? least c.toNat = some c := by
  have hvalid : c.toNat.isValidChar := c.valid
  unfold scalar?
  rw [if_pos ⟨h, hvalid⟩, Char.ofNat_toNat]

/-! ## Characters -/

section

variable {a b₁ b₂ b₃ : UInt8} {n n₁ n₂ n₃ : Nat} {c : Char}

theorem utf8Decode?_one (ha : a.toNat = c.toNat) (hc : c.toNat < 0x80) (r : Bytes) :
    utf8Decode? (a :: r) = (utf8Decode? r).map (c :: ·) := by
  have hlt : a < 0x80 := UInt8.lt_iff_toNat_lt.mpr (ha ▸ hc)
  rw [utf8Decode?.eq_def]
  dsimp only
  rw [if_pos hlt, ha, Char.ofNat_toNat]

theorem utf8Decode?_two (ha : a.toNat = 0xc0 + n) (hn : n < 32) (h₁ : tailBits? b₁ = some n₁)
    (hc : n * 64 + n₁ = c.toNat) (hleast : 0x80 ≤ c.toNat) (r : Bytes) :
    utf8Decode? (a :: b₁ :: r) = (utf8Decode? r).map (c :: ·) := by
  have hone : ¬ a < 0x80 := not_byte_lt (ha ▸ (by show 0x80 ≤ 0xc0 + n; omega))
  have htwo : 0xc0 ≤ a ∧ a < 0xe0 :=
    byte_between (ha ▸ Nat.le_add_right 0xc0 n) (ha ▸ Nat.add_lt_add_left hn 0xc0)
  rw [utf8Decode?.eq_def]
  dsimp only
  rw [if_neg hone, if_pos htwo, h₁, ha, Nat.add_sub_cancel_left]
  rw [Option.bind_eq_bind, Option.bind_some, Option.bind_eq_bind, hc, scalar?_toNat hleast, Option.bind_some]

theorem utf8Decode?_three (ha : a.toNat = 0xe0 + n) (hn : n < 16) (h₁ : tailBits? b₁ = some n₁)
    (h₂ : tailBits? b₂ = some n₂) (hc : n * 4096 + n₁ * 64 + n₂ = c.toNat) (hleast : 0x800 ≤ c.toNat)
    (r : Bytes) : utf8Decode? (a :: b₁ :: b₂ :: r) = (utf8Decode? r).map (c :: ·) := by
  have hone : ¬ a < 0x80 := not_byte_lt (ha ▸ (by show 0x80 ≤ 0xe0 + n; omega))
  have htwo : ¬ (0xc0 ≤ a ∧ a < 0xe0) := fun h => not_byte_lt (ha ▸ Nat.le_add_right 0xe0 n) h.2
  have hthree : 0xe0 ≤ a ∧ a < 0xf0 :=
    byte_between (ha ▸ Nat.le_add_right 0xe0 n) (ha ▸ Nat.add_lt_add_left hn 0xe0)
  rw [utf8Decode?.eq_def]
  dsimp only
  rw [if_neg hone, if_neg htwo, if_pos hthree, h₁, h₂, ha, Nat.add_sub_cancel_left]
  rw [Option.bind_eq_bind, Option.bind_some, Option.bind_eq_bind, Option.bind_some, hc, scalar?_toNat hleast,
    Option.bind_some]

theorem utf8Decode?_four (ha : a.toNat = 0xf0 + n) (hn : n < 8) (h₁ : tailBits? b₁ = some n₁)
    (h₂ : tailBits? b₂ = some n₂) (h₃ : tailBits? b₃ = some n₃)
    (hc : n * 262144 + n₁ * 4096 + n₂ * 64 + n₃ = c.toNat) (hleast : 0x10000 ≤ c.toNat) (r : Bytes) :
    utf8Decode? (a :: b₁ :: b₂ :: b₃ :: r) = (utf8Decode? r).map (c :: ·) := by
  have hone : ¬ a < 0x80 := not_byte_lt (ha ▸ (by show 0x80 ≤ 0xf0 + n; omega))
  have htwo : ¬ (0xc0 ≤ a ∧ a < 0xe0) := fun h =>
    not_byte_lt (ha ▸ (by show 0xe0 ≤ 0xf0 + n; omega)) h.2
  have hthree : ¬ (0xe0 ≤ a ∧ a < 0xf0) := fun h => not_byte_lt (ha ▸ Nat.le_add_right 0xf0 n) h.2
  have hfour : 0xf0 ≤ a ∧ a < 0xf8 :=
    byte_between (ha ▸ Nat.le_add_right 0xf0 n) (ha ▸ Nat.add_lt_add_left hn 0xf0)
  rw [utf8Decode?.eq_def]
  dsimp only
  rw [if_neg hone, if_neg htwo, if_neg hthree, if_pos hfour, h₁, h₂, h₃, ha, Nat.add_sub_cancel_left]
  rw [Option.bind_eq_bind, Option.bind_some, Option.bind_eq_bind, Option.bind_some, Option.bind_some, hc,
    scalar?_toNat hleast, Option.bind_some]

end

/-- **A character is read from its bytes.** -/
theorem utf8Decode?_utf8Char (c : Char) (r : Bytes) :
    utf8Decode? (utf8Char c ++ r) = (utf8Decode? r).map (c :: ·) := by
  have hbound : c.toNat < 0x110000 := by
    rcases c.valid with h | h
    · exact Nat.lt_trans h (by decide)
    · exact h.2
  have htail (n : Nat) : tailBits? (UInt8.ofNat (0x80 + n % 64)) = some (n % 64) :=
    tailBits?_ofNat (Nat.mod_lt n (by decide))
  unfold utf8Char
  dsimp only
  by_cases h₁ : c.toNat < 0x80
  · rw [if_pos h₁]
    exact utf8Decode?_one (toNat_byte (by omega)) h₁ r
  rw [if_neg h₁]
  by_cases h₂ : c.toNat < 0x800
  · rw [if_pos h₂]
    exact utf8Decode?_two (toNat_byte (by omega)) (by omega) (htail _) (by omega) (by omega) r
  rw [if_neg h₂]
  by_cases h₃ : c.toNat < 0x10000
  · rw [if_pos h₃]
    exact utf8Decode?_three (toNat_byte (by omega)) (by omega) (htail _) (htail _) (by omega) (by omega) r
  · rw [if_neg h₃]
    exact utf8Decode?_four (toNat_byte (by omega)) (by omega) (htail _) (htail _) (htail _) (by omega)
      (by omega) r

/-! ## Texts -/

/-- **A text is read from its bytes.** -/
theorem utf8Decode?_utf8Encode (s : List Char) : utf8Decode? (utf8Encode s) = some s := by
  induction s with
  | nil => rfl
  | cons c s ih =>
    show utf8Decode? (utf8Char c ++ utf8Encode s) = _
    rw [utf8Decode?_utf8Char, ih]
    rfl

/-- The text of a file is read as it was written, if its lines end in line feeds. -/
theorem readFileText_utf8Encode {s : List Char} (h : '\r' ∉ s) : readFileText (utf8Encode s) = .ok s := by
  unfold readFileText fileText?
  rw [utf8Decode?_utf8Encode, Option.map_some, universalNewlines_eq_self_iff.mpr h]

end EditorServices
