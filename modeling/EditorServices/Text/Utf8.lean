/-!
# `Text.Utf8` — characters as bytes

## Contents
- **Writing.** `utf8Char` gives one character's bytes, `utf8Encode` those of a text.
- **Reading.** `utf8Decode?` refuses everything that is not the shortest form of a scalar value.
- **Line ends.** `universalNewlines` reads every line end as a line feed.
-/

namespace EditorServices

/-- Bytes in order. -/
abbrev Bytes := List UInt8

/-! ## Writing -/

/-- The bytes of a character. -/
def utf8Char (c : Char) : Bytes :=
  let n := c.toNat
  if n < 0x80 then [UInt8.ofNat n]
  else if n < 0x800 then [UInt8.ofNat (0xc0 + n / 64), UInt8.ofNat (0x80 + n % 64)]
  else if n < 0x10000 then
    [UInt8.ofNat (0xe0 + n / 4096), UInt8.ofNat (0x80 + n / 64 % 64), UInt8.ofNat (0x80 + n % 64)]
  else
    [UInt8.ofNat (0xf0 + n / 262144), UInt8.ofNat (0x80 + n / 4096 % 64),
     UInt8.ofNat (0x80 + n / 64 % 64), UInt8.ofNat (0x80 + n % 64)]

/-- The bytes of a text. -/
def utf8Encode (s : List Char) : Bytes := s.flatMap utf8Char

/-! ## Reading -/

/-- The value of a continuation byte. -/
def tailBits? (b : UInt8) : Option Nat :=
  if 0x80 ≤ b ∧ b < 0xc0 then some (b.toNat - 0x80) else none

/-- A scalar value of at least `least`. -/
def scalar? (least n : Nat) : Option Char :=
  if least ≤ n ∧ n.isValidChar then some (Char.ofNat n) else none

/-- The text of the bytes, if they are well formed. -/
def utf8Decode? : Bytes → Option (List Char)
  | [] => some []
  | a :: r =>
    if a < 0x80 then (utf8Decode? r).map (Char.ofNat a.toNat :: ·)
    else if 0xc0 ≤ a ∧ a < 0xe0 then
      match r with
      | b :: r => do
        let b ← tailBits? b
        let c ← scalar? 0x80 ((a.toNat - 0xc0) * 64 + b)
        (utf8Decode? r).map (c :: ·)
      | _ => none
    else if 0xe0 ≤ a ∧ a < 0xf0 then
      match r with
      | b :: c :: r => do
        let b ← tailBits? b
        let c ← tailBits? c
        let d ← scalar? 0x800 ((a.toNat - 0xe0) * 4096 + b * 64 + c)
        (utf8Decode? r).map (d :: ·)
      | _ => none
    else if 0xf0 ≤ a ∧ a < 0xf8 then
      match r with
      | b :: c :: d :: r => do
        let b ← tailBits? b
        let c ← tailBits? c
        let d ← tailBits? d
        let e ← scalar? 0x10000 ((a.toNat - 0xf0) * 262144 + b * 4096 + c * 64 + d)
        (utf8Decode? r).map (e :: ·)
      | _ => none
    else none

/-! ## Line ends -/

/-- A text with every carriage return, alone or before a line feed, read as a line feed. -/
def universalNewlines : List Char → List Char
  | [] => []
  | '\r' :: '\n' :: r => '\n' :: universalNewlines r
  | '\r' :: r => '\n' :: universalNewlines r
  | c :: r => c :: universalNewlines r

theorem not_mem_universalNewlines (s : List Char) : '\r' ∉ universalNewlines s := by
  fun_induction universalNewlines s with
  | case1 => exact List.not_mem_nil
  | case2 r ih => exact List.not_mem_cons_of_ne_of_not_mem (by decide) ih
  | case3 r _ ih => exact List.not_mem_cons_of_ne_of_not_mem (by decide) ih
  | case4 c r _ hc ih => exact List.not_mem_cons_of_ne_of_not_mem (fun h => hc h.symm) ih

/-- A text is as it was exactly if it has no carriage return. -/
theorem universalNewlines_eq_self_iff {s : List Char} : universalNewlines s = s ↔ '\r' ∉ s := by
  refine ⟨fun h => h ▸ not_mem_universalNewlines s, fun h => ?_⟩
  fun_induction universalNewlines s with
  | case1 => rfl
  | case2 r ih => exact absurd List.mem_cons_self h
  | case3 r _ ih => exact absurd List.mem_cons_self h
  | case4 c r _ _ ih => rw [ih (List.not_mem_of_not_mem_cons h)]

theorem length_universalNewlines_le (s : List Char) : (universalNewlines s).length ≤ s.length := by
  fun_induction universalNewlines s with
  | case1 => exact Nat.le_refl 0
  | case2 r ih => exact Nat.le_succ_of_le (Nat.succ_le_succ ih)
  | case3 r _ ih => exact Nat.succ_le_succ ih
  | case4 c r _ _ ih => exact Nat.succ_le_succ ih

/-- The text of a file: well-formed bytes with uniform line ends. -/
def fileText? (bytes : Bytes) : Option (List Char) := (utf8Decode? bytes).map universalNewlines

end EditorServices
