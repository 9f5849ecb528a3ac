/-!
# `Text.LoneUnit` — halves of surrogate pairs that stand alone

A character beyond sixteen bits is escaped as a pair of code units. One half of such a pair is no
character. Where a text escapes only one half, a character of a block that is set aside stands for
it; no character is assigned in that block.

## Contents
- `loneUnit` and `loneUnit?`, and that the latter undoes the former.
- `isWritable`, whether a text has no such halves.
-/

namespace EditorServices

/-- How far the characters that stand for halves are from the halves. -/
def loneUnitShift : Nat := 0xb0000

/-- Whether a code unit of sixteen bits is a half of a pair. -/
def isPairHalf (n : Nat) : Bool := 0xd800 ≤ n && n < 0xe000

/-- The character that stands for a half of a pair. -/
def loneUnit (n : Nat) : Char := Char.ofNat (loneUnitShift + n)

/-- The half of a pair that a character stands for. -/
def loneUnit? (c : Char) : Option Nat :=
  if loneUnitShift ≤ c.toNat && isPairHalf (c.toNat - loneUnitShift) then
    some (c.toNat - loneUnitShift)
  else none

/-- Whether a text can be written as bytes: it has no half of a pair. -/
def isWritable (s : List Char) : Bool := s.all fun c => (loneUnit? c).isNone

theorem loneUnit?_loneUnit {n : Nat} (h : isPairHalf n = true) :
    loneUnit? (loneUnit n) = some n := by
  have hn : n < 0xe000 := by
    unfold isPairHalf at h
    simp only [Bool.and_eq_true, decide_eq_true_eq] at h
    exact h.2
  have hv : (loneUnitShift + n).isValidChar := by
    right
    unfold loneUnitShift
    omega
  have hc : (loneUnit n).toNat = loneUnitShift + n := by
    rw [loneUnit, Char.ofNat, dif_pos hv]
    rfl
  simp [loneUnit?, hc, h]

end EditorServices
