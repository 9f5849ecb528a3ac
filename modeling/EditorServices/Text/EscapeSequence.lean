/-!
# `Text.EscapeSequence` — characters and sequences that steer a terminal

A sequence is the escape character, an opening bracket, parameters and a letter.

## Contents
- `isControl`: the characters that steer a terminal by themselves.
- `withoutSequences`: a text without its sequences.
-/

namespace EditorServices

/-- Characters that move a terminal's cursor; they are not part of a line. -/
def isControl (c : Char) : Bool :=
  let n := c.toNat
  n == 7 || n == 8 || n == 11 || n == 12 || n == 13

/-- The character that starts a sequence. -/
def escapeChar : Char := Char.ofNat 0x1b

/-- Whether a character can be among the parameters of a sequence. -/
def isParameter (c : Char) : Bool := c = ';' || c = '?' || c.isDigit

/-- What follows the parameters and the letter of a sequence. -/
def afterParameters? : List Char → Option (List Char)
  | [] => none
  | c :: r =>
    if isParameter c then afterParameters? r
    else if c.isAlpha then some r
    else none

theorem afterParameters?_length {s rest : List Char} (h : afterParameters? s = some rest) :
    rest.length < s.length := by
  induction s with
  | nil => simp [afterParameters?] at h
  | cons c r ih =>
    rw [afterParameters?] at h
    split at h
    · exact Nat.lt_succ_of_lt (ih h)
    · split at h
      · rw [Option.some.injEq] at h
        rw [h]
        exact Nat.lt_succ_self _
      · simp at h

/-- What follows a sequence whose escape character stood before a text. -/
def afterSequence? : List Char → Option (List Char)
  | '[' :: r => afterParameters? r
  | _ => none

theorem afterSequence?_length {s rest : List Char} (h : afterSequence? s = some rest) :
    rest.length < s.length := by
  unfold afterSequence? at h
  split at h
  · exact Nat.lt_succ_of_lt (afterParameters?_length h)
  · simp at h

/-- A text without its sequences. -/
def withoutSequences (s : List Char) : List Char :=
  match s with
  | [] => []
  | c :: r =>
    if c = escapeChar then
      match h : afterSequence? r with
      | some rest =>
        have : rest.length < r.length := afterSequence?_length h
        withoutSequences rest
      | none => c :: withoutSequences r
    else c :: withoutSequences r
termination_by s.length
decreasing_by
  all_goals simp only [List.length_cons]; omega

end EditorServices
