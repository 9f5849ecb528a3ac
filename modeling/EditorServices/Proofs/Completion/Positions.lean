import EditorServices.Completion.Cursor

/-!
# `Proofs.Completion.Positions` — params for every cursor

A cursor is a line and a character of any sign. The line is looked up before the position is checked, and a
negative one counts from the end. So a position that is not accepted is refused as such, unless its line as
counted from the end lies above the first one: then the lookup fails before anything is checked.

## Contents
- **Lines.** `AreLines`, what stands between the line feeds of a text; `lineAt?_eq_none_iff`.
- **Positions.** `belowZero`, the issues of a position, and `check_position`.
- **The headline.** `at_every_cursor`, with the lines that are out of range.
- **Values of any kind.** `exists_read_iff`: a cursor of the right kinds is read exactly if it is not negative.
-/

namespace EditorServices.Completion.Params

open Schema

variable {text : String} {pieces : List (List Char)}

/-! ## Lines -/

/-- The lines of a text: they hold no line feed, and joined by line feeds they are the text. -/
structure AreLines (text : String) (pieces : List (List Char)) : Prop where
  nonempty : pieces ≠ []
  feedless : ∀ piece ∈ pieces, '\n' ∉ piece
  joined : joinWith ['\n'] pieces = text.toList

/-- A text has its lines and no other ones. -/
theorem areLines_iff : AreLines text pieces ↔ pieces = lines text := by
  constructor
  · rintro ⟨hne, hfeedless, hjoined⟩
    rw [lines, ← hjoined, splitAt1_joinWith hne hfeedless]
  · rintro rfl
    exact ⟨splitAt1_ne_nil _ _, fun piece hpiece => not_mem_of_mem_splitAt1 hpiece, joinWith_splitAt1 _ _⟩

theorem lineAt?_of_nonneg {line : Int} (h : 0 ≤ line) :
    lineAt? pieces line = some ((pieces[line.toNat]?).getD []) := if_pos h

/-- Only above the first line, as counted from the end, there is none. -/
theorem lineAt?_eq_none_iff (pieces : List (List Char)) (line : Int) :
    lineAt? pieces line = none ↔ line < -(pieces.length : Int) := by
  unfold lineAt?
  split
  · simp
    omega
  · next hneg =>
    dsimp only
    split
    · next hback =>
      rw [List.getElem?_eq_none_iff]
      omega
    · simp
      omega

/-! ## Positions -/

/-- The issue of a coordinate that is below zero. -/
def belowZero (name : String) (n : Int) : List Issue := if n < 0 then [⟨[.key name], .atLeast 0, .int n⟩] else []

theorem belowZero_of_nonneg {n : Int} (h : 0 ≤ n) (name : String) : belowZero name n = [] :=
  if_neg (by omega)

/-- A coordinate is a number, or its issue is reported at its name. -/
theorem under_naturalFrom (name : String) (n : Int) :
    (naturalFrom 0 (.int n)).under (.key name) =
      if 0 ≤ n then .valid n.toNat else .invalid (belowZero name n) := by
  have hfrom : naturalFrom 0 (.int n) =
      (if 0 ≤ n then Checked.valid n else .fail (.atLeast 0) (.int n)).map Int.toNat := rfl
  rw [hfrom]
  split
  · rfl
  · next hneg =>
    rw [belowZero, if_pos (by omega)]
    rfl

/-- A position is accepted if neither coordinate is below zero, and else reports on all that are. -/
theorem check_position (line character : Int) :
    Position.check (.obj [("line", .int line), ("character", .int character)]) =
      if 0 ≤ line ∧ 0 ≤ character then .valid ⟨line.toNat, character.toNat⟩
      else .invalid (belowZero "line" line ++ belowZero "character" character) := by
  have hparts : Position.check (.obj [("line", .int line), ("character", .int character)]) =
      Checked.ap (((naturalFrom 0 (.int line)).under (.key "line")).map Position.mk)
        ((naturalFrom 0 (.int character)).under (.key "character")) := rfl
  rw [hparts, under_naturalFrom, under_naturalFrom]
  by_cases hline : 0 ≤ line <;> by_cases hcharacter : 0 ≤ character <;>
    simp [hline, hcharacter, belowZero_of_nonneg, Checked.map, Checked.ap]

/-! ## The headline -/

section
variable {uri : String} {line character : Int} {trigger : Option String}

/-- Params for a line and a character of a text: the current line is the line at that place, and empty behind the
last one; the text before the cursor is as much of it as lies before the character. -/
structure CutAt (uri text : String) (pieces : List (List Char)) (line character : Nat) (params : Params) :
    Prop where
  document : params.document = ⟨uri⟩
  position : params.position = ⟨line, character⟩
  fullText : params.fullText = text
  currentLine : params.currentLine.toList = (pieces[line]?).getD []
  before : params.textBeforeCursor.toList <+: params.currentLine.toList
  length : params.textBeforeCursor.length = min character params.currentLine.length

theorem at_of_nonneg (hline : 0 ≤ line) (hcharacter : 0 ≤ character) :
    ∃ params, Params.at uri text line character trigger = .ok params ∧
      CutAt uri text (lines text) line.toNat character.toNat params := by
  unfold Params.at
  rw [lineAt?_of_nonneg hline]
  dsimp only
  rw [check_position, if_pos ⟨hline, hcharacter⟩]
  refine ⟨_, rfl, rfl, rfl, rfl, String.toList_ofList, ?_, ?_⟩
  · simp only [String.toList_ofList]
    exact List.take_prefix _ _
  · simp

theorem at_of_neg (hneg : line < 0 ∨ character < 0) :
    Params.at uri text line character trigger = .error
      (if line < -((lines text).length : Int) then .outOfRange
        else .invalid "CompletionPosition" (belowZero "line" line ++ belowZero "character" character)) := by
  unfold Params.at
  split
  · next hnone => rw [if_pos ((lineAt?_eq_none_iff _ _).mp hnone)]
  · next current hcurrent =>
    have hfound : ¬ line < -((lines text).length : Int) := by
      rw [← lineAt?_eq_none_iff, hcurrent]
      exact Option.some_ne_none current
    dsimp only
    rw [check_position, if_neg (by omega), if_neg hfound]
    rfl

/-- **Every cursor has its params or is refused.** A text has its lines. For each cursor that is not negative
there are params, cut out of the text at that place. A cursor with a negative coordinate is refused, with an
issue for each of them; but one whose line is further up than the text has lines fails before that, since a
negative line is looked up from the end. -/
theorem at_every_cursor (uri text : String) (line character : Int) (trigger : Option String) :
    ∃ pieces, AreLines text pieces ∧
      (0 ≤ line → 0 ≤ character → ∃ params, Params.at uri text line character trigger = .ok params ∧
        CutAt uri text pieces line.toNat character.toNat params) ∧
      (line < 0 ∨ character < 0 → Params.at uri text line character trigger = .error
        (if line < -(pieces.length : Int) then .outOfRange
          else .invalid "CompletionPosition" (belowZero "line" line ++ belowZero "character" character))) :=
  ⟨lines text, areLines_iff.mpr rfl, at_of_nonneg, at_of_neg⟩

end

/-- A cursor in the second of two lines, and one in the line that is counted from the end. -/
theorem second_line_cut :
    let text := "select\nfrom t"
    (∃ params, Params.at "file:///q.sql" text 1 4 none = .ok params ∧ params.currentLine = "from t" ∧
      params.textBeforeCursor.toList <+: params.currentLine.toList ∧ params.textBeforeCursor.length = 4) ∧
    Params.at "file:///q.sql" text (-1) 4 none =
      .error (.invalid "CompletionPosition" [⟨[.key "line"], .atLeast 0, .int (-1)⟩]) := by
  intro text
  obtain ⟨pieces, hlines, hpositive, -⟩ := at_every_cursor "file:///q.sql" text 1 4 none
  obtain ⟨params, hat, hcut⟩ := hpositive (by decide) (by decide)
  obtain ⟨pieces', hlines', -, hnegative⟩ := at_every_cursor "file:///q.sql" text (-1) 4 none
  have hpieces : lines text = ["select".toList, "from t".toList] := by decide +kernel
  have hcurrent : params.currentLine = "from t" := by
    rw [String.ext_iff, hcut.currentLine, areLines_iff.mp hlines, hpieces]
    rfl
  refine ⟨⟨params, hat, hcurrent, hcut.before, ?_⟩, ?_⟩
  · rw [hcut.length, hcurrent]
    rfl
  · rw [hnegative (Or.inl (by decide)), areLines_iff.mp hlines', hpieces]
    rfl

/-- In a text of one line the second line from the end is out of range, and no position is checked. -/
theorem line_above_out_of_range :
    Params.at "file:///q.sql" "" (-2) 0 none = .error .outOfRange ∧
      ∀ model issues, Params.at "file:///q.sql" "" (-2) 0 none ≠ .error (.invalid model issues) :=
  ⟨rfl, fun _ _ h => by cases h⟩

/-! ## Values of any kind -/

/-- A cursor whose parts are of the right kinds is read exactly if it is not negative, and then the params are
cut out of the text at that place. -/
theorem exists_read_iff (uri text : String) (line character : Int) (trigger : Option String) :
    (∃ params, read (.str uri) (.str text) (.int line) (.int character) (.ofText? trigger) = .ok params ∧
      CutAt uri text (lines text) line.toNat character.toNat params) ↔ 0 ≤ line ∧ 0 ≤ character := by
  rw [read_of_kinds]
  constructor
  · rintro ⟨params, hat, -⟩
    refine Decidable.byContradiction fun hneg => ?_
    rw [at_of_neg (by omega)] at hat
    cases hat
  · rintro ⟨hline, hcharacter⟩
    exact at_of_nonneg hline hcharacter

end EditorServices.Completion.Params
