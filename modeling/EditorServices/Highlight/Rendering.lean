import EditorServices.Highlight.Span
import EditorServices.Text.EscapeSequence
import EditorServices.Text.Split
import EditorServices.Text.Width

/-!
# `Highlight.Rendering` — spans as one line of styled text

## Contents
- **Styled lines.** `StyledLine`, a text with styled ranges, and how it is made of texts in a row.
- **Rendering.** `StyledLine.ofSpan` walks a span; a node without a style of its own takes the style
  of the closest node above it that has one.
- **Tab stops.** `expandTabs`, a line as a terminal shows it. Tab stops are eight columns apart. A tab becomes
  one blank and then as many as lead to a tab stop. A part of a line that ends with a tab therefore ends at a
  tab stop, and each part is measured alone.
-/

namespace EditorServices.Highlight

/-! ## Styled lines -/

/-- The part of a line from one position to another, with a style. -/
structure StyledRange where
  start : Nat
  stop : Nat
  style : String
deriving DecidableEq, Repr

/-- A line of text with styled ranges. -/
structure StyledLine where
  text : List Char
  ranges : List StyledRange
deriving DecidableEq, Repr

namespace StyledLine

/-- A text without control characters. -/
def visible (s : List Char) : List Char := s.filter fun c => !isControl c

/-- The line of texts in a row, each with a style, from a position on. The range of a style is
recorded unless its text or the style is empty. -/
def ofTexts (start : Nat) : List (List Char × String) → StyledLine
  | [] => ⟨[], []⟩
  | (text, style) :: rest =>
    let shown := visible text
    let stop := start + shown.length
    let line := ofTexts stop rest
    ⟨shown ++ line.text,
      if text.isEmpty || style.isEmpty then line.ranges else ⟨start, stop, style⟩ :: line.ranges⟩

/-! ## Rendering -/

/-- The style in force at a node: its own unless that is absent or empty. -/
def styleAt (own : Option String) (inherited : String) : String :=
  match own with
  | some s => if s.isEmpty then inherited else s
  | none => inherited

mutual

/-- The texts of a span and all below it in order, each with the style in force. -/
def textsOf (inherited : String) : Span → List (List Char × String)
  | .node text _ style children =>
    let style := styleAt style inherited
    (text.toList, style) :: textsOfAll style children

def textsOfAll (inherited : String) : List Span → List (List Char × String)
  | [] => []
  | s :: ss => textsOf inherited s ++ textsOfAll inherited ss

end

/-- The line of a span; the line's own text if it has none. -/
def ofSpan (span : Option Span) (text : List Char) : StyledLine :=
  match span with
  | some s => ofTexts 0 (textsOf "" s)
  | none => ofTexts 0 [(text, "")]

end StyledLine

/-! ## Tab stops -/

/-- The distance of tab stops. -/
def tabSize : Nat := 8

/-- A text with the blanks that lead from its end to a tab stop. -/
def padToTabStop (s : List Char) : List Char :=
  s ++ List.replicate ((tabSize - textWidth s % tabSize) % tabSize) ' '

/-- The parts of a line; a tab stood at the end of all but the last. -/
def expandParts : List (List Char) → List Char
  | [] => []
  | [part] => part
  | part :: parts => padToTabStop (part ++ [' ']) ++ expandParts parts

/-- A line with blanks in place of its tabs. -/
def expandTabs (s : List Char) : List Char := expandParts (splitAt1 '\t' s)

end EditorServices.Highlight
