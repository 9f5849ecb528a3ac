import EditorServices.Failure
import EditorServices.Highlight.Scope
import EditorServices.Text.Quoted

/-!
# `Highlight.Style` — how a token is drawn

## Contents
- **Styles.** `Style`, its text, and reading it from a record.
- **Themes.** `Theme` assigns styles to scopes; a scope without a style of its own takes that of the
  closest scope above it.
-/

namespace EditorServices.Highlight

/-! ## Styles -/

/-- How a token is drawn. -/
structure Style where
  bold : Bool
  italic : Bool
  underline : Bool
  color : Option String
  background : Option String
deriving DecidableEq, Repr, Inhabited

namespace Style

/-- A style that changes nothing. -/
def none : Style := ⟨false, false, false, Option.none, Option.none⟩

/-- A style that sets the colour only. -/
def colored (c : String) : Style := { none with color := some c }

def withBold (s : Style) : Style := { s with bold := true }
def withItalic (s : Style) : Style := { s with italic := true }
def withUnderline (s : Style) : Style := { s with underline := true }
def withBackground (s : Style) (c : String) : Style := { s with background := some c }

/-- The words of a style. -/
def words (s : Style) : List String :=
  (if s.bold then ["bold"] else []) ++ (if s.italic then ["italic"] else []) ++
    (if s.underline then ["underline"] else []) ++
    (s.color.toList.map ("#" ++ ·)) ++ (s.background.toList.map ("on #" ++ ·))

/-- The text of a style; none if it changes nothing. -/
def text? (s : Style) : Option String :=
  if s.words.isEmpty then Option.none else some (" ".intercalate s.words)

/-- Whether a record sets a member to something that counts as true. -/
def isSet (ms : Members) (name : String) : Bool :=
  match Named.get? ms name with
  | some v => !v.isFalsy
  | Option.none => false

/-- The text of a member that counts as true. -/
def setText? (ms : Members) (name : String) : Option String :=
  match Named.get? ms name with
  | some v => if v.isFalsy then Option.none else some v.shown
  | Option.none => Option.none

/-- The style that a record describes; members of other names are ignored. -/
def ofMembers (ms : Members) : Style :=
  ⟨isSet ms "bold", isSet ms "italic", isSet ms "underline", setText? ms "color",
    setText? ms "bgcolor"⟩

end Style

/-! ## Themes -/

/-- Styles by scope. -/
structure Theme where
  styles : List (Scope × Style)
deriving DecidableEq, Inhabited

namespace Theme

/-- The theme that a record describes. Of two names of one scope the later one counts. -/
def ofMembers (ms : Members) : Except Failure Theme := do
  let styles ← ms.mapM fun (name, definition) => do
    let scope ← (Scope.ofText name).mapError Failure.unknownAttribute
    return (scope, Style.ofMembers definition.asMembers)
  return ⟨styles.reverse⟩

/-- Whether a theme has a style of its own for a scope. -/
def styles? (t : Theme) (s : Scope) : Option Style := t.styles.lookup s

/-- The style of a scope: its own, or that of the closest scope above it. -/
def styleOf (t : Theme) (s : Scope) : Option Style := s.lineage.findSome? t.styles?

/-- The text of the style of a scope. -/
def styleText? (t : Theme) (s : Scope) : Option String := (t.styleOf s).bind Style.text?

end Theme

end EditorServices.Highlight
