import EditorServices.Text.EscapeSequence
import EditorServices.Text.Literal
import EditorServices.Text.StyleName

/-!
# `Text.Markup` — text with style tags between square brackets

A tag opens a style, which a tag that starts with a slash closes again. What stands after an equals
sign in a tag is a parameter. A backslash before a tag makes it text.

## Contents
- **Tags.** `tag?`, the tag at the start of a text.
- **Pieces.** `pieces` cuts a text into plain text and tags.
- **Open tags.** What the parameter of a tag that starts with an at sign has to be, and the style
  that any other tag names.
- **Rendering.** `render`, the plain text; it fails if a tag closes what is not open or what has a
  parameter that cannot be read, and if a style has a part that is no number.
-/

namespace EditorServices

namespace Markup

/-! ## Tags -/

/-- What can stand first in a tag. -/
def startsTag (c : Char) : Bool := c.isLower || c = '#' || c = '/' || c = '@'

/-- The text up to a closing bracket, and the text after it; none if an opening bracket comes
first. -/
def upToBracket? : List Char → Option (List Char × List Char)
  | [] => none
  | c :: r =>
    if c = ']' then some ([], r)
    else if c = '[' then none
    else (upToBracket? r).map fun (inside, rest) => (c :: inside, rest)

/-- The parts and the closing bracket make up the text. -/
theorem eq_of_upToBracket? {s inside rest : List Char}
    (h : upToBracket? s = some (inside, rest)) : s = inside ++ ']' :: rest := by
  induction s generalizing inside with
  | nil => simp [upToBracket?] at h
  | cons c r ih =>
    rw [upToBracket?] at h
    split at h
    · next hc =>
      obtain ⟨rfl, rfl⟩ := by simpa using h
      rw [hc, List.nil_append]
    · split at h
      · simp at h
      · obtain ⟨⟨a, b⟩, hab, he⟩ := Option.map_eq_some_iff.1 h
        obtain ⟨rfl, rfl⟩ := by simpa using he
        rw [ih hab, List.cons_append]

/-- The inside of the tag whose opening bracket stood before a text, and the text after the tag. -/
def tag? (s : List Char) : Option (List Char × List Char) :=
  match s with
  | c :: _ => if startsTag c then upToBracket? s else none
  | [] => none

theorem eq_of_tag? {s inside rest : List Char} (h : tag? s = some (inside, rest)) :
    s = inside ++ ']' :: rest := by
  unfold tag? at h
  split at h
  · split at h
    · exact eq_of_upToBracket? h
    · simp at h
  · simp at h

theorem length_of_tag? {s inside rest : List Char} (h : tag? s = some (inside, rest)) :
    rest.length < s.length := by
  rw [eq_of_tag? h, List.length_append, List.length_cons]
  omega

/-! ## Pieces -/

/-- Plain text, or the inside of a tag. -/
inductive Piece where
  | text (s : List Char)
  | tag (inside : List Char)
deriving DecidableEq, Repr

/-- The pieces of a text after a number of backslashes. Before a tag each pair of them is one, and
one that is left over makes the tag text; before a bracket that opens no tag the last one is left
out. -/
def piecesAfter (slashes : Nat) (s : List Char) : List Piece :=
  match s with
  | [] => [.text (List.replicate slashes '\\')]
  | c :: r =>
    if c = '\\' then piecesAfter (slashes + 1) r
    else if c = '[' then
      match h : tag? r with
      | some (inside, rest) =>
        have : rest.length < r.length := length_of_tag? h
        .text (List.replicate (slashes / 2) '\\') ::
          (if slashes % 2 = 0 then .tag inside else .text ('[' :: inside ++ [']'])) ::
          piecesAfter 0 rest
      | none => .text (List.replicate (slashes - 1) '\\' ++ ['[']) :: piecesAfter 0 r
    else .text (List.replicate slashes '\\' ++ [c]) :: piecesAfter 0 r
termination_by s.length
decreasing_by
  all_goals simp only [List.length_cons]; omega

/-- The pieces of a text. -/
def pieces (s : List Char) : List Piece := piecesAfter 0 s

/-! ## Open tags -/

/-- A tag that is open. -/
structure OpenTag where
  name : List Char
  /-- What stands after an equals sign. -/
  parameter : Option (List Char)
  /-- Whether there is something to see since the tag. -/
  covers : Bool
deriving DecidableEq, Repr

/-- Whether a parameter can be read: it is a name with dots, which may be followed by a value
between brackets, or a value itself. -/
def isReadable (parameter : List Char) : Bool :=
  let p := strip parameter
  let call := p.dropWhile fun c => isWordChar c || c = '.'
  if call.isEmpty then true
  else if call.head? = some '(' && call.getLast? = some ')' && !call.contains '\n' then
    Literal.isLiteral call
  else Literal.isLiteral p

namespace OpenTag

/-- Whether a tag names a handler. -/
def isHandler (t : OpenTag) : Bool := t.name.head? = some '@'

/-- Whether a tag can be closed: one that names a handler has to have a parameter that can be read,
or none. -/
def closes (t : OpenTag) : Bool :=
  match t.parameter with
  | some p => !t.isHandler || p.isEmpty || isReadable p
  | none => true

/-- The name of the style of a tag. -/
def style (t : OpenTag) : List Char :=
  match t.parameter with
  | some p => t.name ++ ' ' :: p
  | none => t.name

/-- What is wrong with the style of a tag, if anything is seen with it. -/
def fault? (t : OpenTag) : Option String :=
  if t.covers then StyleName.brokenNumber? t.style else none

end OpenTag

/-! ## Rendering -/

/-- Why a text with tags cannot be rendered. -/
inductive Fault where
  /-- A tag closes what is not open, or what cannot be closed. -/
  | unmatched
  /-- A style has a part that is no number. -/
  | noNumber (message : String)
deriving DecidableEq, Repr

/-- The tags of a text that is being rendered. -/
structure Tags where
  /-- The tags that are open, the latest first. -/
  opened : List OpenTag
  /-- What is wrong with the styles of tags that are closed. -/
  faults : List String

namespace Tags

/-- Whether a character of a text can be seen. -/
def isSeen (c : Char) : Bool := !isControl c && c ≠ '\n'

/-- The tags after a text, which all that are open cover. -/
def addText (tags : Tags) (s : List Char) : Tags :=
  if s.any isSeen then { tags with opened := tags.opened.map ({ · with covers := true }) }
  else tags

/-- Closes the latest tag with a property. -/
def close (tags : Tags) (isMeant : OpenTag → Bool) : Except Fault Tags :=
  match tags.opened.find? isMeant with
  | some t =>
    if t.closes then
      .ok ⟨tags.opened.eraseP isMeant,
        tags.faults ++ if t.isHandler then [] else t.fault?.toList⟩
    else .error .unmatched
  | none => .error .unmatched

/-- Opens or closes a tag. One that has only a slash closes the latest of all. -/
def addTag (tags : Tags) (inside : List Char) : Except Fault Tags :=
  match inside.takeWhile (· ≠ '=') with
  | '/' :: name =>
    if (strip name).isEmpty then tags.close fun _ => true
    else match StyleName.normal (strip name) with
      | .ok name => tags.close fun t => t.name == name
      | .error message => .error (.noNumber message)
  | name =>
    match StyleName.normal name with
    | .ok name =>
      .ok { tags with opened := ⟨name, (inside.dropWhile (· ≠ '=')).tail?, false⟩ :: tags.opened }
    | .error message => .error (.noNumber message)

def add (tags : Tags) : Piece → Except Fault Tags
  | .text s => .ok (tags.addText s)
  | .tag inside => tags.addTag inside

/-- What is wrong with the styles that have to be looked up at the end. -/
def allFaults (tags : Tags) : List String := tags.faults ++ tags.opened.filterMap OpenTag.fault?

end Tags

/-- What is seen of a piece. -/
def Piece.plain : Piece → List Char
  | .text s => s
  | .tag _ => []

/-- The plain text of a text with tags. -/
def render (s : List Char) : Except Fault (List Char) := do
  let tags ← (pieces s).foldlM Tags.add ⟨[], []⟩
  match tags.allFaults with
  | [] => return (pieces s).flatMap Piece.plain
  | message :: _ => throw (.noNumber message)

end Markup

end EditorServices
