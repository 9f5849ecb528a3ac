import EditorServices.Schema.Issue
import EditorServices.Text.Quoted
import EditorServices.Text.Utf8

/-!
# `Schema.Report` — issues in full

## Contents
- **Values.** `Json.kind` and `abridged`, by which a report shows the value that is at fault.
- **Issues.** `Issue.report`: the place, and below it what is wrong.
-/

namespace EditorServices.Schema

/-! ## Values -/

/-- The kind of a value, in one word. -/
def kindOf : Json → String
  | .null => "NoneType"
  | .bool _ => "bool"
  | .int _ => "int"
  | .float _ => "float"
  | .str _ => "str"
  | .arr _ => "list"
  | .obj _ => "dict"

/-- The longest beginning of a text that fits into a number of bytes. -/
def takeBytes (n : Nat) : List Char → List Char
  | [] => []
  | c :: r =>
    let size := (utf8Char c).length
    if size ≤ n then c :: takeBytes (n - size) r else []

/-- The beginning and the end of a text that is longer than fifty bytes. -/
def abridged (s : List Char) : List Char :=
  if (utf8Encode s).length ≤ 50 then s
  else takeBytes 25 s ++ "...".toList ++ (takeBytes 24 s.reverse).reverse

/-! ## Issues -/

/-- One step of a place; a name with a dot in it stands between accents. -/
def Step.report : Step → String
  | .key name => if name.contains '.' then "\x60" ++ name ++ "\x60" else name
  | .index n => toString n

/-- The place of an issue on a line of its own, if it is not the whole value, and what is wrong. -/
def Issue.report (i : Issue) : String :=
  let place := if i.place.isEmpty then "" else ".".intercalate (i.place.map Step.report) ++ "\n"
  place ++ "  " ++ i.kind.message ++ " [type=" ++ i.kind.code ++ ", input_value=" ++
    String.ofList (abridged i.value.shownInside) ++ ", input_type=" ++ kindOf i.value ++ "]"

end EditorServices.Schema
