import EditorServices.Json.Basic

/-!
# `Json.Fields` — values of a known shape

Readers for objects whose shape is known beforehand. What is missing or of another kind counts as
nothing.

## Contents
- **Plain values.** What a value holds, if it is of the kind asked for.
- **Kinds.** The kind of a value, and values as keys.
- **Parts.** What a value can be run through.
- **Members.** The same for a member of an object.
- **Building.** Values made of texts, and of what may be missing.
-/

namespace EditorServices.Json

/-! ## Plain values -/

def asText? : Json → Option String
  | .str s => some s
  | _ => none

def asText (j : Json) : String := j.asText?.getD ""

def asInt : Json → Int
  | .int n => n
  | _ => 0

/-- Whether a value counts as something. -/
def asFlag (j : Json) : Bool := !j.isFalsy

def asItems : Json → List Json
  | .arr xs => xs
  | _ => []

def asMembers : Json → Members
  | .obj ms => ms
  | _ => []

def asNumber : Json → Binary64
  | .float x => x
  | .int n => Binary64.ofInt n
  | _ => Binary64.zero false

/-! ## Kinds -/

/-- The name of the kind of a value. -/
def kindName : Json → String
  | .null => "NoneType"
  | .bool _ => "bool"
  | .int _ => "int"
  | .float _ => "float"
  | .str _ => "str"
  | .arr _ => "list"
  | .obj _ => "dict"

/-- Whether a value can be a key: lists and records cannot. -/
def isKey : Json → Bool
  | .arr _ | .obj _ => false
  | _ => true

/-- Whether two values are one key: numbers are, if they have one value. -/
def sameKey (a b : Json) : Bool :=
  match a.numeral?, b.numeral? with
  | some x, some y => x.same y
  | none, none => a = b
  | _, _ => false

/-! ## Parts -/

/-- The parts that a value can be run through: the items of an array, the characters of a text, the
names of an object. A number or truth value has none, and neither has null. -/
def parts? : Json → Option (List Json)
  | .arr xs => some xs
  | .str s => some (s.toList.map fun c => .str (String.singleton c))
  | .obj ms => some (ms.map fun m => .str m.1)
  | _ => none

/-- The parts of a value, and none for a value that counts as nothing. -/
def partsOrNone? (v : Json) : Option (List Json) := if v.isFalsy then some [] else v.parts?

/-! ## Members -/

/-- The member of a name; null if there is none. -/
def field (j : Json) (name : String) : Json := (j.get? name).getD .null

/-- The member of a name, unless it is null. -/
def given? (j : Json) (name : String) : Option Json :=
  match j.get? name with
  | some .null => none
  | r => r

def text? (j : Json) (name : String) : Option String := (j.get? name).bind asText?

def text (j : Json) (name : String) : String := (j.text? name).getD ""

def textOr (j : Json) (name otherwise : String) : String := (j.text? name).getD otherwise

def integer (j : Json) (name : String) : Int := (j.field name).asInt

def flag (j : Json) (name : String) : Bool := (j.field name).asFlag

def items (j : Json) (name : String) : List Json := (j.field name).asItems

def texts (j : Json) (name : String) : List String := (j.items name).map asText

def members (j : Json) (name : String) : Members := (j.field name).asMembers

/-! ## Building -/

/-- An array of texts. -/
def ofTexts (xs : List String) : Json := .arr (xs.map .str)

/-- A text, or null in place of a missing one. -/
def ofText? (s : Option String) : Json := (s.map .str).getD .null

/-- An object with further members. -/
def withMembers (j : Json) (ms : Members) : Json := .obj (j.asMembers ++ ms)

mutual

/-- A value in which numbers that have no JSON text are written as objects. -/
def marked : Json → Json
  | .float x =>
    if x.isNaN then .obj [("$float", .str "nan")]
    else if x.isInfinite then .obj [("$float", .str (if x.isNegative then "-inf" else "inf"))]
    else .float x
  | .arr xs => .arr (markedItems xs)
  | .obj ms => .obj (markedMembers ms)
  | v => v

def markedItems : List Json → List Json
  | [] => []
  | x :: xs => marked x :: markedItems xs

def markedMembers : List (String × Json) → List (String × Json)
  | [] => []
  | (k, x) :: ms => (k, marked x) :: markedMembers ms

end

end EditorServices.Json
