import EditorServices.Named
import EditorServices.Number.Numeral

/-!
# `Json.Basic` — JSON values

Objects keep their members in order of first insertion. Integers have any size and are kept apart
from floating-point numbers, which a reader tells by the point or exponent of the text.

## Contents
- **Values.** `Json`, the `Members` of an object, and decidable equality.
- **Reading a value.** Emptiness, the number that a value is, the position that it gives.
-/

namespace EditorServices

/-- A JSON value. -/
inductive Json where
  | null
  | bool (b : Bool)
  | int (n : Int)
  | float (x : Binary64)
  | str (s : String)
  | arr (items : List Json)
  | obj (members : List (String × Json))
deriving Inhabited

/-- The members of an object in insertion order. -/
abbrev Members := Named Json

namespace Json

/-! ## Equality -/

mutual

/-- Values are compared structurally; floating-point numbers by their bit patterns. -/
def decEq : (a b : Json) → Decidable (a = b)
  | .null, .null => isTrue rfl
  | .bool a, .bool b => if h : a = b then isTrue (h ▸ rfl) else isFalse (by simpa using h)
  | .int a, .int b => if h : a = b then isTrue (h ▸ rfl) else isFalse (by simpa using h)
  | .float a, .float b => if h : a = b then isTrue (h ▸ rfl) else isFalse (by simpa using h)
  | .str a, .str b => if h : a = b then isTrue (h ▸ rfl) else isFalse (by simpa using h)
  | .arr xs, .arr ys =>
    match decEqItems xs ys with
    | isTrue h => isTrue (h ▸ rfl)
    | isFalse h => isFalse (by simpa using h)
  | .obj xs, .obj ys =>
    match decEqMembers xs ys with
    | isTrue h => isTrue (h ▸ rfl)
    | isFalse h => isFalse (by simpa using h)
  | .null, .bool _ | .null, .int _ | .null, .float _ | .null, .str _ | .null, .arr _ | .null, .obj _
  | .bool _, .null | .bool _, .int _ | .bool _, .float _ | .bool _, .str _ | .bool _, .arr _
  | .bool _, .obj _ | .int _, .null | .int _, .bool _ | .int _, .float _ | .int _, .str _
  | .int _, .arr _ | .int _, .obj _ | .float _, .null | .float _, .bool _ | .float _, .int _
  | .float _, .str _ | .float _, .arr _ | .float _, .obj _ | .str _, .null | .str _, .bool _
  | .str _, .int _ | .str _, .float _ | .str _, .arr _ | .str _, .obj _ | .arr _, .null
  | .arr _, .bool _ | .arr _, .int _ | .arr _, .float _ | .arr _, .str _ | .arr _, .obj _
  | .obj _, .null | .obj _, .bool _ | .obj _, .int _ | .obj _, .float _ | .obj _, .str _
  | .obj _, .arr _ => isFalse (by simp)

def decEqItems : (a b : List Json) → Decidable (a = b)
  | [], [] => isTrue rfl
  | [], _ :: _ => isFalse (by simp)
  | _ :: _, [] => isFalse (by simp)
  | x :: xs, y :: ys =>
    match x.decEq y, decEqItems xs ys with
    | isTrue h, isTrue h' => isTrue (by rw [h, h'])
    | isFalse h, _ => isFalse (by simp [h])
    | _, isFalse h => isFalse (by simp [h])

def decEqMembers : (a b : List (String × Json)) → Decidable (a = b)
  | [], [] => isTrue rfl
  | [], _ :: _ => isFalse (by simp)
  | _ :: _, [] => isFalse (by simp)
  | (k, x) :: xs, (l, y) :: ys =>
    if hk : k = l then
      match x.decEq y, decEqMembers xs ys with
      | isTrue h, isTrue h' => isTrue (by rw [h, h', hk])
      | isFalse h, _ => isFalse (by simp [h])
      | _, isFalse h => isFalse (by simp [h])
    else isFalse (by simp [hk])

end

instance : DecidableEq Json := decEq

end Json

namespace Json

/-! ## Reading a value -/

/-- The member of an object; none for every other value. -/
def get? : Json → String → Option Json
  | .obj ms, name => Named.get? ms name
  | _, _ => none

/-- Whether a value counts as nothing: null, false, a zero, or something empty. -/
def isFalsy : Json → Bool
  | .null => true
  | .bool b => !b
  | .int n => n == 0
  | .float x => x.isZero
  | .str s => s.isEmpty
  | .arr xs => xs.isEmpty
  | .obj ms => ms.isEmpty

/-- The integer that a number or truth value equals; none for a fraction and for other values. -/
def wholeNumber? : Json → Option Int
  | .bool b => some (if b then 1 else 0)
  | .int n => some n
  | .float x => x.toInt?
  | _ => none

/-- The number that a value is; a truth value counts as one or zero. -/
def numeral? : Json → Option Numeral
  | .bool b => some (.whole (if b then 1 else 0))
  | .int n => some (.whole n)
  | .float x => some (.binary x)
  | _ => none

/-- The position that a value gives: an integer or a truth value. -/
def position? : Json → Option Int
  | .bool b => some (if b then 1 else 0)
  | .int n => some n
  | _ => none

def isObject : Json → Bool
  | .obj _ => true
  | _ => false

end Json

end EditorServices
