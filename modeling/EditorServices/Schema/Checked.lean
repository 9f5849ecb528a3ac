import EditorServices.Failure
import EditorServices.Schema.Issue
import EditorServices.Text.IntegerText

/-!
# `Schema.Checked` — reading typed values out of JSON

A check either yields a value or lists every issue; checks of the parts of a value all run, so that
their issues are reported together and in order.

## Contents
- **Results.** `Checked`, whose sequencing gathers issues from both sides; `outcome` is a value or a failure.
- **Scalars.** Strings, integers, truth values, fixed words and numbers, with the readings of other
  kinds of value that are allowed.
- **Containers.** Lists and dictionaries.
- **Records.** `FieldName`, required and optional fields, and extra names.
-/

namespace EditorServices.Schema

/-! ## Results -/

/-- A value, or the issues that kept it from being read. -/
inductive Checked (α : Type) where
  | valid (value : α)
  | invalid (issues : List Issue)

namespace Checked

variable {α β : Type}

def map (f : α → β) : Checked α → Checked β
  | .valid a => .valid (f a)
  | .invalid is => .invalid is

/-- Applies a checked function to a checked argument; issues of both are gathered. -/
def ap : Checked (α → β) → Checked α → Checked β
  | .valid f, .valid a => .valid (f a)
  | .valid _, .invalid is => .invalid is
  | .invalid is, .valid _ => .invalid is
  | .invalid is, .invalid js => .invalid (is ++ js)

instance : Applicative Checked where
  pure := .valid
  map := Checked.map
  seq f x := ap f (x ())

/-- Issues seen from one step further out. -/
def under (s : Step) : Checked α → Checked α
  | .valid a => .valid a
  | .invalid is => .invalid (is.map (Issue.under s))

/-- One issue at the value itself. -/
def fail (kind : IssueKind) (value : Json) : Checked α := .invalid [⟨[], kind, value⟩]

/-- Further issues of a value that may have issues already. -/
def withIssues (more : List Issue) : Checked α → Checked α
  | .valid a => if more = [] then .valid a else .invalid more
  | .invalid is => .invalid (is ++ more)

/-- A further check of a value that has no issues so far. -/
def refine (f : α → Checked β) : Checked α → Checked β
  | .valid a => f a
  | .invalid is => .invalid is

def toOption : Checked α → Option α
  | .valid a => some a
  | .invalid _ => none

/-- The issues; none for a valid value. -/
def issues : Checked α → List Issue
  | .valid _ => []
  | .invalid is => is

@[simp] theorem map_valid (f : α → β) (a : α) : (Checked.valid a).map f = .valid (f a) := rfl

@[simp] theorem ap_valid (f : α → β) (a : α) :
    ap (.valid f) (.valid a) = .valid (f a) := rfl

theorem ap_eq_valid {f : Checked (α → β)} {x : Checked α} {b : β} (h : ap f x = .valid b) :
    ∃ g a, f = .valid g ∧ x = .valid a ∧ g a = b := by
  cases f <;> cases x <;> simp_all [ap]

/-- A valid value, or the failure of a record of the named model. -/
def outcome {α : Type} (model : String) : Checked α → Except Failure α
  | .valid a => .ok a
  | .invalid issues => .error (.invalid model issues)

end Checked

/-! ## Scalars -/

/-- Only strings are strings. -/
def string : Json → Checked String
  | .str s => .valid s
  | j => .fail .stringType j

/-- One more than the greatest whole number of 64 bits with a sign. -/
def wordBound : Int := 9223372036854775808

/-- Integers, truth values, whole numbers of 64 bits, and texts that write an integer. -/
def integer (j : Json) : Checked Int :=
  match j with
  | .int n => .valid n
  | .bool b => .valid (if b then 1 else 0)
  | .float x =>
    if !x.isFinite then .fail .finiteNumber j
    else match x.toInt? with
      | none => .fail .intFromFloat j
      | some n => if -wordBound < n ∧ n < wordBound then .valid n else .fail .intTooLarge j
  | .str s =>
    match IntegerText.readInteger s.toList with
    | .value n => .valid n
    | .tooLong => .fail .intTooLarge j
    | .unreadable => .fail .intParsing j
  | _ => .fail .intType j

/-- An integer that is not below a bound. -/
def integerFrom (least : Int) (j : Json) : Checked Int :=
  (integer j).refine fun n => if least ≤ n then .valid n else .fail (.atLeast least) j

/-- A natural number that is not below a bound. -/
def naturalFrom (least : Nat) (j : Json) : Checked Nat := (integerFrom least j).map Int.toNat

/-- Texts for false and for true, in lower case. -/
def falseWords : List String := ["0", "off", "f", "false", "n", "no"]

def trueWords : List String := ["1", "on", "t", "true", "y", "yes"]

/-- A text with its ASCII letters in lower case. -/
def asciiLower (s : String) : String := String.ofList (s.toList.map Char.toLower)

/-- The truth value that a number stands for; other numbers of 64 bits are of the wrong value, and
those beyond of the wrong type. -/
def truthNumber (n least : Int) (j : Json) : Checked Bool :=
  if n = 0 then .valid false
  else if n = 1 then .valid true
  else if least ≤ n ∧ n < wordBound then .fail .boolParsing j
  else .fail .boolType j

/-- Truth values, the numbers zero and one, and their words. -/
def boolean (j : Json) : Checked Bool :=
  match j with
  | .bool b => .valid b
  | .int n => truthNumber n (-wordBound) j
  | .float x =>
    match x.toInt? with
    | some n => truthNumber n (1 - wordBound) j
    | none => .fail .boolType j
  | .str s =>
    let w := asciiLower s
    if falseWords.contains w then .valid false
    else if trueWords.contains w then .valid true
    else .fail .boolParsing j
  | _ => .fail .boolType j

/-- One of some words, each with the value it stands for. -/
def word {α : Type} (choices : List (String × α)) (j : Json) : Checked α :=
  let found := match j with
    | .str s => choices.lookup s
    | _ => none
  match found with
  | some a => .valid a
  | none => .fail (.literal (choices.map (·.1))) j

/-- One of some numbers, each with the value it stands for. -/
def numbered {α : Type} (choices : List (Int × α)) (j : Json) : Checked α :=
  let found := match integer j with
    | .valid n => choices.lookup n
    | .invalid _ => none
  match found with
  | some a => .valid a
  | none => .fail (.enum (choices.map (·.1))) j

/-- Null, or a value of a kind. -/
def nullable {α : Type} (check : Json → Checked α) : Json → Checked (Option α)
  | .null => .valid none
  | j => (check j).map some

/-! ## Containers -/

/-- The items of a list from a position on. -/
def itemsFrom {α : Type} (check : Json → Checked α) : Nat → List Json → Checked (List α)
  | _, [] => .valid []
  | n, x :: xs => List.cons <$> (check x).under (.index n) <*> itemsFrom check (n + 1) xs

/-- A list whose items pass a check. -/
def listOf {α : Type} (check : Json → Checked α) : Json → Checked (List α)
  | .arr xs => itemsFrom check 0 xs
  | j => .fail .listType j

/-- The members of a dictionary. -/
def membersOf {α : Type} (check : Json → Checked α) :
    List (String × Json) → Checked (List (String × α))
  | [] => .valid []
  | (k, x) :: ms =>
    List.cons <$> ((check x).map fun a => (k, a)).under (.key k) <*> membersOf check ms

/-- A dictionary whose values pass a check. -/
def dictOf {α : Type} (check : Json → Checked α) : Json → Checked (List (String × α))
  | .obj ms => membersOf check ms
  | j => .fail .dictType j

/-- A dictionary with any values. -/
def dict : Json → Checked Members
  | .obj ms => .valid ms
  | j => .fail .dictType j

/-! ## Records -/

/-- The name of a field, and the name it has in files if that is another one. -/
structure FieldName where
  name : String
  inFiles : Option String
deriving DecidableEq, Repr

namespace FieldName

/-- A field with one name. -/
def plain (name : String) : FieldName := ⟨name, none⟩

/-- The name under which issues are reported. -/
def label (f : FieldName) : String := f.inFiles.getD f.name

/-- The name under which a record gives a field: the one for files if present, else the field's
own. -/
def usedName (f : FieldName) (ms : Members) : String :=
  match f.inFiles with
  | some alt => if ms.has alt then alt else f.name
  | none => f.name

/-- The value that a record gives a field. -/
def value? (f : FieldName) (ms : Members) : Option Json := ms.get? (f.usedName ms)

end FieldName

/-- A field that has to be given. -/
def required {α : Type} (ms : Members) (f : FieldName) (check : Json → Checked α) : Checked α :=
  (match f.value? ms with
    | some j => check j
    | none => .fail .missing (.obj ms)).under (.key f.label)

/-- A field with a value of its own when it is not given. -/
def optional {α : Type} (ms : Members) (f : FieldName) (otherwise : α) (check : Json → Checked α) :
    Checked α :=
  match f.value? ms with
  | some j => (check j).under (.key f.label)
  | none => .valid otherwise

/-- One issue for each name of a record that none of the fields uses. -/
def extraNames (fields : List FieldName) (ms : Members) : List Issue :=
  (ms.filter fun p => !fields.any fun f => f.usedName ms == p.1).map fun p =>
    ⟨[.key p.1], .extra, p.2⟩

/-- A record that is read field by field. -/
def record {α : Type} (name : String) (read : Members → Checked α) : Json → Checked α
  | .obj ms => read ms
  | j => .fail (.modelType name) j

end EditorServices.Schema
