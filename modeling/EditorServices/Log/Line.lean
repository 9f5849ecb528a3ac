import EditorServices.Failure
import EditorServices.Log.Level
import EditorServices.Path
import EditorServices.Text.Blank
import EditorServices.Text.Digit

/-!
# `Log.Line` — one line per log call

A line is built from a payload, the ordered list of time, delay, severity, message and tags. Values
that could break a line or be mistaken for a tag stand between quotes. There is no line if an integer
in it would have too many digits.

## Contents
- **Values.** `Value`, what may be logged, and its plain form.
- **Entries.** `Entry`, what a service reports, and its structured form.
- **Payloads.** `payload`, in which a tag may take the place of one of the four leading members, and
  `mem_payload`.
- **Formats.** `kvLine`, `jsonLine` and `prettyLine`, chosen by `line`, which looks at the digits first.
-/

namespace EditorServices

/-! ## Values -/

namespace Json

mutual

/-- Whether every integer in a value has few enough digits to be written. -/
def hasFewDigits : Json → Bool
  | .int n => (decimalDigits n.natAbs).length ≤ maxIntegerDigits
  | .arr xs => itemsHaveFewDigits xs
  | .obj ms => membersHaveFewDigits ms
  | .null | .bool _ | .float _ | .str _ => true

def itemsHaveFewDigits : List Json → Bool
  | [] => true
  | x :: xs => hasFewDigits x && itemsHaveFewDigits xs

def membersHaveFewDigits : List (String × Json) → Bool
  | [] => true
  | (_, x) :: ms => hasFewDigits x && membersHaveFewDigits ms

end

end Json

namespace Log

/-- What may be logged. -/
inductive Value where
  | json (v : Json)
  /-- A failure and the chain of its causes. -/
  | failure (f : Failure) (causes : List Failure)
  | path (p : String)

/-- How many causes of a failure are shown. -/
def shownCauses : Nat := 10

/-- A failure and its causes, the latest first. -/
def chainText (f : Failure) (causes : List Failure) : String :=
  String.join (f.described :: (causes.take shownCauses).map fun c => " Caused by: " ++ c.described)

namespace Value

/-- The plain form of a value: failures and paths become texts. -/
def plain : Value → Json
  | .json v => v
  | .failure f causes => .str (chainText f causes)
  | .path p => .str (String.ofList (Path.tidy p.toList))

end Value

/-! ## Entries -/

/-- What a service reports at one log call. -/
structure Entry where
  level : Level
  service : String
  message : String
  extra : Members

/-- The entries that are worth a look, from the level of information on: level, service and
message. -/
def Entry.listed (entries : List Entry) : Json :=
  .arr ((entries.filter fun e => e.level != .debug).map fun e =>
    .ofTexts [e.level.lower, e.service, e.message])

/-! ## Payloads -/

/-- The names that lead every payload. -/
def leadingNames : List String := ["time", "delta_ms", "level", "msg"]

/-- The members of a line in order; tags without a value are left out. -/
def payload (time : String) (delta : Int) (level : Level) (message : Value) (tags : Named Value) :
    Members :=
  Named.overlay
    [("time", .str time), ("delta_ms", .int delta), ("level", .str level.lower),
      ("msg", message.plain)]
    ((tags.map fun (k, v) => (k, v.plain)).filter fun t => t.2 ≠ .null)

/-- A member of a payload is one of those that lead it, or a tag in its plain form. -/
theorem mem_payload {time : String} {delta : Int} {level : Level} {message : Value} {tags : Named Value}
    {m : String × Json} (h : m ∈ payload time delta level message tags) :
    m ∈ ([("time", .str time), ("delta_ms", .int delta), ("level", .str level.lower), ("msg", message.plain)] :
        Members) ∨ ∃ t ∈ tags, m = (t.1, t.2.plain) := by
  refine (List.mem_append.mp (Named.mem_overlay h)).imp id fun htag => ?_
  obtain ⟨t, ht, rfl⟩ := List.mem_map.mp (List.mem_filter.mp htag).1
  exact ⟨t, ht, rfl⟩

/-! ## Formats -/

/-- Whether a text has to stand between quotes. -/
def needsQuotes (s : List Char) : Bool := s.isEmpty || s.any isBlank || s.contains '='

/-- A value after its key. -/
def valueText : Json → List Char
  | .bool b => if b then "true".toList else "false".toList
  | .int n => intDigits n
  | .float x => (x.text valueLayout).toList
  | .arr xs => (Json.arr xs).print .compact
  | .obj ms => (Json.obj ms).print .compact
  | v =>
    let s := v.shown
    if needsQuotes s.toList then PrintStyle.compact.quote s else s.toList

/-- The tags of a payload as `key=value`, divided by blanks. -/
def pairs (members : Members) : List Char :=
  let tags := members.filter fun m => !leadingNames.contains m.1
  List.intercalate [' '] (tags.map fun (k, v) => k.toList ++ '=' :: valueText v)

/-- The member of a payload as it stands. -/
def shownMember (members : Members) (name : String) : List Char :=
  ((members.get? name).getD .null).shown.toList

def jsonLine (members : Members) : List Char := (Json.obj members).print .compact ++ ['\n']

def kvLine (members : Members) : List Char :=
  let parts :=
    [shownMember members "time",
     '+' :: shownMember members "delta_ms" ++ ['m', 's'],
     "level=".toList ++ shownMember members "level",
     "msg=".toList ++ valueText ((members.get? "msg").getD .null),
     pairs members]
  List.intercalate [' '] (parts.filter fun p => !p.isEmpty) ++ ['\n']

def prettyLine (level : Level) (members : Members) : List Char :=
  let message := (members.get? "msg").getD .null
  let text := if message.isFalsy then [] else message.shown.toList
  let tags := pairs members
  let suffix := if tags.isEmpty then [] else ' ' :: '(' :: tags ++ [')']
  shownMember members "time" ++ ' ' :: level.upper.toList ++ ' ' :: text ++ suffix ++
    ' ' :: '+' :: shownMember members "delta_ms" ++ ['m', 's', '\n']

/-- The members of a payload that a format writes. The pretty one writes the severity of the call, whatever
the payload has in its place. -/
def Format.written (format : Format) (members : Members) : Members :=
  match format with
  | .json | .kv => members
  | .pretty => members.filter (·.1 ≠ "level")

theorem mem_of_mem_written {format : Format} {members : Members} {m : String × Json}
    (h : m ∈ format.written members) : m ∈ members := by
  cases format with
  | json | kv => exact h
  | pretty => exact (List.mem_filter.mp h).1

/-- The text of a line. -/
def lineText (format : Format) (level : Level) (members : Members) : List Char :=
  match format with
  | .json => jsonLine members
  | .kv => kvLine members
  | .pretty => prettyLine level members

/-- The line of a payload. -/
def line (format : Format) (level : Level) (members : Members) : Except Failure (List Char) :=
  if (format.written members).all fun m => m.2.hasFewDigits then .ok (lineText format level members)
  else .error (.value unwritableIntegerText)

theorem line_of_few {format : Format} {level : Level} {members : Members}
    (h : ∀ m ∈ format.written members, m.2.hasFewDigits = true) :
    line format level members = .ok (lineText format level members) :=
  if_pos (List.all_eq_true.mpr h)

end Log

end EditorServices
