import EditorServices.Session.Play

/-!
# `Session.Trace` — the structured form of what is seen of a play

## Contents
- One list for each kind of note: calls that are over, messages that were sent, what files were read
  and subscribers told, delays, log entries.
- `Note.lists`, the lists under their names.
-/

namespace EditorServices.Session.Note

open Json (ofTexts)

/-- A call that is over, under the name that it has, with what came of it. -/
def completed? (names : List (Nat × String)) (shown : Answer → Json) : Note → Option Json
  | .completed t r =>
    some (.arr [.str ((names.lookup t).getD ""), Failure.outcomeJson (r.map shown)])
  | _ => none

/-- A message that was sent. -/
def sent? : Note → Option Json
  | .sent m => some m
  | _ => none

/-- A file that was read, or a subscriber who was told of a message. -/
def seen? : Note → Option Json
  | .read path => some (ofTexts ["read", path])
  | .told who beginning n => some (.arr [.str (if beginning then "event_start" else "event"),
      .str who, .str Notification.eventType, n.toJson])
  | _ => none

/-- A delay. -/
def slept? : Note → Option Json
  | .slept seconds => some seconds
  | _ => none

/-- A log entry. -/
def entry? : Note → Option Log.Entry
  | .log e => some e
  | _ => none

/-- The notes by kind. -/
def lists (names : List (Nat × String)) (shown : Answer → Json) (notes : List Note) : Members :=
  [("completed", .arr (notes.filterMap (completed? names shown))),
    ("sent", .arr (notes.filterMap sent?)),
    ("seen", .arr (notes.filterMap seen?)),
    ("sleeps", .arr (notes.filterMap slept?)),
    ("logs", Log.Entry.listed (notes.filterMap entry?))]

end EditorServices.Session.Note
