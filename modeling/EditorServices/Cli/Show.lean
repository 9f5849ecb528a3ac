import EditorServices.Cli.Command
import EditorServices.Cli.Run
import EditorServices.Highlight.Rendering

/-!
# `Cli.Show` — printing lines of a file through a highlighter

## Contents
- **Lines.** Which lines are shown, and their numbers.
- **Highlighting.** `highlightLines`.
- **The command.** `showFile`.
-/

namespace EditorServices.Cli

open Highlight

/-! ## Lines -/

/-- The last line that is shown: the wished one, or the last of the file. -/
def lastShown (lines : Nat) (wish : Option Nat) : Nat :=
  match wish with
  | some n => min n (lines - 1)
  | none => lines - 1

/-- The number of a line, counted from one, at the right of a column of some width. -/
def numberColumn (width index : Nat) : List Char :=
  let digits := decimalDigits (index + 1)
  List.replicate (width - digits.length) ' ' ++ digits ++ [' ']

/-- The text at an index of a list of lines. -/
def lineText (lines : List (List Char)) (i : Int) : Except Failure String :=
  match lines[i.toNat]? with
  | some line => .ok (String.ofList line)
  | none => .error .outOfRange

/-! ## Highlighting -/

/-- The log entries among events. -/
def entriesOf (events : List Event) : List Log.Entry :=
  events.filterMap fun
    | .trace (.logged e) => some e
    | _ => none

/-- Keeps what was seen of highlighting. -/
def observe (events : List Event) : Run Unit := do
  Run.logAll (entriesOf events)
  Run.modify fun r => { r with events := r.events ++ events }

/-- The lines with some indices as styled text. -/
def highlightLines (lines : List (List Char)) : List Nat → Highlighter → Run (List StyledLine)
  | [], _ => return []
  | i :: rest, h => do
    let text := (lines[i]?).getD []
    let (span, cache, trace) := h.cache.line i (String.ofList text)
    observe (trace.map .trace)
    let more ← highlightLines lines rest { h with cache := cache }
    return StyledLine.ofSpan span text :: more

/-! ## The command -/

/-- Prints styled lines, each after its number if numbers are wished. -/
def printLines (numbers : Bool) (width : Nat) : List Nat → List StyledLine → Run Unit
  | i :: is, l :: ls => do
    let before := if numbers then numberColumn width i else []
    Run.printLine (expandTabs (before ++ l.text))
    printLines numbers width is ls
  | _, _ => return

/-- Shows lines of a file, highlighted as the configuration of its directory says. -/
def showFile (w : Config.World) (o : HighlightOptions) : Run Unit := do
  let settings ← Run.ofExcept (← Run.reporting (Config.load w (Path.parent o.file.path)))
  let config := settings.1.highlight
  let config := { config with theme := o.theme.getD config.theme }
  let text ← Run.ofExcept ((readFileText o.file.bytes).mapError .malformedText)
  let lines := splitAt1 '\n' text
  let last := lastShown lines.length o.last
  if o.first > last then Run.stop .usage
  let language := o.language.getD (Language.ofPath o.file.given Language.plainText)
  let (h, events) := Highlighter.new LexerEntry.extended language config
    (.whole config.batchThreshold) none .absent false
  observe events
  let (h, events) := h.preHighlight "" o.first last (lineText lines)
  observe events
  let shown := (List.range (last + 1)).drop o.first
  let styled ← highlightLines lines shown h
  observe h.dispose.2
  printLines o.numbers (decimalDigits (last + 1)).length shown styled

end EditorServices.Cli
