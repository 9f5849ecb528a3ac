import EditorServices.Highlight.Highlighter
import EditorServices.Highlight.Rendering
import EditorServices.Config.Sources
import EditorServices.Log.State
import EditorServices.Session.Play
import EditorServices.Text.EscapeSequence
import EditorServices.Text.Markup
import EditorServices.Transport.Endpoint

/-!
# `Cli.Run` — what a run of the program does

A run prints, logs to the console, talks to a server and to workers, and may stop before its end.
All it did up to then stays done.

## Contents
- **Stops.** `Stop`, why a run ends early.
- **What is done.** `Record` and its `errorText`.
- **Runs.** `Run` and its steps: printing, complaining, logging.
- **Results.** `exitCode`.
-/

namespace EditorServices.Cli

open Highlight (StyledLine)

/-! ## Stops -/

/-- Why a run ends early. -/
inductive Stop where
  /-- All that was asked for is done. -/
  | done
  /-- The arguments are wrong. -/
  | usage
  /-- What went wrong was told. -/
  | told
  /-- What went wrong was not expected. -/
  | escaped (f : Failure)

/-! ## What is done -/

/-- What a run has done so far. The console of the log is the error stream. -/
structure Record where
  out : List Char
  log : Log.State
  /-- The server that was chosen. -/
  endpoint : Option Transport.Endpoint
  /-- What was seen of the session. -/
  notes : List Session.Note
  /-- What was seen of highlighting. -/
  events : List Highlight.Event

/-- Nothing is done yet. -/
def Record.empty (log : Log.State) : Record := ⟨[], log, none, [], []⟩

/-- What stands on the error stream. Halves of surrogate pairs, which cannot be written as they are,
are escaped there. -/
def Record.errorText (r : Record) : List Char :=
  r.log.console.flatMap fun c => ((loneUnit? c).map unitEscape).getD [c]

/-! ## Runs -/

/-- A part of a run: what it did, and its result or why it stopped. -/
def Run (α : Type) : Type := Record → Record × Except Stop α

namespace Run

variable {α β : Type}

/-- A second part after a first one that did not stop. -/
def andThen (x : Run α) (f : α → Run β) : Run β := fun r =>
  match x r with
  | (r, .ok a) => f a r
  | (r, .error s) => (r, .error s)

instance : Monad Run where
  pure a := fun r => (r, .ok a)
  bind := andThen

theorem bind_of_ok {x : Run α} {r r' : Record} {a : α} (h : x r = (r', .ok a)) (f : α → Run β) :
    (x >>= f) r = f a r' := by
  show andThen x f r = _
  rw [andThen, h]

/-- Ends the run. -/
def stop (s : Stop) : Run α := fun r => (r, .error s)

def modify (f : Record → Record) : Run Unit := fun r => (f r, .ok ())

/-- What is done so far. -/
def get : Run Record := fun r => (r, .ok r)

/-- A result, or the end of the run by a failure that was not expected. -/
def ofExcept : Except Failure α → Run α
  | .ok a => pure a
  | .error f => stop (.escaped f)

/-- Prints a line. -/
def printLine (text : List Char) : Run Unit :=
  if isWritable text then modify fun r => { r with out := r.out ++ text ++ ['\n'] }
  else stop (.escaped .unwritable)

/-- Prints a text with style tags. -/
def printMarked (text : String) : Run Unit :=
  match Markup.render text.toList with
  | .ok plain => printLine (StyledLine.visible plain)
  | .error .unmatched => stop (.escaped .unmatchedTag)
  | .error (.noNumber message) => stop (.escaped (.value message))

/-- Prints a line on the error stream, without sequences that steer a terminal. -/
def complain (text : String) : Run Unit :=
  let line := withoutSequences text.toList ++ ['\n']
  modify fun r => { r with log := { r.log with console := r.log.console ++ line } }

/-- An operation on the log; a failure of it was not expected. -/
def logging (operation : Log.State → Log.State.After α) : Run α := fun r =>
  let (log, result) := operation r.log
  ({ r with log := log }, result.mapError .escaped)

/-- Logs entries. -/
def logAll : List Log.Entry → Run Unit
  | [] => return
  | e :: rest => do
    logging fun s => s.logEntry e
    logAll rest

/-- Logs what a computation reports. -/
def reporting (x : Reporting α) : Run (Except Failure α) := do
  logAll x.entries
  return x.result

end Run

/-! ## Results -/

/-- The exit code of a run. -/
def exitCode : Except Stop Unit → Nat
  | .ok () | .error .done => 0
  | .error .usage => 2
  | .error .told | .error (.escaped _) => 1

end EditorServices.Cli
