import EditorServices.Highlight.Highlighter

/-!
# `Highlight.Action` — what can happen to a highlighter

A highlighter serves one caller, but its workers do not: a batch may end whenever it likes, they may
break down, and they may have other highlighters to serve. A course of actions has all of this in some
order, so that what holds after every course holds in every interleaving.

## Contents
- **Actions.** `Action`, and `act`, what one of them does.
- **Courses.** `run` goes through a list of actions; `after` is the highlighter in the end.
-/

namespace EditorServices.Highlight

/-! ## Actions -/

/-- What can happen to a highlighter. -/
inductive Action where
  /-- A line is looked up. -/
  | look (i : Int) (text : String)
  | invalidateAll
  | invalidateLines (lines : List Int)
  | invalidateRange (first last : Int)
  | preHighlight (name : String) (first last : Int) (textAt : Int → Except Failure String)
  | rehighlight (name : String) (lineCount : Int) (textAt : Int → Except Failure String)
  /-- A job of a worker ends. -/
  | endJob (worker place : Nat) (result : WorkResult)
  /-- The call that waits for a job is cancelled. -/
  | cancel (worker place : Nat)
  /-- A worker takes no further batches. -/
  | breakDown (worker : Nat) (reason : String)
  /-- A worker highlights lines for somebody else. -/
  | elsewhere (worker : Nat) (language theme : String) (lines : Lines String)
  | dispose

namespace Highlighter

def withCache (h : Highlighter) (c : Cache) : Highlighter := { h with cache := c }

/-- Changes one of the workers, if there is one at the place. -/
def changeWorker (h : Highlighter) (worker : Nat) (f : Worker → Worker) : Highlighter :=
  match h.workers[worker]? with
  | none => h
  | some w => { h with workers := h.workers.set worker (f w) }

/-- What an action does. -/
def act (h : Highlighter) : Action → Highlighter × List Event
  | .look i text =>
    let (_, c, trace) := h.cache.line i text
    (h.withCache c, trace.map .trace)
  | .invalidateAll => (h.withCache h.cache.invalidateAll, [])
  | .invalidateLines lines => (h.withCache (h.cache.invalidateLines lines), [])
  | .invalidateRange first last => (h.withCache (h.cache.invalidateRange first last), [])
  | .preHighlight name first last textAt => h.preHighlight name first last textAt
  | .rehighlight name lineCount textAt => h.rehighlight name lineCount textAt
  | .endJob worker place result => h.endJob worker place result
  | .cancel worker place => h.cancel worker place
  | .breakDown worker reason => (h.changeWorker worker ({ · with fault := some reason }), [])
  | .elsewhere worker language theme lines =>
    (h.changeWorker worker (fun w => (w.work h.stock language theme lines).2), [])
  | .dispose => h.dispose

/-! ## Courses -/

/-- A highlighter after some actions, and what they yielded. -/
def run (h : Highlighter) : List Action → Highlighter × List Event
  | [] => (h, [])
  | a :: rest =>
    let (h, events) := h.act a
    let (h, more) := h.run rest
    (h, events ++ more)

/-- A highlighter after some actions. -/
def after (h : Highlighter) (actions : List Action) : Highlighter := (h.run actions).1

end Highlighter

end EditorServices.Highlight
