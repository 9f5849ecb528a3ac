import EditorServices.Highlight.Worker

/-!
# `Highlight.Highlighter` — a cache whose large batches go to a worker

A call gathers the lines that need highlighting. A small batch is highlighted at once; a large one
is handed to a worker, and the call goes on when the worker has finished it, failed, or dropped it.

## Contents
- **The highlighter.** `Highlighter` and the events that its steps yield.
- **Calls.** `process` starts on a batch; `finish` goes on when a worker is done, which `endJob` decides.
- **Operations.** `preHighlight`, `rehighlight`, `release`, `cancel`, `dispose`.
-/

namespace EditorServices.Highlight

/-! ## The highlighter -/

/-- What is told of a finished call. -/
inductive Listener where
  | absent
  | present
  /-- Is told, and fails. -/
  | failing (reason : String)
deriving DecidableEq

/-- Where a call's lines were highlighted. -/
inductive Route where
  | inline
  | worker
deriving DecidableEq

def Route.name : Route → String
  | .inline => "sync"
  | .worker => "offload"

/-- What a step of a highlighter yields. -/
inductive Event where
  | trace (t : Trace)
  | workerMade (name : String)
  | submitted (language theme : String) (lines : Lines String)
  | workerStopped
  /-- The listener is told, and finds the cache like this. -/
  | notified (cache : Cache)
  | completed (name : String) (result : Except Failure (Option Route))

/-- A cache with its workers. -/
structure Highlighter where
  /-- The lexers and themes that there are, here and in workers. -/
  stock : Stock
  cache : Cache
  threshold : Numeral
  kind : WorkerKind
  listener : Listener
  /-- Whether workers finish a batch only when they are told to. -/
  holds : Bool
  /-- All workers so far, the latest last. -/
  workers : List Worker
  /-- Whether the latest worker is the one in use. -/
  inUse : Bool
  disposed : Bool

namespace Highlighter

/-- The name under which offloaded batches are timed. -/
def timerName : String := "offloaded highlight batch"

def logged (level : Log.Level) (message : String) (extra : Members) : Event :=
  .trace (.logged ⟨level, Cache.service, message, extra⟩)

/-- The line that a timer writes when it starts. -/
def timerStarted (lines : Nat) : Event :=
  logged .info timerName [("lines", .int lines), ("status", .str "started")]

/-- The line that a timer writes when it stops; no time passes meanwhile. -/
def timerStopped (lines : Nat) : Event :=
  logged .info timerName
    [("lines", .int lines), ("status", .str "completed"), ("duration", .int 0)]

/-- A highlighter, with a worker if one is given, and what is reported about its names. -/
def new (stock : Stock) (language : String) (config : HighlightConfig)
    (threshold : Numeral) (given : Option WorkerOrigin) (listener : Listener) (holds : Bool) :
    Highlighter × List Event :=
  let (tokenizer, reports) := Tokenizer.new stock language config.theme
  let workers := given.toList.map Worker.new
  (⟨stock, .new language config.theme tokenizer, threshold, config.worker, listener, holds, workers,
      !workers.isEmpty, false⟩,
    (reports.map fun e => .trace (.logged e)) ++ workers.map fun w => .workerMade w.origin.name)

/-! ## Calls -/

/-- Tells the listener. -/
def notify (h : Highlighter) : List Event :=
  match h.listener with
  | .absent => []
  | .present => [.notified h.cache]
  | .failing reason =>
    [.notified h.cache, logged .error "highlight complete callback failed" [("error", .str reason)]]

/-- Goes on with a call when its batch has ended: with the data of a worker, or without because the
worker failed, in which case the lines are highlighted here. After disposal nothing is stored. -/
def finish (h : Highlighter) (job : Job) (data : Except String (Lines Json)) :
    Highlighter × List Event :=
  let lines := job.batch.lines
  let (spans, c, events) : Except Failure (Lines (Option Span)) × Cache × List Event := match data with
    | .ok data => (readSpans data, h.cache, [])
    | .error reason =>
      let (spans, c, trace) := h.cache.renderAll lines
      (.ok spans, c, logged .warn "highlight worker failed, tokenizing inline"
        [("lines", .int lines.length), ("error", .str reason)] :: trace.map .trace)
  let h := { h with cache := c }
  let events := events ++ [timerStopped lines.length]
  match spans with
  | .error f => (h, events ++ [.completed job.name (.error f)])
  | .ok spans =>
    if h.disposed then (h, events ++ [.completed job.name (.ok none)])
    else
      let h := { h with cache := h.cache.merge job.batch spans }
      (h, events ++ h.notify ++ [.completed job.name (.ok (some .worker))])

/-- A job of a worker ends, whichever it is. -/
def endJob (h : Highlighter) (worker place : Nat) (result : WorkResult) : Highlighter × List Event :=
  match h.workers[worker]? with
  | none => (h, [])
  | some w => match w.jobs[place]? with
    | none => (h, [])
    | some job =>
      let (w, data) : Worker × Except String (Lines Json) := match result with
        | .done =>
          let (spans, w) := w.work h.stock h.cache.language h.cache.theme job.batch.lines
          (w, .ok spans)
        | .failed reason => (w, .error reason)
      { h with workers := h.workers.set worker { w with jobs := w.jobs.eraseIdx place } }.finish job data

/-- The worker in use, made if there is none. -/
def ensureWorker (h : Highlighter) : Highlighter × List Event :=
  if h.inUse then (h, [])
  else ({ h with workers := h.workers ++ [.new (.owned h.kind)], inUse := true },
    [.workerMade h.kind.name])

/-- The latest worker. -/
def latest? (h : Highlighter) : Option Worker := h.workers.getLast?

/-- Replaces the jobs of the latest worker. -/
def setJobs (h : Highlighter) (jobs : List Job) : Highlighter :=
  match h.workers.getLast? with
  | some w => { h with workers := h.workers.dropLast ++ [{ w with jobs := jobs }] }
  | none => h

/-- The place of the latest worker. -/
def latest (h : Highlighter) : Nat := h.workers.length - 1

/-- Hands a batch to the worker. Unless it holds batches back, the worker ends this one at once. -/
def submit (h : Highlighter) (job : Job) : Highlighter × List Event :=
  let (h, made) := h.ensureWorker
  let events := made ++ [.submitted h.cache.language h.cache.theme job.batch.lines]
  match h.latest? with
  | none => (h, events)
  | some w => match w.fault with
    | some reason =>
      let (h, more) := h.finish job (.error reason)
      (h, events ++ more)
    | none =>
      let h := h.setJobs (w.jobs ++ [job])
      if h.holds then (h, events)
      else
        let (h, more) := h.endJob h.latest w.jobs.length .done
        (h, events ++ more)

/-- Starts on gathered lines. -/
def process (h : Highlighter) (name : String) (lines : Lines String) : Highlighter × List Event :=
  if lines.isEmpty then (h, [.completed name (.ok none)])
  else if h.threshold.isAbove lines.length then
    let (cache, trace) := h.cache.renderNow lines
    let h := { h with cache := cache }
    (h, trace.map .trace ++ h.notify ++ [.completed name (.ok (some .inline))])
  else
    let (h, events) := h.submit ⟨name, ⟨lines, h.cache.generation⟩⟩
    (h, timerStarted lines.length :: events)

/-- The texts at some indices; fails at the first index without a line. -/
def textsAt (textAt : Int → Except Failure String) : List Int → Except Failure (Lines String)
  | [] => .ok []
  | i :: rest => do
    let text ← textAt i
    let more ← textsAt textAt rest
    .ok ((i, text) :: more)

/-- The texts at a number of indices from one on; fails at the first index without a line. -/
def textsFrom (textAt : Int → Except Failure String) (first : Int) :
    Nat → Except Failure (Lines String)
  | 0 => .ok []
  | n + 1 => do
    let text ← textAt first
    let more ← textsFrom textAt (first + 1) n
    .ok ((first, text) :: more)

/-! ## Operations -/

/-- Makes sure that a range of lines is highlighted. -/
def preHighlight (h : Highlighter) (name : String) (first last : Int)
    (textAt : Int → Except Failure String) : Highlighter × List Event :=
  match textsFrom textAt first (last - first + 1).toNat with
  | .error f => (h, [.completed name (.error f)])
  | .ok lines => h.process name (h.cache.unserved lines)

/-- Highlights the dirty lines of a document with a number of lines. -/
def rehighlight (h : Highlighter) (name : String) (lineCount : Int)
    (textAt : Int → Except Failure String) : Highlighter × List Event :=
  let h := { h with cache := h.cache.dropBeyond lineCount }
  match textsAt textAt h.cache.dirty with
  | .error f => (h, [.completed name (.error f)])
  | .ok lines => h.process name lines

/-- Lets the latest worker end its batch. -/
def release (h : Highlighter) (result : WorkResult) : Highlighter × List Event :=
  h.endJob h.latest 0 result

/-- The calls of batches that nobody waits for any longer. -/
def dropped (jobs : List Job) : List Event :=
  jobs.flatMap fun job =>
    [timerStopped job.batch.lines.length, .completed job.name (.error .cancelled)]

/-- Cancels the call that waits for a job of a worker. -/
def cancel (h : Highlighter) (worker place : Nat) : Highlighter × List Event :=
  match h.workers[worker]? with
  | none => (h, [])
  | some w => match w.jobs[place]? with
    | none => (h, [])
    | some job =>
      ({ h with workers := h.workers.set worker { w with jobs := w.jobs.eraseIdx place } }, dropped [job])

/-- Empties the cache for good. A worker made here is stopped: batches that wait are dropped, the
one it works on goes on. -/
def dispose (h : Highlighter) : Highlighter × List Event :=
  let closed := { h with cache := h.cache.clear, disposed := true, inUse := false }
  match h.inUse, h.latest? with
  | true, some ⟨.owned _, _, jobs, _⟩ =>
    (closed.setJobs (jobs.take 1), .workerStopped :: dropped (jobs.drop 1))
  | _, _ => (closed, [])

end Highlighter

end EditorServices.Highlight
