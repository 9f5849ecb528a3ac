import EditorServices.Config.Settings
import EditorServices.Highlight.Cache
import EditorServices.Schema.Checked

/-!
# `Highlight.Worker` — highlighting batches apart from the cache

A worker gets the names of a language and a theme with the lines of a batch, and gives plain data back.
It shares nothing with the cache: it makes tokenizers of its own, and keeps a few of them for the batches
that come later.

## Contents
- **Plain data.** Spans as they leave a worker, and `readSpans`, as they are taken in.
- **Kept tokenizers.** `KeptTokenizers`, of which the one that was not used for longest makes room.
- **Workers.** `Worker` takes batches in turn; `Worker.work` highlights one.
-/

namespace EditorServices.Highlight

/-! ## Plain data -/

/-- The span of a line as plain data. -/
def Tokenizer.plainSpan (t : Tokenizer) (line : String) : Json × Tokenizer :=
  let (span, t) := t.spanOf line
  ((span.map Span.toJson).getD .null, t)

/-- The spans of lines as plain data, one after the other. -/
def Tokenizer.plainSpans (t : Tokenizer) : Lines String → Lines Json × Tokenizer
  | [] => ([], t)
  | (i, line) :: rest =>
    let (span, t) := t.plainSpan line
    let (spans, t) := t.plainSpans rest
    ((i, span) :: spans, t)

/-- The span that plain data describes; null stands for none. -/
def readSpan : Json → Except Failure (Option Span)
  | .null => .ok none
  | j => ((Span.check j).outcome "Span").map some

/-- The spans that plain data describes, up to one that is none. -/
def readSpans : Lines Json → Except Failure (Lines (Option Span))
  | [] => .ok []
  | (i, j) :: rest => do
    let span ← readSpan j
    let spans ← readSpans rest
    return (i, span) :: spans

/-! ## Kept tokenizers -/

/-- Tokenizers by the names of their language and theme, the one that was used last first. -/
abbrev KeptTokenizers := List ((String × String) × Tokenizer)

namespace KeptTokenizers

/-- How many are kept. -/
def capacity : Nat := 8

/-- The tokenizer of two names: the one that is kept, or a new one. -/
def pick (stock : Stock) (kept : KeptTokenizers) (language theme : String) : Tokenizer :=
  (kept.lookup (language, theme)).getD (Tokenizer.new stock language theme).1

/-- Keeps a tokenizer that was used just now. -/
def keep (kept : KeptTokenizers) (language theme : String) (t : Tokenizer) : KeptTokenizers :=
  (((language, theme), t) :: kept.filter (·.1 != (language, theme))).take capacity

end KeptTokenizers

/-! ## Workers -/

/-- Where a worker comes from: made on demand, given by the caller, or given and out of order. -/
inductive WorkerOrigin where
  | owned (kind : WorkerKind)
  | given
  | broken (reason : String)
deriving DecidableEq

namespace WorkerOrigin

def name : WorkerOrigin → String
  | .owned kind => kind.name
  | .given => "given"
  | .broken _ => "broken"

/-- Why a worker is out of order from the start. -/
def fault? : WorkerOrigin → Option String
  | .broken reason => some reason
  | _ => none

end WorkerOrigin

/-- A call that waits for a batch. -/
structure Job where
  name : String
  batch : Batch
deriving DecidableEq

/-- A worker: the batch it works on is the first, the others wait. -/
structure Worker where
  origin : WorkerOrigin
  /-- Why it takes no batches, if it is out of order. -/
  fault : Option String
  jobs : List Job
  kept : KeptTokenizers

/-- How a worker's batch ended. -/
inductive WorkResult where
  | done
  | failed (reason : String)
deriving DecidableEq

namespace Worker

/-- A worker that did nothing yet. -/
def new (origin : WorkerOrigin) : Worker := ⟨origin, origin.fault?, [], []⟩

/-- Highlights lines with the tokenizer of two names. What is reported about the names is not seen
outside. -/
def work (stock : Stock) (w : Worker) (language theme : String) (lines : Lines String) :
    Lines Json × Worker :=
  let (spans, t) := (w.kept.pick stock language theme).plainSpans lines
  (spans, { w with kept := w.kept.keep language theme t })

end Worker

end EditorServices.Highlight
