import EditorServices.Highlight.Lines
import EditorServices.Highlight.Tokenizer

/-!
# `Highlight.Cache` — highlighted lines of one document

A record is served only if both its text and its generation are current, so that one step of the
generation makes all records stale. A batch of stale lines remembers the generation it was made at;
its records are stored at that generation, and never over a newer record.

## Contents
- **Records.** `LineRecord`, `Batch`, `Cache`, and which records are served.
- **Invalidation.** Forgetting all lines, some lines, or the lines from an edit on.
- **Looking up.** `Cache.line`, which highlights a line that is not served.
- **Batches.** The lines that a range or the dirty lines need; storing and merging.
-/

namespace EditorServices.Highlight

/-! ## Records -/

/-- A highlighted line: its text, its span, and the generation it was made at. -/
structure LineRecord where
  text : String
  span : Option Span
  generation : Nat
deriving DecidableEq

/-- The highlighted lines of one document. -/
structure Cache where
  language : String
  theme : String
  tokenizer : Tokenizer
  records : Lines LineRecord
  dirty : LineSet
  generation : Nat

/-- Lines to highlight together and the generation at which they were gathered. -/
structure Batch where
  lines : Lines String
  generation : Nat
deriving DecidableEq

/-- What a computation did on its way: lines it highlighted and log calls. -/
inductive Trace where
  | highlighted (line : String)
  | logged (entry : Log.Entry)

namespace Cache

/-- The service under which the cache reports. -/
def service : String := "highlight.cache"

/-- An empty cache. -/
def new (language theme : String) (tokenizer : Tokenizer) : Cache :=
  ⟨language, theme, tokenizer, [], [], 0⟩

/-- The record that is served for a text at an index. -/
def served? (c : Cache) (i : Int) (text : String) : Option LineRecord :=
  match c.records.get? i with
  | some r => if r.text = text ∧ r.generation = c.generation then some r else none
  | none => none

/-! ## Invalidation -/

/-- Forgets every line. -/
def invalidateAll (c : Cache) : Cache :=
  { c with records := [], generation := c.generation + 1 }

/-- Removes the record of a line and marks the line dirty. -/
def forget (c : Cache) (i : Int) : Cache :=
  { c with records := c.records.erase i, dirty := c.dirty.insert i }

/-- Forgets some lines and marks them dirty. -/
def invalidateLines (c : Cache) (lines : List Int) : Cache :=
  let c := lines.foldl forget c
  { c with generation := c.generation + 1 }

/-- Forgets a range of lines and marks them dirty; lines after it may have moved and are
forgotten. -/
def invalidateRange (c : Cache) (first last : Int) : Cache :=
  { c with
    records := c.records.dropFrom first last
    dirty := c.dirty.union (indexRange first last)
    generation := c.generation + 1 }

/-! ## Looking up -/

/-- Highlights a line; one that the lexer refuses is reported. -/
def render (c : Cache) (text : String) : Option Span × Cache × List Trace :=
  if text.isEmpty then (none, c, [])
  else match c.tokenizer.highlight text with
    | (.ok s, t) => (some s, { c with tokenizer := t }, [.highlighted text])
    | (.error f, t) => (some (.plain text), { c with tokenizer := t }, [.highlighted text,
        .logged ⟨.warn, service, "tokenize failed, rendering plain",
          [("language", .str c.language), ("error", .str f.text)]⟩])

/-- The span of a line, from its record if that is served; otherwise a record is made. -/
def line (c : Cache) (i : Int) (text : String) : Option Span × Cache × List Trace :=
  match c.served? i text with
  | some r => (r.span, c, [])
  | none =>
    let (span, c, trace) := c.render text
    (span, { c with
      records := c.records.put i ⟨text, span, c.generation⟩
      dirty := c.dirty.erase i }, trace)

/-! ## Batches -/

/-- The lines of a list that are not served, in the list's order. -/
def unserved (c : Cache) : List (Int × String) → Lines String
  | [] => []
  | (i, text) :: rest =>
    match c.served? i text with
    | some _ => c.unserved rest
    | none => (i, text) :: c.unserved rest

/-- Drops dirty marks at or above the number of lines. -/
def dropBeyond (c : Cache) (lineCount : Int) : Cache :=
  { c with dirty := c.dirty.filter fun i => decide (i < lineCount) }

/-- Stores a record. A line is dirty no longer if the record is of the current generation. -/
def store (c : Cache) (i : Int) (record : LineRecord) : Cache :=
  { c with
    records := c.records.put i record
    dirty := if record.generation = c.generation then c.dirty.erase i else c.dirty }

/-- Whether a line has a record that is newer than a generation. -/
def hasNewer (c : Cache) (i : Int) (generation : Nat) : Bool :=
  match c.records.get? i with
  | some r => generation < r.generation
  | none => false

/-- Stores the record of a batch unless a newer one is there. -/
def mergeLine (c : Cache) (i : Int) (record : LineRecord) : Cache :=
  if c.hasNewer i record.generation then c else c.store i record

/-- Merges the highlighted lines of a batch into the cache. Each is stored with its text in the batch. -/
def merge (c : Cache) (batch : Batch) (spans : Lines (Option Span)) : Cache :=
  spans.foldl (fun c (i, span) => match batch.lines.get? i with
    | some text => c.mergeLine i ⟨text, span, batch.generation⟩
    | none => c) c

/-- Highlights the lines of a batch one by one. -/
def renderAll (c : Cache) : Lines String → Lines (Option Span) × Cache × List Trace
  | [] => ([], c, [])
  | (i, text) :: rest =>
    let (span, c, trace) := c.render text
    let (spans, c, more) := c.renderAll rest
    ((i, span) :: spans, c, trace ++ more)

/-- Highlights the lines of a batch that was gathered just now, and stores them. -/
def renderNow (c : Cache) : Lines String → Cache × List Trace
  | [] => (c, [])
  | (i, text) :: rest =>
    let (span, c, trace) := c.render text
    let (c, more) := (c.store i ⟨text, span, c.generation⟩).renderNow rest
    (c, trace ++ more)

/-- Empties the cache. -/
def clear (c : Cache) : Cache := { c with records := [], dirty := [] }

end Cache

end EditorServices.Highlight
