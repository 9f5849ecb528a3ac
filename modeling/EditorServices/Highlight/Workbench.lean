import EditorServices.Highlight.Request
import EditorServices.Text.LineBuffer

/-!
# `Highlight.Workbench` — a highlighter at work on a document

Whoever works at the bench gives indices and lines as values of any kind. Whole numbers name the
lines of the highlighter however they are written, and a record goes on to show its index as it was
first written. What is no whole number can still be an index, but no line of the document has it.

## Contents
- **The bench.** `Workbench`, what it keeps of the way in which things were written, and `Done`.
- **The document.** `textAt`, and the edits.
- **Looking up.** `look`.
- **Invalidation.** `invalidateAll`, `invalidateLines`, `invalidateRange`, `dispose`.
- **Batches.** `preHighlight` and `rehighlight`.
- **What is seen.** `Workbench.shown`.
-/

namespace EditorServices.Highlight

/-! ## The bench -/

/-- A highlighter with the document that it works on. -/
structure Workbench where
  highlighter : Highlighter
  document : LineBuffer Json
  /-- The number of lines from which a batch is large, as it was given. -/
  threshold : Json
  /-- Indices of records that were not written as plain whole numbers. -/
  written : List (Int × Json)
  /-- The same for indices that are dirty. -/
  writtenDirty : List (Int × Json)
  /-- Lines that count as nothing and are not the empty text, by the index of their record. -/
  blanks : List (Int × Json)
  /-- Records and dirty marks under what is no whole number. -/
  strays : List (Json × LineRecord)
  strayMarks : List Json
  /-- How often the listener was told. -/
  notified : Nat

/-- What came of a step at the bench. -/
structure Done where
  bench : Workbench
  events : List Event
  /-- What was given to the lexer though it is no text. -/
  refused : List Json
  result : Except Failure Json

namespace Workbench

def new (highlighter : Highlighter) (document : LineBuffer Json) (threshold : Json) : Workbench :=
  ⟨highlighter, document, threshold, [], [], [], [], [], 0⟩

/-- A step that only changes the bench. -/
def silently (w : Workbench) : Done := ⟨w, [], [], .ok .null⟩

/-- A step that fails and changes nothing. -/
def refuse (w : Workbench) (f : Failure) : Done := ⟨w, [], [], .error f⟩

/-- A step of the highlighter. -/
def working (w : Workbench) (p : Highlighter × List Event) : Done :=
  ⟨{ w with highlighter := p.1 }, p.2, [], .ok .null⟩

def withCache (w : Workbench) (c : Cache) : Workbench :=
  { w with highlighter := { w.highlighter with cache := c } }

def cache (w : Workbench) : Cache := w.highlighter.cache

/-- The whole number that a value names. -/
def wholeIndex? (j : Json) : Option Int :=
  match j.numeral?.map Numeral.plain with
  | some (.whole n) => some n
  | _ => none

/-- Keeps how an index is written, unless it is a plain whole number. -/
def keepWritten (kept : List (Int × Json)) (i : Int) (j : Json) : List (Int × Json) :=
  let others := kept.filter (·.1 != i)
  if j = .int i then others else (i, j) :: others

/-- An index as it was first written. -/
def asWritten (kept : List (Int × Json)) (i : Int) : Json := (kept.lookup i).getD (.int i)

/-! ## The document -/

/-- The line of the document at an index. Any number can be seen to be outside; only whole ones
that are written as such name a line. -/
def textAt (document : LineBuffer Json) (index : Json) : Except Failure Json :=
  match index.numeral? with
  | none => .error .wrongKind
  | some n =>
    if n.isBelow 0 || !n.isBelow document.length then .error .outOfRange
    else match index.position? with
      | some i => document.line i
      | none => .error .wrongKind

/-- The line at an index as the highlighter gets it. What counts as nothing is an empty line. -/
def lineText (document : LineBuffer Json) (i : Int) : Except Failure String := do
  let line ← document.line i
  match line with
  | .str s => return s
  | j => if j.isFalsy then return "" else throw (Tokenizer.notText j)

/-- An edit of the document at an index, which has to be an integer. -/
def edit (w : Workbench) (index : Json)
    (f : LineBuffer Json → Int → Except Failure (LineBuffer Json)) : Done :=
  match index.position? with
  | none => w.refuse .wrongKind
  | some i => match f w.document i with
    | .ok lines => { w with document := lines }.silently
    | .error e => w.refuse e

/-! ## Looking up -/

/-- A line that counts as nothing, as its record was given it. -/
def blankAt (w : Workbench) (i : Int) : Json := (w.blanks.lookup i).getD (.str "")

/-- The bench after a line was looked up: a record that was there keeps its index as written, and a
record that is served keeps its line as given. -/
def noteLook (w : Workbench) (i : Int) (index line : Json) (text : String) : Workbench :=
  let served := (w.cache.served? i text).isSome && (w.blankAt i).sameKey line
  { w with
    written := if w.cache.records.has i then w.written else keepWritten w.written i index
    blanks :=
      if served then w.blanks
      else (w.blanks.filter (·.1 != i)) ++ (if line = .str text then [] else [(i, line)]) }

/-- The span of a text at a whole index. -/
def lookWhole (w : Workbench) (i : Int) (index line : Json) (text : String) : Done :=
  let (span, c, trace) := w.cache.line i text
  ⟨(w.noteLook i index line text).withCache c, trace.map .trace, [],
    .ok ((span.map Span.toJson).getD .null)⟩

/-- The span of a text at an index that is no whole number. -/
def lookStray (w : Workbench) (index : Json) (text : String) : Done :=
  let served := match w.strays.find? fun s => s.1.sameKey index with
    | some (_, r) => if r.text = text ∧ r.generation = w.cache.generation then some r else none
    | none => none
  let (span, c, trace) := match served with
    | some r => (r.span, w.cache, [])
    | none => w.cache.render text
  let others := w.strays.filter fun s => !s.1.sameKey index
  ⟨{ w.withCache c with
      strays := others ++ [(index, ⟨text, span, w.cache.generation⟩)]
      strayMarks := w.strayMarks.filter fun j => !j.sameKey index },
    trace.map .trace, [], .ok ((span.map Span.toJson).getD .null)⟩

/-- The span of a line. What is no text and still counts as something goes to the lexer, but no
span can be made of it. -/
def look (w : Workbench) (index : Json) (given : Option Json) : Done :=
  match given.elim (textAt w.document index) .ok with
  | .error f => w.refuse f
  | .ok line =>
    if !index.isKey then w.refuse .wrongKind
    else
      let found (text : String) : Done := match wholeIndex? index with
        | some i => w.lookWhole i index line text
        | none => w.lookStray index text
      match line with
      | .str text => found text
      | j =>
        if j.isFalsy then found ""
        else ⟨w, [Highlighter.logged .warn "tokenize failed, rendering plain" []], [j],
          .error (Tokenizer.notText j)⟩

/-- Whether an index has a record. -/
def contains (w : Workbench) (index : Json) : Except Failure Bool :=
  if !index.isKey then .error .wrongKind
  else match wholeIndex? index with
    | some i => .ok (w.cache.records.has i)
    | none => .ok (w.strays.any fun s => s.1.sameKey index)

/-! ## Invalidation -/

def invalidateAll (w : Workbench) : Done :=
  { w.withCache w.cache.invalidateAll with strays := [] }.silently

/-- Removes the record of an index and marks the index dirty. -/
def forget (w : Workbench) (index : Json) : Workbench :=
  match wholeIndex? index with
  | some i =>
    let w :=
      if w.cache.dirty.contains i then w
      else { w with writtenDirty := keepWritten w.writtenDirty i index }
    w.withCache (w.cache.forget i)
  | none =>
    { w with
      strays := w.strays.filter fun s => !s.1.sameKey index
      strayMarks := if w.strayMarks.any (·.sameKey index) then w.strayMarks
        else w.strayMarks ++ [index] }

/-- Ends an invalidation. -/
def nextGeneration (w : Workbench) : Workbench :=
  w.withCache (w.cache.invalidateLines [])

/-- Forgets the indices that a value can be run through, up to one that cannot be an index. -/
def invalidateLines (w : Workbench) (lines : Json) : Done :=
  match lines.parts? with
  | none => w.refuse .wrongKind
  | some parts =>
    let w' := (parts.takeWhile Json.isKey).foldl forget w
    if parts.all Json.isKey then w'.nextGeneration.silently else w'.refuse .wrongKind

/-- Whether an index is a number above another one. -/
def isAfter (index : Json) (last : Int) : Bool :=
  match index.numeral? with
  | some n => n.isAbove last
  | none => false

def invalidateRange (w : Workbench) (first last : Json) : Done :=
  match first.position?, last.position? with
  | some a, some b =>
    { w.withCache (w.cache.invalidateRange a b) with
      strays := w.strays.filter fun s => !isAfter s.1 b }.silently
  | _, _ => w.refuse .wrongKind

/-- Empties the bench for good. -/
def dispose (w : Workbench) : Done :=
  { w with strays := [], strayMarks := [] }.working w.highlighter.dispose

/-! ## Batches -/

/-- Ends a call with a failure. -/
def failCall (w : Workbench) (name : String) (f : Failure) : Done :=
  ⟨w, [.completed name (.error f)], [], .ok .null⟩

/-- Whether a call had nothing to do or failed before it did something. -/
def didNothing (events : List Event) : Bool :=
  events.all fun
    | .completed _ (.ok none) | .completed _ (.error _) => true
    | _ => false

/-- A call of the highlighter. One that has something to do fails if the threshold is no number. -/
def calling (w : Workbench) (name : String) (p : Highlighter × List Event) : Done :=
  if w.threshold.numeral?.isSome || didNothing p.2 then w.working p
  else w.failCall name .wrongKind

def preHighlight (w : Workbench) (name : String) (first last : Json) : Done :=
  match first.position?, last.position? with
  | some a, some b => w.calling name (w.highlighter.preHighlight name a b (lineText w.document))
  | _, _ => w.failCall name .wrongKind

/-- The number of lines that a numeral allows for: the least whole number that is not below it. -/
def lineCount (n : Numeral) (dirty : LineSet) : Int :=
  match n.plain, n.floor? with
  | .whole k, _ => k
  | .binary _, some k => k + 1
  | .binary x, none =>
    if x.isNegative && x.isInfinite then dirty.headD 0 else dirty.getLastD 0 + 1

/-- The first index that is dirty and cannot name a line. -/
def oddMark? (w : Workbench) : Option Json :=
  match w.writtenDirty.find? fun m => m.2.position?.isNone with
  | some m => some m.2
  | none => w.strayMarks.head?

/-- Highlights the dirty lines of a document with a number of lines. -/
def rehighlight (w : Workbench) (name : String) (count : Json) : Done :=
  match count.numeral? with
  | none =>
    if w.cache.dirty.isEmpty && w.strayMarks.isEmpty then
      w.working (w.highlighter.rehighlight name 0 (lineText w.document))
    else w.failCall name .wrongKind
  | some n =>
    if w.strayMarks.any fun j => j.numeral?.isNone then w.failCall name .wrongKind
    else
      let bound := lineCount n w.cache.dirty
      let c := w.cache.dropBeyond bound
      let w := { w.withCache c with
        writtenDirty := w.writtenDirty.filter fun m => c.dirty.contains m.1
        strayMarks := w.strayMarks.filter fun j => j.numeral?.any fun m => !n.le m }
      match w.oddMark? with
      | some j => w.failCall name (match textAt w.document j with
          | .error f => f
          | .ok _ => .wrongKind)
      | none => w.calling name (w.highlighter.rehighlight name bound (lineText w.document))

/-! ## What is seen -/

/-- Forgets how indices and lines were written that no longer have a record or mark. -/
def tidied (w : Workbench) : Workbench :=
  { w with
    written := w.written.filter fun m => w.cache.records.has m.1
    writtenDirty := w.writtenDirty.filter fun m => w.cache.dirty.contains m.1
    blanks := w.blanks.filter fun m => (w.cache.records.get? m.1).any fun r => r.text.isEmpty }

/-- The call that is over. -/
def completed? : Event → Option Json
  | .completed name result => some (.arr [.str name,
      Failure.outcomeJson (result.map fun route => (route.map fun x => .str x.name).getD .null)])
  | _ => none

/-- The text that went to the lexer. -/
def highlighted? : Event → Option Json
  | .trace (.highlighted text) => some (.str text)
  | _ => none

/-- What a worker was told. -/
def worker? : Event → Option Json
  | .workerMade name => some (.ofTexts ["create", name])
  | .submitted language theme lines => some (.arr [.str "submit", .str "highlight_batch",
      .arr [.str language, .str theme,
        .obj (lines.map fun (i, text) => (String.ofList (intDigits i), .str text))]])
  | .workerStopped => some (.arr [.str "shutdown", .bool false, .bool true])
  | _ => none

def entry? : Event → Option Log.Entry
  | .trace (.logged e) => some e
  | _ => none

/-- The order of rows that start with an index. -/
def rowLe (a b : Json × Json) : Bool :=
  match a.1.numeral?, b.1.numeral? with
  | some x, some y => x.le y
  | _, _ => true

/-- Values under their indices, in the order of these. -/
def inOrder (rows : List (Json × Json)) : Json := .arr ((rows.mergeSort rowLe).map (·.2))

/-- A record as it is shown. -/
def row (index : Json) (generation : Nat) (text : Json) : Json × Json :=
  (index, .arr [index, .int generation, text])

/-- The records. -/
def rows (w : Workbench) : List (Json × Json) :=
  (w.cache.records.map fun (i, r) =>
    row (asWritten w.written i) r.generation
      (if r.text.isEmpty then w.blankAt i else .str r.text)) ++
  w.strays.map fun (j, r) => row j r.generation (.str r.text)

/-- The dirty indices. -/
def marks (w : Workbench) : List (Json × Json) :=
  (w.cache.dirty.map fun i => asWritten w.writtenDirty i).map (fun j => (j, j)) ++
    w.strayMarks.map fun j => (j, j)

/-- The bench after a step, and what is seen of both. -/
def seen (d : Done) (early : List Event) : Workbench × Json :=
  let events := early ++ d.events
  let told := (events.filter fun
    | .notified _ => true
    | _ => false).length
  let w := { d.bench.tidied with notified := d.bench.notified + told }
  (w, Json.withMembers (Failure.outcomeJson d.result) [
    ("completed", .arr (events.filterMap completed?)),
    ("inline", .arr (events.filterMap highlighted? ++ d.refused)),
    ("executor", .arr (events.filterMap worker?)),
    ("notified", .int w.notified),
    ("generation", .int w.cache.generation),
    ("dirty", inOrder w.marks),
    ("size", .int (w.cache.records.length + w.strays.length : Nat)),
    ("records", inOrder w.rows),
    ("logs", Log.Entry.listed (events.filterMap entry?))])

end Workbench

end EditorServices.Highlight
