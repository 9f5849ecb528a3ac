import EditorServices.Highlight.Action
import EditorServices.Proofs.Highlight.Ascending
import EditorServices.Proofs.Highlight.PlainData

/-!
# `Proofs.Highlight.Transparency` — a cache cannot be told from a tokenizer

Records come from three places: they are made when a line is looked up, taken in from a worker, or made
after a worker failed. They stay when lines move, and those of a batch are merged when the cache has gone
on for long. What is shown for a line is still what a new tokenizer would make of it, because a record
always has the span that its own text means, and is served for no other text.

## Contents
- **Setting.** `Setting`, the names that a highlighter was made for, and its tokenizer.
- **Caches.** `Cache.Sound`, kept by each operation of a cache.
- **Calls.** `Highlighter.Sound`, kept when a call starts, goes on, or ends.
- **Courses.** `Highlighter.Sound.act` and `sound_after`.
- **Transparency.** `line_of_course`: after every course, what is shown for a line is what a new cache
  shows.
-/

namespace EditorServices.Highlight

/-! ## Setting -/

/-- What a highlighter was made for. -/
structure Setting where
  stock : Stock
  language : String
  theme : String

/-- A new tokenizer. -/
def Setting.tokenizer (s : Setting) : Tokenizer := (Tokenizer.new s.stock s.language s.theme).1

variable {s : Setting}

/-! ## Caches -/

namespace Cache

/-- A cache that shows what a new tokenizer means: its own tokenizer stands for a new one, and each record
has the span that its text means. Records and dirty indices are in order. -/
structure Sound (s : Setting) (c : Cache) : Prop where
  language : c.language = s.language
  theme : c.theme = s.theme
  tokenizer : c.tokenizer.StandsFor s.tokenizer
  records : ∀ p ∈ c.records, p.2.span = s.tokenizer.answer p.2.text
  order : c.records.Ascending
  dirty : c.dirty.Ascending

variable {c : Cache}

theorem sound_new (s : Setting) : (new s.language s.theme s.tokenizer).Sound s := by
  refine ⟨rfl, rfl, Tokenizer.standsFor_new s.stock s.language s.theme, ?_, Lines.ascending_nil,
    List.Pairwise.nil⟩
  intro p hp
  exact absurd hp List.not_mem_nil

/-- A record is served only at its index, for its text, in its generation. -/
theorem served?_eq_some {i : Int} {text : String} {r : LineRecord} (h : c.served? i text = some r) :
    c.records.get? i = some r ∧ r.text = text ∧ r.generation = c.generation := by
  unfold served? at h
  cases hr : c.records.get? i with
  | none =>
    rw [hr] at h
    cases h
  | some r' =>
    rw [hr] at h
    obtain ⟨hcurrent, heq⟩ := Option.ite_none_right_eq_some.mp h
    cases heq
    exact ⟨rfl, hcurrent⟩

/-- What is served for a text is what the text means. -/
theorem Sound.served (h : c.Sound s) {i : Int} {text : String} {r : LineRecord}
    (hr : c.served? i text = some r) : r.span = s.tokenizer.answer text := by
  obtain ⟨hget, htext, -⟩ := served?_eq_some hr
  rw [← htext]
  exact h.records (i, r) (Lines.mem_of_get? hget)

/-- A line is highlighted as it is meant. -/
theorem Sound.render (h : c.Sound s) (text : String) :
    (c.render text).1 = s.tokenizer.answer text ∧ (c.render text).2.1.Sound s := by
  have hfst := h.tokenizer.highlight_fst text
  have hsnd := h.tokenizer.highlight_snd text
  unfold Cache.render Tokenizer.answer
  by_cases he : text.isEmpty = true
  · rw [if_pos he, if_pos he]
    exact ⟨rfl, h⟩
  · rw [if_neg he, if_neg he, ← hfst]
    revert hsnd
    generalize c.tokenizer.highlight text = x
    obtain ⟨result, t⟩ := x
    intro hsnd
    cases result with
    | ok span => exact ⟨rfl, { h with tokenizer := hsnd }⟩
    | error f => exact ⟨rfl, { h with tokenizer := hsnd }⟩

/-- Setting a record whose span is meant. -/
theorem Sound.records_put (h : c.Sound s) (i : Int) {r : LineRecord}
    (hr : r.span = s.tokenizer.answer r.text) :
    ∀ p ∈ c.records.put i r, p.2.span = s.tokenizer.answer p.2.text := by
  intro p hp
  rcases Lines.mem_put hp with rfl | hp
  · exact hr
  · exact h.records p hp

theorem Sound.store (h : c.Sound s) (i : Int) {r : LineRecord}
    (hr : r.span = s.tokenizer.answer r.text) : (c.store i r).Sound s := by
  refine { h with records := h.records_put i hr, order := h.order.put i r, dirty := ?_ }
  show LineSet.Ascending (if r.generation = c.generation then c.dirty.erase i else c.dirty)
  by_cases hg : r.generation = c.generation
  · rw [if_pos hg]
    exact h.dirty.erase i
  · rw [if_neg hg]
    exact h.dirty

/-- **What is shown for a line is what its text means**, whether a record is served or made. -/
theorem Sound.line (h : c.Sound s) (i : Int) (text : String) :
    (c.line i text).1 = s.tokenizer.answer text ∧ (c.line i text).2.1.Sound s := by
  unfold Cache.line
  cases hr : c.served? i text with
  | some r => exact ⟨h.served hr, h⟩
  | none =>
    obtain ⟨hspan, hc⟩ := h.render text
    refine ⟨hspan, ?_⟩
    exact { hc with
      records := hc.records_put i hspan
      order := hc.order.put i _
      dirty := hc.dirty.erase i }

/-! ### Invalidation -/

theorem Sound.invalidateAll (h : c.Sound s) : c.invalidateAll.Sound s :=
  { h with records := fun _ hp => absurd hp List.not_mem_nil, order := Lines.ascending_nil }

/-- Fewer records are as sound as all. -/
theorem Sound.filter (h : c.Sound s) (keep : Int × LineRecord → Bool) :
    ∀ p ∈ c.records.filter keep, p.2.span = s.tokenizer.answer p.2.text :=
  fun p hp => h.records p (List.mem_filter.mp hp).1

theorem Sound.forget (h : c.Sound s) (i : Int) : (c.forget i).Sound s :=
  { h with records := h.filter _, order := h.order.filter _, dirty := h.dirty.insert i }

theorem Sound.invalidateLines (h : c.Sound s) (lines : List Int) : (c.invalidateLines lines).Sound s := by
  have hall : (lines.foldl Cache.forget c).Sound s := by
    induction lines generalizing c with
    | nil => exact h
    | cons i rest ih => exact ih (h.forget i)
  exact { hall with }

theorem Sound.invalidateRange (h : c.Sound s) (first last : Int) :
    (c.invalidateRange first last).Sound s :=
  { h with
    records := h.filter _
    order := h.order.filter _
    dirty := h.dirty.union (ascending_indexRange first last) }

theorem Sound.dropBeyond (h : c.Sound s) (lineCount : Int) : (c.dropBeyond lineCount).Sound s :=
  { h with dirty := h.dirty.filter _ }

theorem Sound.clear (h : c.Sound s) : c.clear.Sound s :=
  { h with
    records := fun _ hp => absurd hp List.not_mem_nil
    order := Lines.ascending_nil
    dirty := List.Pairwise.nil }

/-! ### Batches -/

/-- A batch that is highlighted here gets the spans that are meant. -/
theorem Sound.renderAll (h : c.Sound s) (lines : Lines String) :
    (c.renderAll lines).1 = s.tokenizer.answers lines ∧ (c.renderAll lines).2.1.Sound s := by
  induction lines generalizing c with
  | nil => exact ⟨rfl, h⟩
  | cons p rest ih =>
    obtain ⟨i, text⟩ := p
    obtain ⟨hspan, hc⟩ := h.render text
    obtain ⟨hspans, hc'⟩ := ih hc
    refine ⟨?_, hc'⟩
    show (i, (c.render text).1) :: ((c.render text).2.1.renderAll rest).1 = _
    rw [hspan, hspans]
    rfl

theorem Sound.renderNow (h : c.Sound s) (lines : Lines String) : (c.renderNow lines).1.Sound s := by
  induction lines generalizing c with
  | nil => exact h
  | cons p rest ih =>
    obtain ⟨i, text⟩ := p
    obtain ⟨hspan, hc⟩ := h.render text
    exact ih (hc.store i hspan)

theorem Sound.mergeLine (h : c.Sound s) (i : Int) {r : LineRecord}
    (hr : r.span = s.tokenizer.answer r.text) : (c.mergeLine i r).Sound s := by
  unfold Cache.mergeLine
  by_cases hn : c.hasNewer i r.generation = true
  · rw [if_pos hn]
    exact h
  · rw [if_neg hn]
    exact h.store i hr

/-- Merging spans of which each is what the line at its index means. -/
theorem Sound.merge (h : c.Sound s) (batch : Batch) {spans : Lines (Option Span)}
    (hspans : ∀ p ∈ spans, ∀ text, batch.lines.get? p.1 = some text → p.2 = s.tokenizer.answer text) :
    (c.merge batch spans).Sound s := by
  unfold Cache.merge
  induction spans generalizing c with
  | nil => exact h
  | cons p rest ih =>
    obtain ⟨i, span⟩ := p
    refine ih ?_ fun p hp => hspans p (List.mem_cons_of_mem _ hp)
    have hp := hspans (i, span) List.mem_cons_self
    dsimp only at hp ⊢
    cases ht : batch.lines.get? i with
    | none => exact h
    | some text => exact h.mergeLine i (hp text ht)

/-- The spans that the lines of a batch mean can be merged into the cache: a batch has one text at each
index, so it is that of the span. -/
theorem Sound.merge_answers (h : c.Sound s) {batch : Batch} (hb : batch.lines.Ascending) :
    (c.merge batch (s.tokenizer.answers batch.lines)).Sound s := by
  refine h.merge batch ?_
  intro p hp text ht
  obtain ⟨q, hq, rfl⟩ := List.mem_map.mp hp
  show s.tokenizer.answer q.2 = _
  rw [hb.eq_of_mem hq (Lines.mem_of_get? ht)]

end Cache

/-! ## Calls -/

/-- A worker with honest tokenizers whose jobs have their lines in order. -/
structure Worker.Sound (stock : Stock) (w : Worker) : Prop where
  honest : w.Honest stock
  jobs : ∀ job ∈ w.jobs, job.batch.lines.Ascending

theorem Worker.sound_new (stock : Stock) (origin : WorkerOrigin) : (new origin).Sound stock :=
  ⟨honest_new stock origin, fun _ hjob => absurd hjob List.not_mem_nil⟩

/-- A worker that loses a job. -/
theorem Worker.Sound.eraseJob {stock : Stock} {w : Worker} (h : w.Sound stock) (place : Nat) :
    Worker.Sound stock { w with jobs := w.jobs.eraseIdx place } :=
  { h with jobs := fun job hjob => h.jobs job (List.mem_of_mem_eraseIdx hjob) }

namespace Highlighter

/-- A highlighter of a setting: cache and workers are sound. -/
structure Sound (s : Setting) (h : Highlighter) : Prop where
  stock : h.stock = s.stock
  cache : h.cache.Sound s
  workers : ∀ w ∈ h.workers, w.Sound s.stock

variable {h : Highlighter}

theorem Sound.withCache (hs : h.Sound s) {c : Cache} (hc : c.Sound s) : (h.withCache c).Sound s :=
  { hs with cache := hc }

/-- Changing a worker in a way that keeps it sound. -/
theorem Sound.setWorker (hs : h.Sound s) (worker : Nat) {w : Worker} (hw : w.Sound s.stock) :
    Sound s { h with workers := h.workers.set worker w } := by
  refine { hs with workers := ?_ }
  intro w' hw'
  rcases List.mem_or_eq_of_mem_set hw' with hmem | rfl
  · exact hs.workers w' hmem
  · exact hw

/-- **A call goes on as it should, whether a worker gave the spans or failed**: in the one case they are read
as what the lines mean, in the other they are made here. -/
theorem Sound.finish (hs : h.Sound s) {job : Job} (hjob : job.batch.lines.Ascending)
    {data : Except String (Lines Json)}
    (hdata : ∀ spans, data = .ok spans → readSpans spans = .ok (s.tokenizer.answers job.batch.lines)) :
    (h.finish job data).1.Sound s := by
  -- from here on it makes no difference where the spans come from
  have hmerged : ∀ c : Cache, c.Sound s → ∀ h' : Highlighter, h'.stock = h.stock →
      h'.workers = h.workers → h'.cache = c.merge job.batch (s.tokenizer.answers job.batch.lines) →
      h'.Sound s := by
    intro c hc h' hstock hworkers hcache
    refine ⟨hstock.trans hs.stock, ?_, ?_⟩
    · rw [hcache]
      exact hc.merge_answers hjob
    · rw [hworkers]
      exact hs.workers
  unfold Highlighter.finish
  cases data with
  | ok spans =>
    dsimp only
    rw [hdata spans rfl]
    by_cases hd : h.disposed = true
    · simp only [hd, if_true]
      exact { hs with }
    · simp only [hd]
      exact hmerged h.cache hs.cache _ rfl rfl rfl
  | error reason =>
    obtain ⟨hspans, hc⟩ := hs.cache.renderAll job.batch.lines
    dsimp only
    rw [hspans]
    by_cases hd : h.disposed = true
    · simp only [hd, if_true]
      exact { hs with cache := hc }
    · simp only [hd]
      exact hmerged _ hc _ rfl rfl rfl

/-- **A job that ends goes on with what its lines mean**: its worker loses it and stays sound, and data that
it gives are read as what the lines mean. -/
theorem Sound.endJob_eq_finish (hs : h.Sound s) {worker place : Nat} {w : Worker} {job : Job}
    (hw : h.workers[worker]? = some w) (hj : w.jobs[place]? = some job) (result : WorkResult) :
    ∃ w' data, w'.Sound s.stock ∧ w'.jobs = w.jobs.eraseIdx place ∧
      (∀ spans, data = .ok spans → readSpans spans = .ok (s.tokenizer.answers job.batch.lines)) ∧
      h.endJob worker place result =
        Highlighter.finish { h with workers := h.workers.set worker w' } job data := by
  have hsound : w.Sound s.stock := hs.workers w (List.mem_of_getElem? hw)
  unfold Highlighter.endJob
  rw [hw]
  dsimp only
  rw [hj]
  cases result with
  | done =>
    refine ⟨_, _, ?_, rfl, ?_, rfl⟩
    · rw [hs.stock]
      exact Worker.Sound.eraseJob (w := (w.work s.stock h.cache.language h.cache.theme job.batch.lines).2)
        ⟨hsound.honest.work _ _ _, hsound.jobs⟩ place
    · intro spans hspans
      cases hspans
      rw [hs.stock, hs.cache.language, hs.cache.theme]
      exact hsound.honest.readSpans_work _ _ _
  | failed reason =>
    refine ⟨_, _, hsound.eraseJob place, rfl, ?_, rfl⟩
    intro spans hspans
    cases hspans

/-- A job ends as it should: what its worker gives is read as what its lines mean. -/
theorem Sound.endJob (hs : h.Sound s) (worker place : Nat) (result : WorkResult) :
    (h.endJob worker place result).1.Sound s := by
  cases hw : h.workers[worker]? with
  | none =>
    unfold Highlighter.endJob
    rw [hw]
    exact hs
  | some w =>
    cases hj : w.jobs[place]? with
    | none =>
      unfold Highlighter.endJob
      rw [hw]
      dsimp only
      rw [hj]
      exact hs
    | some job =>
      have hjob : job.batch.lines.Ascending :=
        (hs.workers w (List.mem_of_getElem? hw)).jobs job (List.mem_of_getElem? hj)
      obtain ⟨w', data, hw', -, hdata, heq⟩ := hs.endJob_eq_finish hw hj result
      rw [heq]
      exact (hs.setWorker worker hw').finish hjob hdata

theorem Sound.ensureWorker (hs : h.Sound s) : h.ensureWorker.1.Sound s := by
  unfold Highlighter.ensureWorker
  by_cases hu : h.inUse = true
  · rw [if_pos hu]
    exact hs
  · rw [if_neg hu]
    refine { hs with workers := ?_ }
    intro w hw
    rcases List.mem_append.mp hw with hw | hw
    · exact hs.workers w hw
    · rw [List.mem_singleton.mp hw]
      exact Worker.sound_new s.stock _

/-- Other jobs for the latest worker, all with their lines in order. -/
theorem Sound.setJobs (hs : h.Sound s) {jobs : List Job} (hjobs : ∀ job ∈ jobs, job.batch.lines.Ascending) :
    (h.setJobs jobs).Sound s := by
  unfold Highlighter.setJobs
  cases hl : h.workers.getLast? with
  | none => exact hs
  | some w =>
    refine { hs with workers := ?_ }
    intro w' hw'
    rcases List.mem_append.mp hw' with hw' | hw'
    · exact hs.workers w' (List.dropLast_subset _ hw')
    · rw [List.mem_singleton.mp hw']
      exact ⟨(hs.workers w (List.mem_of_getLast? hl)).honest, hjobs⟩

/-- A batch goes to the worker, which refuses it, holds it back, or ends it at once. -/
theorem Sound.submit (hs : h.Sound s) {job : Job} (hjob : job.batch.lines.Ascending) :
    (h.submit job).1.Sound s := by
  unfold Highlighter.submit
  have he := hs.ensureWorker
  revert he
  generalize h.ensureWorker = x
  obtain ⟨h', made⟩ := x
  intro he
  dsimp only at he ⊢
  cases hl : h'.latest? with
  | none => exact he
  | some w =>
    dsimp only
    cases w.fault with
    | some reason =>
      refine Sound.finish he hjob ?_
      intro spans hspans
      cases hspans
    | none =>
      have hset : (h'.setJobs (w.jobs ++ [job])).Sound s := by
        refine he.setJobs ?_
        intro job' hjob'
        rcases List.mem_append.mp hjob' with hjob' | hjob'
        · exact (he.workers w (List.mem_of_getLast? hl)).jobs job' hjob'
        · rw [List.mem_singleton.mp hjob']
          exact hjob
      dsimp only
      by_cases hh : (h'.setJobs (w.jobs ++ [job])).holds = true
      · rw [if_pos hh]
        exact hset
      · rw [if_neg hh]
        exact hset.endJob _ _ _

theorem Sound.process (hs : h.Sound s) (name : String) {lines : Lines String} (hlines : lines.Ascending) :
    (h.process name lines).1.Sound s := by
  unfold Highlighter.process
  by_cases he : lines.isEmpty = true
  · rw [if_pos he]
    exact hs
  · rw [if_neg he]
    by_cases ht : h.threshold.isAbove lines.length = true
    · rw [if_pos ht]
      exact { hs with cache := hs.cache.renderNow lines }
    · rw [if_neg ht]
      exact hs.submit hlines

theorem Sound.preHighlight (hs : h.Sound s) (name : String) (first last : Int)
    (textAt : Int → Except Failure String) : (h.preHighlight name first last textAt).1.Sound s := by
  unfold Highlighter.preHighlight
  cases ht : textsFrom textAt first (last - first + 1).toNat with
  | error f => exact hs
  | ok lines => exact hs.process name (ascending_unserved h.cache ht)

theorem Sound.rehighlight (hs : h.Sound s) (name : String) (lineCount : Int)
    (textAt : Int → Except Failure String) : (h.rehighlight name lineCount textAt).1.Sound s := by
  unfold Highlighter.rehighlight
  have hdrop := hs.withCache (hs.cache.dropBeyond lineCount)
  dsimp only
  cases ht : textsAt textAt (h.cache.dropBeyond lineCount).dirty with
  | error f => exact hdrop
  | ok lines => exact hdrop.process name (ascending_textsAt hdrop.cache.dirty ht)

theorem Sound.cancel (hs : h.Sound s) (worker place : Nat) : (h.cancel worker place).1.Sound s := by
  unfold Highlighter.cancel
  cases hw : h.workers[worker]? with
  | none => exact hs
  | some w =>
    dsimp only
    cases w.jobs[place]? with
    | none => exact hs
    | some job => exact hs.setWorker worker ((hs.workers w (List.mem_of_getElem? hw)).eraseJob place)

theorem Sound.dispose (hs : h.Sound s) : h.dispose.1.Sound s := by
  unfold Highlighter.dispose
  have hclosed : Sound s { h with cache := h.cache.clear, disposed := true, inUse := false } :=
    { hs with cache := hs.cache.clear }
  split
  · next jobs _ hl =>
    refine hclosed.setJobs ?_
    intro job hjob
    exact (hs.workers _ (List.mem_of_getLast? hl)).jobs job (List.mem_of_mem_take hjob)
  · exact hclosed

/-! ## Courses -/

theorem Sound.changeWorker (hs : h.Sound s) (worker : Nat) {f : Worker → Worker}
    (hf : ∀ w, w.Sound s.stock → (f w).Sound s.stock) : (h.changeWorker worker f).Sound s := by
  unfold Highlighter.changeWorker
  cases hw : h.workers[worker]? with
  | none => exact hs
  | some w => exact hs.setWorker worker (hf w (hs.workers w (List.mem_of_getElem? hw)))

/-- **Whatever happens to a sound highlighter, it stays sound.** -/
theorem Sound.act (hs : h.Sound s) (a : Action) : (h.act a).1.Sound s := by
  cases a with
  | look i text => exact hs.withCache (hs.cache.line i text).2
  | invalidateAll => exact hs.withCache hs.cache.invalidateAll
  | invalidateLines lines => exact hs.withCache (hs.cache.invalidateLines lines)
  | invalidateRange first last => exact hs.withCache (hs.cache.invalidateRange first last)
  | preHighlight name first last textAt => exact hs.preHighlight name first last textAt
  | rehighlight name lineCount textAt => exact hs.rehighlight name lineCount textAt
  | endJob worker place result => exact hs.endJob worker place result
  | cancel worker place => exact hs.cancel worker place
  | breakDown worker reason => exact hs.changeWorker worker fun w hw => { hw with }
  | elsewhere worker language theme lines =>
    -- the names are those of somebody else, and what is kept for them stays honest
    refine hs.changeWorker worker fun w hw => ⟨?_, hw.jobs⟩
    rw [hs.stock]
    exact hw.honest.work language theme lines
  | dispose => exact hs.dispose

theorem Sound.after (hs : h.Sound s) (actions : List Action) : (h.after actions).Sound s := by
  induction actions generalizing h with
  | nil => exact hs
  | cons a rest ih => exact ih (hs.act a)

theorem sound_new (s : Setting) (kind : WorkerKind) (bound : Nat) (threshold : Numeral)
    (given : Option WorkerOrigin) (listener : Listener) (holds : Bool) :
    (new s.stock s.language ⟨s.theme, bound, kind⟩ threshold given listener holds).1.Sound s := by
  refine ⟨rfl, Cache.sound_new s, ?_⟩
  intro w hw
  obtain ⟨origin, -, rfl⟩ := List.mem_map.mp hw
  exact Worker.sound_new s.stock origin

/-! ## Transparency -/

/-- **A cache cannot be told from a tokenizer.** After every course of actions, what is shown for a line is
what a new cache shows: nothing for the empty line, the span of the tokenizer if its lexer takes the line,
and a run without style if it does not. -/
theorem cache_transparent (stock : Stock) (language : String) (config : HighlightConfig)
    (threshold : Numeral) (given : Option WorkerOrigin) (listener : Listener) (holds : Bool)
    (actions : List Action) (i : Int) (text : String) :
    let tokenizer := (Tokenizer.new stock language config.theme).1
    let h := (Highlighter.new stock language config threshold given listener holds).1.after actions
    (h.cache.line i text).1 = ((Cache.new language config.theme tokenizer).line i text).1 ∧
    (h.cache.line i text).1 =
      if text.isEmpty then none
      else match (tokenizer.highlight text).1 with
        | .ok span => some span
        | .error _ => some (.plain text) := by
  intro tokenizer h
  let s : Setting := ⟨stock, language, config.theme⟩
  have hs : h.Sound s :=
    (sound_new s config.worker config.batchThreshold threshold given listener holds).after actions
  have hshown := (hs.cache.line i text).1
  refine ⟨?_, ?_⟩
  · rw [hshown]
    exact ((Cache.sound_new s).line i text).1.symm
  · rw [hshown, (Tokenizer.standsFor_new stock language config.theme).highlight_fst text]
    rfl

/-- A batch that is merged after its line changed is there, and is not shown. -/
example :
    let h := (new LexerEntry.extended "json" ⟨"monokai", 1, .thread⟩ (.whole 1) none .absent true).1.after
      [.preHighlight "ahead" 0 0 fun _ => .ok "1", .invalidateLines [0], .endJob 0 0 .done]
    (h.cache.records.get? 0).map LineRecord.text = some "1" ∧
      (h.cache.line 0 "true").1 = some (.node "" none none
        [.node "true" (some "Token.Keyword.Constant") (some "#66d9ef") []]) := by
  decide +kernel

end Highlighter

end EditorServices.Highlight
