import EditorServices.Proofs.Highlight.Invalidation
import EditorServices.Proofs.Highlight.Transparency

/-!
# `Proofs.Highlight.Ahead` — lines that are highlighted ahead, by whichever way

The stale lines of a range are highlighted at once if they are few. Otherwise a worker gets them, with
tokenizers of its own, and gives plain data back that has to be read; and if the worker fails the lines are
highlighted here after all, and merged as if they came from it. The plain way is to store, for one line after
the other, a record of the span that its text means (`Cache.highlighted`). Each of the three ways is shown to
end with the records, the marks and the generation of the plain way, and what a call establishes is then read
off the plain way alone.

## Contents
- **The plain way.** `Cache.highlighted`, and `Cache.Like`, in which the notes of a tokenizer have no part.
- **Three ways.** `Cache.like_renderNow`, `Cache.like_merge` and `Highlighter.like_finish`.
- **Alone.** `Highlighter.preHighlightAlone`, a call with nothing in between, and `alone_process`.
- **Ranges.** The lines that a call gathers, and `served_highlighted`, what is served once they are stored.
- **The headline.** `ahead_by_any_way`.
-/

namespace EditorServices.Highlight

namespace Cache

variable {c c' c'' : Cache} {s : Setting}

/-! ## The plain way -/

/-- A cache with records for lines that a tokenizer highlighted just now. -/
def highlighted (t : Tokenizer) (c : Cache) (lines : Lines String) : Cache :=
  lines.foldl (fun c p => c.store p.1 ⟨p.2, t.answer p.2, c.generation⟩) c

@[simp] theorem highlighted_nil (t : Tokenizer) (c : Cache) : c.highlighted t [] = c := rfl

@[simp] theorem highlighted_cons (t : Tokenizer) (c : Cache) (i : Int) (text : String)
    (rest : Lines String) :
    c.highlighted t ((i, text) :: rest) =
      (c.store i ⟨text, t.answer text, c.generation⟩).highlighted t rest := rfl

@[simp] theorem generation_store (c : Cache) (i : Int) (r : LineRecord) :
    (c.store i r).generation = c.generation := rfl

@[simp] theorem generation_highlighted (t : Tokenizer) (c : Cache) (lines : Lines String) :
    (c.highlighted t lines).generation = c.generation := by
  induction lines generalizing c with
  | nil => rfl
  | cons p rest ih => exact ih _

/-- Of an index that is not among the lines nothing changes. -/
theorem highlighted_of_not_mem (t : Tokenizer) {lines : Lines String} {i : Int}
    (hi : i ∉ lines.map Prod.fst) :
    (c.highlighted t lines).records.get? i = c.records.get? i ∧
      (i ∈ (c.highlighted t lines).dirty ↔ i ∈ c.dirty) := by
  induction lines generalizing c with
  | nil => exact ⟨rfl, Iff.rfl⟩
  | cons p rest ih =>
    obtain ⟨j, text⟩ := p
    rw [List.map_cons, List.mem_cons, not_or] at hi
    obtain ⟨hrecord, hdirty⟩ := ih (c := c.store j ⟨text, t.answer text, c.generation⟩) hi.2
    refine ⟨hrecord.trans (Lines.get?_put_of_ne _ _ hi.1), hdirty.trans ?_⟩
    show i ∈ (if c.generation = c.generation then c.dirty.erase j else c.dirty) ↔ _
    rw [if_pos rfl, LineSet.mem_erase]
    exact and_iff_left hi.1

/-- Each of the lines has its record, and its mark is gone. -/
theorem highlighted_of_mem (t : Tokenizer) {lines : Lines String} (hlines : lines.Ascending) {i : Int}
    {text : String} (hi : (i, text) ∈ lines) :
    (c.highlighted t lines).records.get? i = some ⟨text, t.answer text, c.generation⟩ ∧
      i ∉ (c.highlighted t lines).dirty := by
  induction lines generalizing c with
  | nil => exact absurd hi List.not_mem_nil
  | cons p rest ih =>
    obtain ⟨j, other⟩ := p
    obtain ⟨hj, hrest⟩ := List.pairwise_cons.mp hlines
    rcases List.mem_cons.mp hi with heq | hmem
    · obtain ⟨rfl, rfl⟩ := Prod.mk.inj heq
      -- no later line has this index, so that the first store is the last word on it
      have hlater : i ∉ rest.map Prod.fst := by
        intro hin
        obtain ⟨q, hq, rfl⟩ := List.mem_map.mp hin
        exact Int.lt_irrefl _ (hj q hq)
      obtain ⟨hrecord, hdirty⟩ :=
        highlighted_of_not_mem (c := c.store i ⟨text, t.answer text, c.generation⟩) t hlater
      refine ⟨hrecord.trans (Lines.get?_put_self _ _ _), fun hmarked => ?_⟩
      have hgone : i ∈ (if c.generation = c.generation then c.dirty.erase i else c.dirty) :=
        hdirty.mp hmarked
      rw [if_pos rfl] at hgone
      exact (LineSet.mem_erase.mp hgone).2 rfl
    · exact ih (c := c.store j ⟨other, t.answer other, c.generation⟩) hrest hmem

/-- Two caches with the same records, marks and generation. -/
structure Like (c c' : Cache) : Prop where
  records : c.records = c'.records
  dirty : c.dirty = c'.dirty
  generation : c.generation = c'.generation

namespace Like

theorem refl (c : Cache) : c.Like c := ⟨rfl, rfl, rfl⟩

theorem symm (h : c.Like c') : c'.Like c := ⟨h.records.symm, h.dirty.symm, h.generation.symm⟩

theorem trans (h : c.Like c') (h' : c'.Like c'') : c.Like c'' :=
  ⟨h.records.trans h'.records, h.dirty.trans h'.dirty, h.generation.trans h'.generation⟩

theorem store (h : c.Like c') (i : Int) (r : LineRecord) : (c.store i r).Like (c'.store i r) := by
  refine ⟨?_, ?_, h.generation⟩
  · show c.records.put i r = c'.records.put i r
    rw [h.records]
  · show (if r.generation = c.generation then c.dirty.erase i else c.dirty) =
      if r.generation = c'.generation then c'.dirty.erase i else c'.dirty
    rw [h.generation, h.dirty]

theorem highlighted (h : c.Like c') (t : Tokenizer) (lines : Lines String) :
    (c.highlighted t lines).Like (c'.highlighted t lines) := by
  induction lines generalizing c c' with
  | nil => exact h
  | cons p rest ih =>
    obtain ⟨i, text⟩ := p
    rw [highlighted_cons, highlighted_cons, h.generation]
    exact ih (h.store i _)

theorem served? (h : c.Like c') (i : Int) (text : String) : c.served? i text = c'.served? i text := by
  unfold Cache.served?
  rw [h.records, h.generation]

theorem fresh (h : c.Like c') (hc : c'.Fresh) : c.Fresh := by
  refine ⟨?_, ?_⟩
  · rw [h.records, h.generation]
    exact hc.bounded
  · rw [h.records, h.generation, h.dirty]
    exact hc.marked

end Like

/-! ## Three ways -/

/-- Highlighting a line changes the notes of the tokenizer only. -/
theorem like_render (c : Cache) (text : String) : (c.render text).2.1.Like c := by
  unfold Cache.render
  by_cases he : text.isEmpty = true
  · rw [if_pos he]
    exact .refl c
  · rw [if_neg he]
    generalize c.tokenizer.highlight text = x
    obtain ⟨result, t⟩ := x
    cases result <;> exact ⟨rfl, rfl, rfl⟩

theorem like_renderAll (c : Cache) (lines : Lines String) : (c.renderAll lines).2.1.Like c := by
  induction lines generalizing c with
  | nil => exact .refl c
  | cons p rest ih => exact (ih _).trans (like_render c p.2)

/-- **Lines that are highlighted at once** are highlighted the plain way. -/
theorem like_renderNow (hc : c.Sound s) (lines : Lines String) :
    (c.renderNow lines).1.Like (c.highlighted s.tokenizer lines) := by
  induction lines generalizing c with
  | nil => exact .refl c
  | cons p rest ih =>
    obtain ⟨i, text⟩ := p
    obtain ⟨hspan, hsound⟩ := hc.render text
    have hlike := like_render c text
    let r : LineRecord := ⟨text, (c.render text).1, (c.render text).2.1.generation⟩
    have hstored : ((c.render text).2.1.store i r).Like
        (c.store i ⟨text, s.tokenizer.answer text, c.generation⟩) := by
      rw [← hspan, ← hlike.generation]
      exact hlike.store i r
    exact (ih (hsound.store i (r := r) hspan)).trans (hstored.highlighted s.tokenizer rest)

/-- **Lines whose spans come from elsewhere** are merged as if they were highlighted the plain way, if the
batch is of the current generation: no record is newer then. -/
theorem like_merge (t : Tokenizer) (hc : c.Fresh) {b : Batch} (hb : b.lines.Ascending)
    (hcurrent : b.generation = c.generation) :
    (c.merge b (t.answers b.lines)).Like (c.highlighted t b.lines) := by
  -- the lines still to come are some of those of the batch
  suffices hsome : ∀ lines : Lines String, (∀ p ∈ lines, p ∈ b.lines) →
      (c.merge b (t.answers lines)).Like (c.highlighted t lines) from hsome b.lines fun p hp => hp
  intro lines hlines
  induction lines generalizing c with
  | nil => exact .refl c
  | cons p rest ih =>
    obtain ⟨i, text⟩ := p
    have htext : b.lines.get? i = some text := hb.get?_of_mem (hlines (i, text) List.mem_cons_self)
    have hnewer : c.hasNewer i b.generation = false := by
      unfold hasNewer
      cases hr : c.records.get? i with
      | none => rfl
      | some r =>
        refine decide_eq_false (Nat.not_lt.mpr ?_)
        rw [hcurrent]
        exact hc.bounded (i, r) (Lines.mem_of_get? hr)
    have hstep : c.merge b (t.answers ((i, text) :: rest)) =
        (c.store i ⟨text, t.answer text, c.generation⟩).merge b (t.answers rest) := by
      unfold Cache.merge Tokenizer.answers
      rw [List.map_cons, List.foldl_cons]
      dsimp only
      rw [htext]
      dsimp only
      rw [mergeLine, hnewer, if_neg Bool.false_ne_true, hcurrent]
    rw [hstep, highlighted_cons]
    refine ih (hc.store i ?_) hcurrent fun p hp => hlines p (List.mem_cons_of_mem _ hp)
    exact Nat.le_refl c.generation

end Cache

/-- An event that tells of a call that is over. -/
def Event.isCompletion : Event → Bool
  | .completed _ _ => true
  | _ => false

namespace Highlighter

open Cache (Like)

variable {h : Highlighter} {s : Setting}

/-- What the events of a call end with when it returns. -/
def Returned (name : String) (route : Option Route) (events : List Event) : Prop :=
  ∃ before, events = before ++ [.completed name (.ok route)]

theorem Returned.after {name : String} {route : Option Route} {events : List Event}
    (hr : Returned name route events) (first : List Event) : Returned name route (first ++ events) := by
  obtain ⟨before, rfl⟩ := hr
  exact ⟨first ++ before, (List.append_assoc _ _ _).symm⟩

/-- **A call whose batch has ended goes on the plain way**, whether a worker gave the spans or failed. -/
theorem like_finish (hs : h.Sound s) (hc : h.cache.Fresh) (hd : h.disposed = false) {job : Job}
    (hjob : job.batch.lines.Ascending) (hcurrent : job.batch.generation = h.cache.generation)
    {data : Except String (Lines Json)}
    (hdata : ∀ spans, data = .ok spans → readSpans spans = .ok (s.tokenizer.answers job.batch.lines)) :
    (h.finish job data).1.cache.Like (h.cache.highlighted s.tokenizer job.batch.lines) ∧
      Returned job.name (some .worker) (h.finish job data).2 := by
  unfold Highlighter.finish
  cases data with
  | ok spans =>
    dsimp only
    rw [hdata spans rfl]
    dsimp only
    rw [hd, if_neg Bool.false_ne_true]
    exact ⟨Cache.like_merge s.tokenizer hc hjob hcurrent, _, rfl⟩
  | error reason =>
    have hrender := Cache.like_renderAll h.cache job.batch.lines
    dsimp only
    rw [(hs.cache.renderAll job.batch.lines).1]
    rw [hd, if_neg Bool.false_ne_true]
    refine ⟨?_, _, rfl⟩
    refine (Cache.like_merge s.tokenizer (hrender.fresh hc) hjob ?_).trans
      (hrender.highlighted s.tokenizer job.batch.lines)
    exact hcurrent.trans hrender.generation.symm

/-! ## Alone -/

/-- A highlighter that can hand batches over: it was not disposed of, and the worker in use is there. -/
structure Serving (h : Highlighter) : Prop where
  staffed : h.inUse = true → h.workers ≠ []
  undisposed : h.disposed = false

/-- A call that goes on changes nothing but the cache. -/
theorem finish_eq_withCache (h : Highlighter) (job : Job) (data : Except String (Lines Json)) :
    ∃ c, (h.finish job data).1 = h.withCache c := by
  unfold Highlighter.finish
  cases data with
  | ok spans =>
    dsimp only
    cases readSpans spans with
    | error f => exact ⟨h.cache, rfl⟩
    | ok spans =>
      dsimp only
      split <;> exact ⟨_, rfl⟩
  | error reason =>
    dsimp only
    split <;> exact ⟨_, rfl⟩

namespace Serving

/-- Whether batches can be handed over does not depend on the cache, nor on what the workers do. -/
theorem congr (hv : h.Serving) {h' : Highlighter} (huse : h'.inUse = h.inUse)
    (hworkers : h'.workers.length = h.workers.length) (hdisposed : h'.disposed = h.disposed) :
    h'.Serving := by
  refine ⟨fun hin => ?_, hdisposed.trans hv.undisposed⟩
  have hsome := hv.staffed (huse.symm.trans hin)
  rw [← List.length_pos_iff] at hsome ⊢
  rw [hworkers]
  exact hsome

theorem finish (hv : h.Serving) (job : Job) (data : Except String (Lines Json)) :
    (h.finish job data).1.Serving := by
  obtain ⟨c, heq⟩ := h.finish_eq_withCache job data
  rw [heq]
  exact hv.congr rfl rfl rfl

theorem endJob (hv : h.Serving) (worker place : Nat) (result : WorkResult) :
    (h.endJob worker place result).1.Serving := by
  cases hw : h.workers[worker]? with
  | none =>
    unfold Highlighter.endJob
    rw [hw]
    exact hv
  | some w =>
    cases hj : w.jobs[place]? with
    | none =>
      unfold Highlighter.endJob
      rw [hw]
      dsimp only
      rw [hj]
      exact hv
    | some job =>
      obtain ⟨w', data, -, heq⟩ := endJob_eq_finish hw hj result
      rw [heq]
      have hset : Serving { h with workers := h.workers.set worker w' } :=
        hv.congr rfl (List.length_set ..) rfl
      exact hset.finish job data

/-- The worker in use is there, or is made. -/
theorem ensureWorker (hv : h.Serving) :
    h.ensureWorker.1.Serving ∧ ∃ w, h.ensureWorker.1.latest? = some w := by
  unfold Highlighter.ensureWorker
  cases hu : h.inUse with
  | true =>
    rw [if_pos rfl]
    exact ⟨hv, h.workers.getLast (hv.staffed hu), List.getLast?_eq_some_getLast _⟩
  | false =>
    rw [if_neg Bool.false_ne_true]
    refine ⟨⟨fun _ => ?_, hv.undisposed⟩, .new (.owned h.kind), ?_⟩
    · exact List.append_ne_nil_of_right_ne_nil _ (List.cons_ne_nil _ _)
    · exact List.getLast?_concat

theorem setJobs (hv : h.Serving) {w : Worker} (hl : h.latest? = some w) (jobs : List Job) :
    (h.setJobs jobs).Serving := by
  rw [setJobs_eq hl]
  refine ⟨fun _ => ?_, hv.undisposed⟩
  exact List.append_ne_nil_of_right_ne_nil _ (List.cons_ne_nil _ _)

theorem submit (hv : h.Serving) (job : Job) : (h.submit job).1.Serving := by
  rcases h.submit_outcome job with heq | ⟨data, heq⟩ | ⟨w, hl, heq | heq⟩
  · rw [heq]
    exact hv.ensureWorker.1
  · rw [heq]
    exact hv.ensureWorker.1.finish job data
  · rw [heq]
    exact hv.ensureWorker.1.setJobs hl _
  · rw [heq]
    exact (hv.ensureWorker.1.setJobs hl _).endJob _ _ _

theorem process (hv : h.Serving) (name : String) (lines : Lines String) :
    (h.process name lines).1.Serving := by
  unfold Highlighter.process
  split
  · exact hv
  · split
    · exact hv.congr rfl rfl rfl
    · exact hv.submit _

theorem changeWorker (hv : h.Serving) (worker : Nat) (f : Worker → Worker) :
    (h.changeWorker worker f).Serving := by
  unfold Highlighter.changeWorker
  cases h.workers[worker]? with
  | none => exact hv
  | some w => exact hv.congr rfl (List.length_set ..) rfl

theorem act (hv : h.Serving) {a : Action} (ha : a ≠ .dispose) : (h.act a).1.Serving := by
  cases a with
  | preHighlight name first last textAt =>
    show (h.preHighlight name first last textAt).1.Serving
    unfold Highlighter.preHighlight
    cases textsFrom textAt first (last - first + 1).toNat with
    | error f => exact hv
    | ok lines => exact hv.process name _
  | rehighlight name lineCount textAt =>
    show (h.rehighlight name lineCount textAt).1.Serving
    unfold Highlighter.rehighlight
    dsimp only
    cases textsAt textAt (h.cache.dropBeyond lineCount).dirty with
    | error f => exact hv.congr rfl rfl rfl
    | ok lines =>
      have hreadied : Serving { h with cache := h.cache.dropBeyond lineCount } := hv.congr rfl rfl rfl
      exact hreadied.process name _
  | endJob worker place result => exact hv.endJob worker place result
  | cancel worker place =>
    show (h.cancel worker place).1.Serving
    unfold Highlighter.cancel
    cases h.workers[worker]? with
    | none => exact hv
    | some w =>
      dsimp only
      cases w.jobs[place]? with
      | none => exact hv
      | some job => exact hv.congr rfl (List.length_set ..) rfl
  | breakDown worker reason => exact hv.changeWorker worker _
  | elsewhere worker language theme lines => exact hv.changeWorker worker _
  | dispose => exact absurd rfl ha
  | _ => exact hv.congr rfl rfl rfl

theorem after (hv : h.Serving) {actions : List Action} (hnone : Action.dispose ∉ actions) :
    (h.after actions).Serving := by
  induction actions generalizing h with
  | nil => exact hv
  | cons a rest ih =>
    rw [List.mem_cons, not_or] at hnone
    exact ih (hv.act (Ne.symm hnone.1)) hnone.2

end Serving

theorem serving_new (stock : Stock) (language : String) (config : HighlightConfig) (threshold : Numeral)
    (given : Option WorkerOrigin) (listener : Listener) (holds : Bool) :
    (new stock language config threshold given listener holds).1.Serving := by
  refine ⟨fun huse => ?_, rfl⟩
  intro hnone
  have hworkers : given.toList.map Worker.new = [] := hnone
  have hsome : (!(given.toList.map Worker.new).isEmpty) = true := huse
  rw [hworkers] at hsome
  cases hsome

/-- What comes of a call when nothing else happens. If it is not over yet it waits for its batch, which is the
last job of the latest worker, and that ends next. -/
def alone (r : Highlighter × List Event) (result : WorkResult) : Highlighter × List Event :=
  if r.2.any Event.isCompletion then r
  else
    let (h, more) := r.1.endJob r.1.latest ((r.1.latest?.map fun w => w.jobs.length).getD 0 - 1) result
    (h, r.2 ++ more)

/-- Makes sure that a range of lines is highlighted, with nothing in between. -/
def preHighlightAlone (h : Highlighter) (name : String) (first last : Int)
    (textAt : Int → Except Failure String) (result : WorkResult) : Highlighter × List Event :=
  alone (h.preHighlight name first last textAt) result

/-- A call that has returned waits for nothing. -/
theorem Returned.alone {name : String} {route : Option Route} {r : Highlighter × List Event}
    (hr : Returned name route r.2) (result : WorkResult) : alone r result = r := by
  obtain ⟨before, heq⟩ := hr
  refine if_pos ?_
  rw [heq, List.any_append, Bool.or_eq_true]
  exact Or.inr rfl

/-- The job that was handed over last ends, and its call goes on the plain way. -/
theorem like_endLast (hs : h.Sound s) (hc : h.cache.Fresh) (hd : h.disposed = false) {w : Worker}
    (hl : h.latest? = some w) {job : Job} (hjob : job.batch.lines.Ascending)
    (hcurrent : job.batch.generation = h.cache.generation) (result : WorkResult) :
    let h' := h.setJobs (w.jobs ++ [job])
    (h'.endJob h'.latest w.jobs.length result).1.cache.Like
        (h.cache.highlighted s.tokenizer job.batch.lines) ∧
      Returned job.name (some .worker) (h'.endJob h'.latest w.jobs.length result).2 := by
  intro h'
  have hcache : h'.cache = h.cache := cache_setJobs h _
  have hs' : h'.Sound s := by
    refine hs.setJobs fun job' hjob' => ?_
    rcases List.mem_append.mp hjob' with hjob' | hjob'
    · exact (hs.workers w (List.mem_of_getLast? hl)).jobs job' hjob'
    · rw [List.mem_singleton.mp hjob']
      exact hjob
  have hd' : h'.disposed = false := by
    show (h.setJobs _).disposed = false
    rw [setJobs_eq hl]
    exact hd
  obtain ⟨w', data, hw', -, hdata, heq⟩ :=
    hs'.endJob_eq_finish (latest_setJobs hl (w.jobs ++ [job])) List.getElem?_concat_length result
  rw [heq, ← hcache]
  rw [← hcache] at hc hcurrent
  exact like_finish (hs'.setWorker _ hw') hc hd' hjob hcurrent hdata

/-- **A batch that is handed over is highlighted the plain way**: a worker that is out of order refuses it, one
that holds batches back ends it next, and any other ends it at once. -/
theorem alone_submit (hs : h.Sound s) (hc : h.cache.Fresh) (hv : h.Serving) {job : Job}
    (hjob : job.batch.lines.Ascending) (hcurrent : job.batch.generation = h.cache.generation)
    {first : List Event} (hfirst : first.any Event.isCompletion = false) (result : WorkResult) :
    let r := alone ((h.submit job).1, first ++ (h.submit job).2) result
    r.1.cache.Like (h.cache.highlighted s.tokenizer job.batch.lines) ∧
      Returned job.name (some .worker) r.2 := by
  have hs' := hs.ensureWorker
  obtain ⟨hv', w, hl⟩ := hv.ensureWorker
  have hcache : h.ensureWorker.1.cache = h.cache := cache_ensureWorker h
  have hmade : h.ensureWorker.2.any Event.isCompletion = false := by
    unfold Highlighter.ensureWorker
    split <;> rfl
  unfold Highlighter.submit
  revert hs' hv' hl hcache hmade
  generalize h.ensureWorker = x
  obtain ⟨h', made⟩ := x
  intro hs' hv' hl hcache hmade
  dsimp only at hs' hv' hl hcache hmade ⊢
  rw [hl]
  dsimp only
  rw [← hcache] at hc hcurrent ⊢
  have hd : h'.disposed = false := hv'.undisposed
  cases hfault : w.fault with
  | some reason =>
    dsimp only
    have hnodata : ∀ spans, (Except.error reason : Except String (Lines Json)) = .ok spans →
        readSpans spans = .ok (s.tokenizer.answers job.batch.lines) := by
      intro spans hspans
      cases hspans
    obtain ⟨hlike, hreturned⟩ := like_finish hs' hc hd hjob hcurrent hnodata
    rw [Returned.alone ((hreturned.after _).after first)]
    exact ⟨hlike, (hreturned.after _).after first⟩
  | none =>
    dsimp only
    have hend := like_endLast hs' hc hd hl hjob hcurrent
    by_cases hh : (h'.setJobs (w.jobs ++ [job])).holds = true
    · -- nothing of this has told of an end: the batch is the last job of the latest worker
      rw [if_pos hh]
      have hlast : (h'.setJobs (w.jobs ++ [job])).latest? = some { w with jobs := w.jobs ++ [job] } := by
        rw [setJobs_eq hl]
        exact List.getLast?_concat
      have hwaits : (first ++ (made ++ [Event.submitted h'.cache.language h'.cache.theme job.batch.lines])).any
          Event.isCompletion = false := by
        rw [List.any_append, List.any_append, hfirst, hmade]
        rfl
      obtain ⟨hlike, hreturned⟩ := hend result
      unfold alone
      rw [if_neg (by rw [hwaits]; exact Bool.false_ne_true)]
      dsimp only
      rw [hlast, Option.map_some, Option.getD_some, List.length_append, List.length_singleton,
        Nat.add_sub_cancel]
      exact ⟨hlike, hreturned.after _⟩
    · rw [if_neg hh]
      obtain ⟨hlike, hreturned⟩ := hend .done
      rw [Returned.alone ((hreturned.after _).after first)]
      exact ⟨hlike, (hreturned.after _).after first⟩

/-- Where the lines that a call gathered are highlighted; nowhere if there are none. -/
def routeOf (threshold : Numeral) (lines : Lines String) : Option Route :=
  if lines.isEmpty then none
  else if threshold.isAbove lines.length then some .inline
  else some .worker

/-- **A call highlights its lines the plain way**, whichever way it takes. -/
theorem alone_process (hs : h.Sound s) (hc : h.cache.Fresh) (hv : h.Serving) (name : String)
    {lines : Lines String} (hlines : lines.Ascending) (result : WorkResult) :
    (alone (h.process name lines) result).1.cache.Like (h.cache.highlighted s.tokenizer lines) ∧
      Returned name (routeOf h.threshold lines) (alone (h.process name lines) result).2 := by
  unfold Highlighter.process routeOf
  by_cases he : lines.isEmpty = true
  · rw [if_pos he, if_pos he, List.isEmpty_iff.mp he]
    have hreturned : Returned name none [.completed name (.ok none)] := ⟨[], rfl⟩
    rw [Returned.alone (r := (h, _)) hreturned]
    exact ⟨.refl _, hreturned⟩
  · rw [if_neg he, if_neg he]
    by_cases ht : h.threshold.isAbove lines.length = true
    · rw [if_pos ht, if_pos ht]
      let h' : Highlighter := { h with cache := (h.cache.renderNow lines).1 }
      have hreturned : Returned name (some .inline)
          ((h.cache.renderNow lines).2.map .trace ++ h'.notify ++ [.completed name (.ok (some .inline))]) :=
        ⟨_, rfl⟩
      dsimp only
      rw [Returned.alone (r := (h', _)) hreturned]
      exact ⟨Cache.like_renderNow hs.cache lines, hreturned⟩
    · rw [if_neg ht, if_neg ht]
      let job : Job := ⟨name, ⟨lines, h.cache.generation⟩⟩
      have hstarted : [timerStarted lines.length].any Event.isCompletion = false := rfl
      have hjob : job.batch.lines.Ascending := hlines
      exact alone_submit hs hc hv hjob rfl hstarted result

/-! ## Ranges -/

variable {textAt : Int → Except Failure String} {text : Int → String} {first last i : Int}

/-- The lines of a range, with their texts. -/
def linesOf (text : Int → String) (first last : Int) : Lines String :=
  (indexRange first last).map fun i => (i, text i)

theorem mem_linesOf {t : String} :
    (i, t) ∈ linesOf text first last ↔ (first ≤ i ∧ i ≤ last) ∧ t = text i := by
  constructor
  · intro hmem
    obtain ⟨j, hj, heq⟩ := List.mem_map.mp hmem
    obtain ⟨rfl, rfl⟩ := Prod.mk.inj heq
    obtain ⟨k, hk, rfl⟩ := List.mem_map.mp hj
    have hlt := List.mem_range.mp hk
    exact ⟨by omega, rfl⟩
  · rintro ⟨⟨hfirst, hlast⟩, rfl⟩
    exact List.mem_map.mpr ⟨i, mem_indexRange hfirst hlast, rfl⟩

theorem ascending_linesOf (text : Int → String) (first last : Int) : (linesOf text first last).Ascending :=
  List.Pairwise.map _ (fun _ _ hij => hij) (ascending_indexRange first last)

/-- The texts of a range in which every line is there. -/
theorem textsFrom_linesOf (hrange : ∀ i, first ≤ i → i ≤ last → textAt i = .ok (text i)) :
    textsFrom textAt first (last - first + 1).toNat = .ok (linesOf text first last) := by
  suffices hall : ∀ (n : Nat) (from' : Int),
      (∀ i, from' ≤ i → i < from' + n → textAt i = .ok (text i)) →
      textsFrom textAt from' n =
        .ok ((List.range n).map fun k : Nat => (from' + (k : Int), text (from' + (k : Int)))) by
    rw [hall, linesOf, indexRange, List.map_map]
    · rfl
    · intro i hfirst hlast
      exact hrange i hfirst (by omega)
  intro n
  induction n with
  | zero => exact fun _ _ => rfl
  | succ n ih =>
    intro from' hfrom
    have hrest := ih (from' + 1) fun i h₁ h₂ => hfrom i (by omega) (by omega)
    rw [textsFrom, hfrom from' (Int.le_refl _) (by omega), hrest, List.range_succ_eq_map, List.map_cons,
      List.map_map]
    have hshift : ∀ k : Nat, from' + 1 + (k : Int) = from' + ((k + 1 : Nat) : Int) := by
      intro k
      omega
    simp only [hshift, Int.natCast_zero, Int.add_zero]
    rfl

/-- The lines that a call gathers are those that are not served. -/
theorem unserved_eq_filter (c : Cache) (lines : Lines String) :
    c.unserved lines = lines.filter fun p => (c.served? p.1 p.2).isNone := by
  induction lines with
  | nil => rfl
  | cons p rest ih =>
    obtain ⟨i, t⟩ := p
    rw [Cache.unserved, ih, List.filter_cons]
    cases c.served? i t <;> rfl

/-- An index is gathered if it is in the range and its text is not served. -/
theorem mem_stale {c : Cache} {t : String} :
    (i, t) ∈ (linesOf text first last).filter (fun p => (c.served? p.1 p.2).isNone) ↔
      ((first ≤ i ∧ i ≤ last) ∧ t = text i) ∧ c.served? i t = none := by
  rw [List.mem_filter, mem_linesOf, Option.isNone_iff_eq_none]

/-- Once the lines that were not served are highlighted, each line of the range is served, with the span that
its text means, and is not dirty. -/
theorem served_highlighted {c : Cache} (hc : c.Sound s) (hfresh : c.Fresh) {stale : Lines String}
    (hstale : stale = (linesOf text first last).filter fun p => (c.served? p.1 p.2).isNone)
    (hfirst : first ≤ i) (hlast : i ≤ last) :
    (c.highlighted s.tokenizer stale).served? i (text i) =
        some ⟨text i, s.tokenizer.answer (text i), c.generation⟩ ∧
      i ∉ (c.highlighted s.tokenizer stale).dirty := by
  subst hstale
  rw [Cache.served?, Cache.generation_highlighted]
  cases hr : c.served? i (text i) with
  | none =>
    -- the line was gathered, so that it has its record now
    have hmem := mem_stale.mpr ⟨⟨⟨hfirst, hlast⟩, rfl⟩, hr⟩
    obtain ⟨hrecord, hdirty⟩ := Cache.highlighted_of_mem s.tokenizer
      ((ascending_linesOf text first last).filter _) hmem
    rw [hrecord]
    exact ⟨if_pos ⟨rfl, rfl⟩, hdirty⟩
  | some r =>
    -- it was served before, and still is
    have hnot : i ∉ ((linesOf text first last).filter fun p => (c.served? p.1 p.2).isNone).map Prod.fst := by
      intro hin
      obtain ⟨⟨j, t⟩, hmem, rfl⟩ := List.mem_map.mp hin
      obtain ⟨⟨-, rfl⟩, hnone⟩ := mem_stale.mp hmem
      rw [hr] at hnone
      cases hnone
    obtain ⟨hrecord, hdirty⟩ := Cache.highlighted_of_not_mem (c := c) s.tokenizer hnot
    obtain ⟨hget, htext, hcurrent⟩ := Cache.served?_eq_some hr
    have hspan : r.span = s.tokenizer.answer (text i) := hc.served hr
    refine ⟨?_, fun hin => ?_⟩
    · rw [hrecord, hget, ← hspan]
      dsimp only
      rw [if_pos ⟨htext, hcurrent⟩, ← htext, ← hcurrent]
    · rw [hfresh.served?_eq_none (hdirty.mp hin)] at hr
      cases hr

/-- A call for a range in which every line is there goes on with the lines that are not served. -/
theorem preHighlight_eq_process (h : Highlighter) (name : String)
    (hrange : ∀ i, first ≤ i → i ≤ last → textAt i = .ok (text i)) :
    h.preHighlight name first last textAt =
      h.process name ((linesOf text first last).filter fun p => (h.cache.served? p.1 p.2).isNone) := by
  unfold Highlighter.preHighlight
  rw [textsFrom_linesOf hrange]
  dsimp only
  rw [unserved_eq_filter]

/-- A call for a range highlights the lines that are not served the plain way. -/
theorem preHighlightAlone_like (hs : h.Sound s) (hc : h.cache.Fresh) (hv : h.Serving) (name : String)
    (hrange : ∀ i, first ≤ i → i ≤ last → textAt i = .ok (text i)) (result : WorkResult) :
    let stale := (linesOf text first last).filter fun p => (h.cache.served? p.1 p.2).isNone
    let ahead := h.preHighlightAlone name first last textAt result
    ahead.1.cache.Like (h.cache.highlighted s.tokenizer stale) ∧
      Returned name (routeOf h.threshold stale) ahead.2 := by
  intro stale ahead
  show (alone (h.preHighlight name first last textAt) result).1.cache.Like _ ∧
    Returned _ _ (alone (h.preHighlight name first last textAt) result).2
  rw [preHighlight_eq_process h name hrange]
  exact alone_process hs hc hv name ((ascending_linesOf text first last).filter _) result

/-! ## The headline -/

/-- **Three ways to highlight ahead, and one result.** After every course of actions before disposal, and with
any threshold, a call for a range returns, and says which way it took. The records, the marks and the
generation are then those of the plain way, in which neither the threshold nor the worker nor its failure
has a part. Every line of the range is served with the span that its text means and is not dirty, every other
index is as it was, and a second call finds nothing to do and changes nothing. -/
theorem ahead_by_any_way (stock : Stock) (language : String) (config : HighlightConfig)
    (threshold : Numeral) (given : Option WorkerOrigin) (listener : Listener) (holds : Bool)
    (actions : List Action) (undisposed : Action.dispose ∉ actions) (bound : Numeral) (name : String)
    (first last : Int) (textAt : Int → Except Failure String) (text : Int → String)
    (hrange : ∀ i, first ≤ i → i ≤ last → textAt i = .ok (text i)) (result : WorkResult) :
    let tokenizer := (Tokenizer.new stock language config.theme).1
    let start := (new stock language config threshold given listener holds).1
    let h : Highlighter := { start.after actions with threshold := bound }
    let stale := (linesOf text first last).filter fun p => (h.cache.served? p.1 p.2).isNone
    let ahead := h.preHighlightAlone name first last textAt result
    let c := ahead.1.cache
    Returned name (routeOf bound stale) ahead.2 ∧
    c.Like (h.cache.highlighted tokenizer stale) ∧
    (∀ bound' result',
      c.Like (({ h with threshold := bound' }).preHighlightAlone name first last textAt result').1.cache) ∧
    c.generation = h.cache.generation ∧
    (∀ i, first ≤ i → i ≤ last →
      c.served? i (text i) = some ⟨text i, tokenizer.answer (text i), c.generation⟩ ∧ i ∉ c.dirty) ∧
    (∀ i, i ∉ stale.map Prod.fst →
      c.records.get? i = h.cache.records.get? i ∧ (i ∈ c.dirty ↔ i ∈ h.cache.dirty)) ∧
    ∀ again, ahead.1.preHighlight again first last textAt = (ahead.1, [.completed again (.ok none)]) := by
  intro tokenizer start h stale ahead c
  let s : Setting := ⟨stock, language, config.theme⟩
  have hs : h.Sound s :=
    { (sound_new s config.worker config.batchThreshold threshold given listener holds).after actions with }
  have hfresh : h.cache.Fresh :=
    ((dated_new stock language config threshold given listener holds).1.after actions).fresh
  have hv : h.Serving :=
    ((serving_new stock language config threshold given listener holds).after undisposed).congr rfl rfl rfl
  obtain ⟨hlike, hreturned⟩ := preHighlightAlone_like hs hfresh hv name hrange result
  have hgeneration : c.generation = h.cache.generation :=
    hlike.generation.trans (Cache.generation_highlighted ..)
  have hothers : ∀ i, i ∉ stale.map Prod.fst →
      c.records.get? i = h.cache.records.get? i ∧ (i ∈ c.dirty ↔ i ∈ h.cache.dirty) := by
    intro i hi
    rw [hlike.records, hlike.dirty]
    exact Cache.highlighted_of_not_mem tokenizer hi
  have hserved : ∀ i, first ≤ i → i ≤ last →
      c.served? i (text i) = some ⟨text i, tokenizer.answer (text i), c.generation⟩ ∧ i ∉ c.dirty := by
    intro i hfirst hlast
    rw [hlike.served?, hlike.dirty, hgeneration]
    exact served_highlighted hs.cache hfresh rfl hfirst hlast
  refine ⟨hreturned, hlike, fun bound' result' => ?_, hgeneration, hserved, hothers, fun again => ?_⟩
  · have hv' : Serving { h with threshold := bound' } := hv.congr rfl rfl rfl
    have hs' : Sound s { h with threshold := bound' } := { hs with }
    exact hlike.trans (preHighlightAlone_like hs' hfresh hv' name hrange result').1.symm
  · have hnone : (linesOf text first last).filter (fun p => (c.served? p.1 p.2).isNone) = [] := by
      refine List.filter_eq_nil_iff.mpr ?_
      rintro ⟨i, t⟩ hmem
      obtain ⟨⟨hfirst, hlast⟩, rfl⟩ := mem_linesOf.mp hmem
      rw [(hserved i hfirst hlast).1]
      exact Bool.false_ne_true
    rw [preHighlight_eq_process _ _ hrange, hnone]
    rfl

/-- Of three lines the first is served and the second dirty. The other two are highlighted at once, by a
worker, or after it failed, and no line is dirty then. -/
theorem two_of_three_lines_by_any_way :
    let actions : List Action := [.look 1 "2", .invalidateLines [1], .look 0 "1"]
    let start := (new LexerEntry.extended "json" ⟨"monokai", 1, .thread⟩ (.whole 1) none .absent true).1
    let text (i : Int) : String := if i = 0 then "1" else "2"
    let way (bound : Numeral) (result : WorkResult) :=
      ({ start.after actions with threshold := bound } : Highlighter).preHighlightAlone "ahead" 0 2
        (fun i => .ok (text i)) result
    Action.dispose ∉ actions ∧ (start.after actions).cache.dirty = [1] ∧
    Returned "ahead" (some .inline) (way (.whole 9) .done).2 ∧
    Returned "ahead" (some .worker) (way (.whole 1) .done).2 ∧
    Returned "ahead" (some .worker) (way (.whole 1) (.failed "stopped")).2 ∧
    (way (.whole 9) .done).1.cache.Like (way (.whole 1) .done).1.cache ∧
    (way (.whole 9) .done).1.cache.Like (way (.whole 1) (.failed "stopped")).1.cache ∧
    (way (.whole 9) .done).1.cache.dirty = [] := by
  intro actions start text way
  have undisposed : Action.dispose ∉ actions := by simp [actions]
  have hway := fun bound result => ahead_by_any_way LexerEntry.extended "json" ⟨"monokai", 1, .thread⟩
    (.whole 1) none .absent true actions undisposed bound "ahead" 0 2 (fun i => .ok (text i)) text
    (fun _ _ _ => rfl) result
  have hstale : (linesOf text 0 2).filter
      (fun p => ((start.after actions).cache.served? p.1 p.2).isNone) = [(1, "2"), (2, "2")] := by
    decide +kernel
  obtain ⟨hinline, -, hagree, -⟩ := hway (.whole 9) .done
  have hworker := (hway (.whole 1) .done).1
  have hfailed := (hway (.whole 1) (.failed "stopped")).1
  refine ⟨undisposed, by decide +kernel, ?_, ?_, ?_, hagree (.whole 1) .done,
    hagree (.whole 1) (.failed "stopped"), by decide +kernel⟩
  · rw [show routeOf (.whole 9) _ = some Route.inline from congrArg (routeOf _) hstale] at hinline
    exact hinline
  · rw [show routeOf (.whole 1) _ = some Route.worker from congrArg (routeOf _) hstale] at hworker
    exact hworker
  · rw [show routeOf (.whole 1) _ = some Route.worker from congrArg (routeOf _) hstale] at hfailed
    exact hfailed

end Highlighter

end EditorServices.Highlight
