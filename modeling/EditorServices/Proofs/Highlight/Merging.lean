import EditorServices.Proofs.Highlight.Ascending

/-!
# `Proofs.Highlight.Merging` — what a batch does to a cache

A batch reaches the cache in three ways: its lines are highlighted at once, its worker gives their spans,
or they are highlighted here after the worker failed. Each way is a row of stores, and each store is under
an index of the batch and at the generation of the batch. `Cache.Took` says what such a row can do; it is
proved for a single store and composed from there.

## Contents
- **Generations.** `Cache.Fresh`: no record is ahead of the cache, and none under a dirty index is current.
- **Taking.** `Cache.Took`, with the steps that it is made of, up to `Took.merge` and `Took.renderNow`.
- **Calls.** `Highlighter.took_finish`, `took_endJob`, `took_submit` and `took_process`.
-/

namespace EditorServices.Highlight

namespace Cache

variable {b : Batch} {c c' c'' : Cache}

/-! ## Generations -/

/-- No record is ahead of the generation of its cache, and a dirty index has no record of that
generation. -/
structure Fresh (c : Cache) : Prop where
  bounded : ∀ p ∈ c.records, p.2.generation ≤ c.generation
  marked : ∀ p ∈ c.records, p.1 ∈ c.dirty → p.2.generation ≠ c.generation

/-- A dirty index has no record that is served, for whichever text. -/
theorem Fresh.served?_eq_none (h : c.Fresh) {i : Int} (hi : i ∈ c.dirty) (text : String) :
    c.served? i text = none := by
  unfold served?
  cases hr : c.records.get? i with
  | none => rfl
  | some r =>
    have hne : r.generation ≠ c.generation := h.marked (i, r) (Lines.mem_of_get? hr) hi
    exact if_neg fun hcurrent => hne hcurrent.2

/-- Once the generation is past those of all records, it makes no difference which indices are dirty. -/
theorem fresh_of_lt (h : ∀ p ∈ c.records, p.2.generation < c.generation) : c.Fresh :=
  ⟨fun p hp => Nat.le_of_lt (h p hp), fun p hp _ => Nat.ne_of_lt (h p hp)⟩

/-- A step of the generation leaves a fresh cache, if no record was added. -/
theorem Fresh.next (h : c.Fresh) (hsub : ∀ p ∈ c'.records, p ∈ c.records)
    (hnext : c'.generation = c.generation + 1) : c'.Fresh := by
  refine fresh_of_lt fun p hp => ?_
  rw [hnext]
  exact Nat.lt_succ_of_le (h.bounded p (hsub p hp))

/-- A cache with fewer dirty indices. -/
theorem Fresh.unmark (h : c.Fresh) {s : LineSet} (hs : ∀ i ∈ s, i ∈ c.dirty) :
    Fresh { c with dirty := s } :=
  { h with marked := fun p hp hi => h.marked p hp (hs p.1 hi) }

/-- A record that is not ahead can be stored: one that is current takes the mark off its index. -/
theorem Fresh.store (h : c.Fresh) (i : Int) {r : LineRecord} (hr : r.generation ≤ c.generation) :
    (c.store i r).Fresh := by
  refine ⟨?_, ?_⟩
  · intro p hp
    rcases Lines.mem_put hp with rfl | hp
    · exact hr
    · exact h.bounded p hp
  · intro p hp hdirty
    change p.1 ∈ (if r.generation = c.generation then c.dirty.erase i else c.dirty) at hdirty
    by_cases hg : r.generation = c.generation
    · rw [if_pos hg] at hdirty
      obtain ⟨hdirty, hne⟩ := LineSet.mem_erase.mp hdirty
      rcases Lines.mem_put hp with rfl | hp
      · exact absurd rfl hne
      · exact h.marked p hp hdirty
    · rw [if_neg hg] at hdirty
      rcases Lines.mem_put hp with rfl | hp
      · exact hg
      · exact h.marked p hp hdirty

/-! ## Taking -/

/-- A cache holds what a batch has for an index. -/
def Holds (c : Cache) (b : Batch) (i : Int) : Prop :=
  ∃ text span, (i, text) ∈ b.lines ∧ c.records.get? i = some ⟨text, span, b.generation⟩

/-- A cache took in lines of a batch: its generation is the same, an index is dirty as before unless the
cache holds what the batch has for it, and a batch of another generation left all marks alone. -/
structure Took (b : Batch) (c c' : Cache) : Prop where
  generation : c'.generation = c.generation
  fresh : b.generation ≤ c.generation → c.Fresh → c'.Fresh
  marks : ∀ i, i ∈ c.dirty ∨ c.Holds b i → i ∈ c'.dirty ∨ c'.Holds b i
  stale : b.generation ≠ c.generation → c'.dirty = c.dirty

namespace Took

theorem refl (b : Batch) (c : Cache) : Took b c c := ⟨rfl, fun _ h => h, fun _ h => h, fun _ => rfl⟩

theorem trans (h : Took b c c') (h' : Took b c' c'') : Took b c c'' := by
  refine ⟨h'.generation.trans h.generation, ?_, fun i hi => h'.marks i (h.marks i hi), ?_⟩
  · intro hle hc
    refine h'.fresh ?_ (h.fresh hle hc)
    rw [h.generation]
    exact hle
  · intro hne
    have hne' : b.generation ≠ c'.generation := by
      rw [h.generation]
      exact hne
    exact (h'.stale hne').trans (h.stale hne)

/-- What the tokenizer noted has no part in it. -/
theorem tokenized (b : Batch) (c : Cache) (t : Tokenizer) : Took b c { c with tokenizer := t } :=
  ⟨rfl, fun _ h => { h with }, fun _ h => h, fun _ => rfl⟩

/-- **The step of which all taking is made**: a line of the batch is stored at the generation of the
batch. -/
theorem store (c : Cache) {i : Int} {text : String} (hline : (i, text) ∈ b.lines) (span : Option Span) :
    Took b c (c.store i ⟨text, span, b.generation⟩) := by
  refine ⟨rfl, fun hle hc => hc.store i hle, ?_, ?_⟩
  · intro j hj
    by_cases hji : j = i
    · subst hji
      exact Or.inr ⟨text, span, hline, Lines.get?_put_self _ _ _⟩
    · -- a store under `i` touches neither the mark nor the record of another index
      rcases hj with hj | ⟨text', span', hline', hget⟩
      · left
        show j ∈ (if b.generation = c.generation then c.dirty.erase i else c.dirty)
        by_cases hg : b.generation = c.generation
        · rw [if_pos hg]
          exact LineSet.mem_erase.mpr ⟨hj, hji⟩
        · rw [if_neg hg]
          exact hj
      · exact Or.inr ⟨text', span', hline', (Lines.get?_put_of_ne _ _ hji).trans hget⟩
  · intro hne
    exact if_neg hne

theorem mergeLine (c : Cache) {i : Int} {text : String} (hline : (i, text) ∈ b.lines)
    (span : Option Span) : Took b c (c.mergeLine i ⟨text, span, b.generation⟩) := by
  unfold Cache.mergeLine
  by_cases hn : c.hasNewer i b.generation = true
  · rw [if_pos hn]
    exact refl b c
  · rw [if_neg hn]
    exact store c hline span

/-- Merging a batch, whatever its spans are. -/
theorem merge (b : Batch) (c : Cache) (spans : Lines (Option Span)) : Took b c (c.merge b spans) := by
  unfold Cache.merge
  induction spans generalizing c with
  | nil => exact refl b c
  | cons p rest ih =>
    obtain ⟨i, span⟩ := p
    refine Took.trans ?_ (ih _)
    dsimp only
    cases ht : b.lines.get? i with
    | none => exact refl b c
    | some text => exact mergeLine c (Lines.mem_of_get? ht) span

theorem render (b : Batch) (c : Cache) (text : String) : Took b c (c.render text).2.1 := by
  unfold Cache.render
  by_cases he : text.isEmpty = true
  · rw [if_pos he]
    exact refl b c
  · rw [if_neg he]
    generalize c.tokenizer.highlight text = x
    obtain ⟨result, t⟩ := x
    cases result with
    | ok span => exact tokenized b c t
    | error f => exact tokenized b c t

theorem renderAll (b : Batch) (c : Cache) (lines : Lines String) : Took b c (c.renderAll lines).2.1 := by
  induction lines generalizing c with
  | nil => exact refl b c
  | cons p rest ih => exact (render b c p.2).trans (ih _)

/-- A line of a batch that is of the current generation is highlighted and stored. -/
theorem renderStore (c : Cache) (hcurrent : b.generation = c.generation) {i : Int} {text : String}
    (hline : (i, text) ∈ b.lines) :
    Took b c ((c.render text).2.1.store i ⟨text, (c.render text).1, (c.render text).2.1.generation⟩) := by
  have hrender := render b c text
  have hgen : (c.render text).2.1.generation = b.generation := hrender.generation.trans hcurrent.symm
  rw [hgen]
  exact hrender.trans (store _ hline _)

theorem renderNow (c : Cache) (hcurrent : b.generation = c.generation) {lines : Lines String}
    (hlines : ∀ p ∈ lines, p ∈ b.lines) : Took b c (c.renderNow lines).1 := by
  induction lines generalizing c with
  | nil => exact refl b c
  | cons p rest ih =>
    obtain ⟨i, text⟩ := p
    have hfirst := renderStore c hcurrent (hlines (i, text) List.mem_cons_self)
    refine hfirst.trans (ih _ ?_ fun p hp => hlines p (List.mem_cons_of_mem _ hp))
    exact hcurrent.trans hfirst.generation.symm

/-- A look-up takes in one line at the current generation, if it takes in anything. -/
theorem line (c : Cache) (i : Int) (text : String) :
    Took ⟨[(i, text)], c.generation⟩ c (c.line i text).2.1 := by
  unfold Cache.line
  cases c.served? i text with
  | some r => exact refl _ c
  | none =>
    have hstore := renderStore (b := ⟨[(i, text)], c.generation⟩) c rfl List.mem_cons_self
    unfold Cache.store at hstore
    rw [if_pos rfl] at hstore
    exact hstore

/-- An index that is dirty no longer has what the batch, which is current, has for it. -/
theorem cleared (h : Took b c c') {i : Int} (hi : i ∈ c.dirty) (hi' : i ∉ c'.dirty) :
    b.generation = c.generation ∧ c'.Holds b i := by
  refine ⟨?_, (h.marks i (Or.inl hi)).resolve_left hi'⟩
  refine Decidable.not_not.mp fun hne => hi' ?_
  rw [h.stale hne]
  exact hi

end Took

end Cache

/-! ## Calls -/

namespace Highlighter

open Cache

variable {h : Highlighter}

/-- A call that goes on takes in the batch of its job, whatever came of that. -/
theorem took_finish (h : Highlighter) (job : Job) (data : Except String (Lines Json)) :
    Took job.batch h.cache (h.finish job data).1.cache := by
  unfold Highlighter.finish
  cases data with
  | ok spans =>
    dsimp only
    cases readSpans spans with
    | error f => exact Took.refl _ _
    | ok spans =>
      dsimp only
      by_cases hd : h.disposed = true
      · rw [if_pos hd]
        exact Took.refl _ _
      · rw [if_neg hd]
        exact Took.merge _ _ _
  | error reason =>
    have hrender := Took.renderAll job.batch h.cache job.batch.lines
    dsimp only
    by_cases hd : h.disposed = true
    · rw [if_pos hd]
      exact hrender
    · rw [if_neg hd]
      exact hrender.trans (Took.merge _ _ _)

/-- A job ends: its worker loses it, and the call that waits for it goes on with some data. -/
theorem endJob_eq_finish {worker place : Nat} {w : Worker} {job : Job}
    (hw : h.workers[worker]? = some w) (hj : w.jobs[place]? = some job) (result : WorkResult) :
    ∃ w' data, w'.jobs = w.jobs.eraseIdx place ∧
      h.endJob worker place result = finish { h with workers := h.workers.set worker w' } job data := by
  unfold Highlighter.endJob
  rw [hw]
  dsimp only
  rw [hj]
  cases result with
  | done => exact ⟨_, _, rfl, rfl⟩
  | failed reason => exact ⟨_, _, rfl, rfl⟩

/-- A job ends and its batch is taken in. -/
theorem took_endJob {worker place : Nat} {w : Worker} {job : Job} (hw : h.workers[worker]? = some w)
    (hj : w.jobs[place]? = some job) (result : WorkResult) :
    Took job.batch h.cache (h.endJob worker place result).1.cache := by
  obtain ⟨w', data, -, heq⟩ := endJob_eq_finish hw hj result
  rw [heq]
  exact took_finish { h with workers := h.workers.set worker w' } job data

@[simp] theorem cache_ensureWorker (h : Highlighter) : h.ensureWorker.1.cache = h.cache := by
  unfold Highlighter.ensureWorker
  split <;> rfl

@[simp] theorem cache_setJobs (h : Highlighter) (jobs : List Job) : (h.setJobs jobs).cache = h.cache := by
  unfold Highlighter.setJobs
  split <;> rfl

/-- Giving jobs to the latest worker changes nothing else. -/
theorem setJobs_eq {w : Worker} (hl : h.latest? = some w) (jobs : List Job) :
    h.setJobs jobs = { h with workers := h.workers.dropLast ++ [{ w with jobs := jobs }] } := by
  have hlast : h.workers.getLast? = some w := hl
  unfold Highlighter.setJobs
  rw [hlast]

/-- The latest worker has the jobs that it was given. -/
theorem latest_setJobs {w : Worker} (hl : h.latest? = some w) (jobs : List Job) :
    (h.setJobs jobs).workers[(h.setJobs jobs).latest]? = some { w with jobs := jobs } := by
  rw [setJobs_eq hl]
  have hlatest : Highlighter.latest { h with workers := h.workers.dropLast ++ [{ w with jobs := jobs }] } =
      h.workers.dropLast.length := by
    unfold Highlighter.latest
    rw [List.length_append, List.length_singleton, Nat.add_sub_cancel]
  rw [hlatest]
  exact List.getElem?_concat_length

/-- **A batch that is handed to a worker has one of four fates**: there is no worker, the worker is out of
order and the call goes on without it, the batch waits, or it ends at once. -/
theorem submit_outcome (h : Highlighter) (job : Job) :
    (h.submit job).1 = h.ensureWorker.1 ∨
    (∃ data, (h.submit job).1 = (h.ensureWorker.1.finish job data).1) ∨
    ∃ w, h.ensureWorker.1.latest? = some w ∧
      ((h.submit job).1 = h.ensureWorker.1.setJobs (w.jobs ++ [job]) ∨
        (h.submit job).1 = ((h.ensureWorker.1.setJobs (w.jobs ++ [job])).endJob
          (h.ensureWorker.1.setJobs (w.jobs ++ [job])).latest w.jobs.length .done).1) := by
  unfold Highlighter.submit
  generalize h.ensureWorker = x
  obtain ⟨h', made⟩ := x
  dsimp only
  cases hl : h'.latest? with
  | none => exact Or.inl rfl
  | some w =>
    dsimp only
    cases w.fault with
    | some reason => exact Or.inr (Or.inl ⟨.error reason, rfl⟩)
    | none =>
      refine Or.inr (Or.inr ⟨w, rfl, ?_⟩)
      dsimp only
      by_cases hh : (h'.setJobs (w.jobs ++ [job])).holds = true
      · rw [if_pos hh]
        exact Or.inl rfl
      · rw [if_neg hh]
        exact Or.inr rfl

/-- A batch that is handed to a worker is taken in at once or not yet. -/
theorem took_submit (h : Highlighter) (job : Job) : Took job.batch h.cache (h.submit job).1.cache := by
  rw [← h.cache_ensureWorker]
  rcases h.submit_outcome job with heq | ⟨data, heq⟩ | ⟨w, hl, heq | heq⟩
  · rw [heq]
    exact Took.refl _ _
  · rw [heq]
    exact took_finish _ job data
  · rw [heq, cache_setJobs]
    exact Took.refl _ _
  · rw [heq, ← cache_setJobs _ (w.jobs ++ [job])]
    -- the job that ends is the one that was added last
    exact took_endJob (latest_setJobs hl _) List.getElem?_concat_length _

/-- **A call takes in no lines but those it was made for**, at the generation at which they were
gathered. -/
theorem took_process (h : Highlighter) (name : String) (lines : Lines String) :
    Took ⟨lines, h.cache.generation⟩ h.cache (h.process name lines).1.cache := by
  unfold Highlighter.process
  by_cases he : lines.isEmpty = true
  · rw [if_pos he]
    exact Took.refl _ _
  · rw [if_neg he]
    by_cases ht : h.threshold.isAbove lines.length = true
    · rw [if_pos ht]
      exact Took.renderNow h.cache rfl fun p hp => hp
    · rw [if_neg ht]
      exact took_submit h ⟨name, ⟨lines, h.cache.generation⟩⟩

end Highlighter

end EditorServices.Highlight
