import EditorServices.Highlight.Action
import EditorServices.Proofs.Highlight.Merging

/-!
# `Proofs.Highlight.Courses` — caches and batches in a course of actions

An action changes the cache in one of five ways, whichever it is: a line is looked up, indices are
invalidated, a batch is stored, nothing is stored, or all is dropped. `Changes` is that list; what holds
of every course is proved from it and not from the actions one by one.

A batch in flight has a past: some action gathered it. An invalidation steps the generation of the cache
and a batch keeps the one at which it was gathered, so that the two differ as soon as an invalidation came
after the batch.

## Contents
- **Actions.** `Action.isInvalidation`, `Action.Invalidates`, and `Action.gathered?`, the batch that an
  action starts on.
- **Changes.** `Changes` and `changes_act`.
- **Jobs.** `Holding`, what the batches in flight are, and `Holding.after`, where they come from.
- **Generations.** `generation_after` counts invalidations; `Dated.after` bounds records and batches.
-/

namespace EditorServices.Highlight

open Cache (Took)

/-! ## Actions -/

namespace Action

/-- The actions that step the generation. -/
def isInvalidation : Action → Bool
  | .invalidateAll | .invalidateLines _ | .invalidateRange _ _ => true
  | _ => false

/-- An action invalidates a certain index. -/
def Invalidates (i : Int) : Action → Prop
  | .invalidateLines lines => i ∈ lines
  | .invalidateRange first last => first ≤ i ∧ i ≤ last
  | _ => False

/-- The batch that an action gathers, of the current generation. -/
def gathered? (h : Highlighter) : Action → Option Batch
  | .preHighlight _ first last textAt =>
    (Highlighter.textsFrom textAt first (last - first + 1).toNat).toOption.map fun lines =>
      ⟨h.cache.unserved lines, h.cache.generation⟩
  | .rehighlight _ lineCount textAt =>
    (Highlighter.textsAt textAt (h.cache.dropBeyond lineCount).dirty).toOption.map fun lines =>
      ⟨lines, h.cache.generation⟩
  | _ => none

/-- The cache to which a batch goes that an action stores: marks beyond the end are dropped first. -/
def readied (h : Highlighter) : Action → Cache
  | .rehighlight _ lineCount _ => h.cache.dropBeyond lineCount
  | _ => h.cache

variable {h : Highlighter} {x : Action} {b : Batch} {i : Int}

theorem Invalidates.isInvalidation (hx : x.Invalidates i) : x.isInvalidation = true := by
  cases x with
  | invalidateLines lines => rfl
  | invalidateRange first last => rfl
  | _ => exact hx.elim

theorem gathered?_preHighlight {name : String} {first last : Int} {textAt : Int → Except Failure String}
    {lines : Lines String} (ht : Highlighter.textsFrom textAt first (last - first + 1).toNat = .ok lines) :
    (preHighlight name first last textAt).gathered? h =
      some ⟨h.cache.unserved lines, h.cache.generation⟩ := by
  show (Highlighter.textsFrom textAt first (last - first + 1).toNat).toOption.map _ = _
  rw [ht]
  rfl

theorem gathered?_rehighlight {name : String} {lineCount : Int} {textAt : Int → Except Failure String}
    {lines : Lines String}
    (ht : Highlighter.textsAt textAt (h.cache.dropBeyond lineCount).dirty = .ok lines) :
    (rehighlight name lineCount textAt).gathered? h = some ⟨lines, h.cache.generation⟩ := by
  show (Highlighter.textsAt textAt (h.cache.dropBeyond lineCount).dirty).toOption.map _ = _
  rw [ht]
  rfl

/-- A batch is of the generation at which it was gathered. -/
theorem generation_gathered (hb : x.gathered? h = some b) : b.generation = h.cache.generation := by
  cases x with
  | preHighlight name first last textAt =>
    obtain ⟨lines, -, rfl⟩ := Option.map_eq_some_iff.mp hb
    rfl
  | rehighlight name lineCount textAt =>
    obtain ⟨lines, -, rfl⟩ := Option.map_eq_some_iff.mp hb
    rfl
  | _ => cases hb

theorem not_isInvalidation_of_gathered (hb : x.gathered? h = some b) : x.isInvalidation = false := by
  cases x with
  | preHighlight name first last textAt => rfl
  | rehighlight name lineCount textAt => rfl
  | _ => cases hb

end Action

namespace Highlighter

variable {h : Highlighter} {x : Action} {b : Batch} {c : Cache} {i : Int}

/-! ## Changes -/

/-- An action stores a batch: one that it gathered, or that of a job which it ends. -/
inductive Stores (h : Highlighter) : Action → Batch → Prop
  | gathered {x : Action} {b : Batch} (gathered : x.gathered? h = some b) : Stores h x b
  | ended {worker place : Nat} {w : Worker} {job : Job} (result : WorkResult)
      (worker_eq : h.workers[worker]? = some w) (job_eq : w.jobs[place]? = some job) :
      Stores h (.endJob worker place result) job.batch

/-- **Everything that an action can do to the cache.** A line that is looked up is a batch of its own. -/
inductive Changes (h : Highlighter) : Action → Cache → Prop
  | looked {i : Int} {text : String} {c : Cache}
      (took : Took ⟨[(i, text)], h.cache.generation⟩ h.cache c) : Changes h (.look i text) c
  | invalidated {x : Action} {c : Cache} (invalidation : x.isInvalidation = true)
      (generation : c.generation = h.cache.generation + 1)
      (records : ∀ p ∈ c.records, p ∈ h.cache.records)
      (dirty : ∀ i, i ∈ h.cache.dirty ∨ x.Invalidates i → i ∈ c.dirty) : Changes h x c
  | stored {x : Action} {b : Batch} {c : Cache} (stores : Stores h x b)
      (took : Took b (x.readied h) c) : Changes h x c
  | idle {x : Action} (other : x.isInvalidation = false) : Changes h x (x.readied h)
  | disposed : Changes h .dispose h.cache.clear

/-- What is invalidated line by line: records are only removed, marks only added. -/
theorem invalidateLines_foldl (c : Cache) (lines : List Int) :
    (lines.foldl Cache.forget c).generation = c.generation ∧
    (∀ p ∈ (lines.foldl Cache.forget c).records, p ∈ c.records) ∧
    ∀ i, i ∈ c.dirty ∨ i ∈ lines → i ∈ (lines.foldl Cache.forget c).dirty := by
  induction lines generalizing c with
  | nil => exact ⟨rfl, fun p hp => hp, fun i hi => hi.resolve_right List.not_mem_nil⟩
  | cons j rest ih =>
    obtain ⟨hgen, hrecords, hdirty⟩ := ih (c.forget j)
    refine ⟨hgen, fun p hp => (List.mem_filter.mp (hrecords p hp)).1, ?_⟩
    intro i hi
    refine hdirty i ?_
    rcases hi with hi | hi
    · exact Or.inl (LineSet.mem_insert.mpr (Or.inr hi))
    · rcases List.mem_cons.mp hi with rfl | hi
      · exact Or.inl (LineSet.mem_insert.mpr (Or.inl rfl))
      · exact Or.inr hi

theorem mem_indexRange {first last : Int} (h₁ : first ≤ i) (h₂ : i ≤ last) : i ∈ indexRange first last := by
  refine List.mem_map.mpr ⟨(i - first).toNat, List.mem_range.mpr ?_, ?_⟩
  · omega
  · omega

theorem cache_changeWorker (h : Highlighter) (worker : Nat) (f : Worker → Worker) :
    (h.changeWorker worker f).cache = h.cache := by
  unfold Highlighter.changeWorker
  cases h.workers[worker]? <;> rfl

theorem cache_cancel (h : Highlighter) (worker place : Nat) : (h.cancel worker place).1.cache = h.cache := by
  unfold Highlighter.cancel
  cases h.workers[worker]? with
  | none => rfl
  | some w =>
    dsimp only
    cases w.jobs[place]? <;> rfl

theorem cache_dispose (h : Highlighter) : h.dispose.1.cache = h.cache.clear := by
  unfold Highlighter.dispose
  split
  · exact cache_setJobs _ _
  · rfl

/-- A job that ends changes the cache by the batch of the job; where there is no job nothing happens. -/
theorem changes_endJob (h : Highlighter) (worker place : Nat) (result : WorkResult) :
    Changes h (.endJob worker place result) (h.endJob worker place result).1.cache := by
  cases hw : h.workers[worker]? with
  | none =>
    unfold Highlighter.endJob
    rw [hw]
    exact .idle rfl
  | some w =>
    cases hj : w.jobs[place]? with
    | none =>
      unfold Highlighter.endJob
      rw [hw]
      dsimp only
      rw [hj]
      exact .idle rfl
    | some job => exact .stored (.ended result hw hj) (took_endJob hw hj result)

theorem changes_preHighlight (h : Highlighter) (name : String) (first last : Int)
    (textAt : Int → Except Failure String) :
    Changes h (.preHighlight name first last textAt) (h.preHighlight name first last textAt).1.cache := by
  unfold Highlighter.preHighlight
  cases ht : textsFrom textAt first (last - first + 1).toNat with
  | error f => exact .idle rfl
  | ok lines =>
    exact .stored (.gathered (Action.gathered?_preHighlight ht))
      (took_process h name (h.cache.unserved lines))

theorem changes_rehighlight (h : Highlighter) (name : String) (lineCount : Int)
    (textAt : Int → Except Failure String) :
    Changes h (.rehighlight name lineCount textAt) (h.rehighlight name lineCount textAt).1.cache := by
  unfold Highlighter.rehighlight
  dsimp only
  cases ht : textsAt textAt (h.cache.dropBeyond lineCount).dirty with
  | error f => exact .idle rfl
  | ok lines =>
    exact .stored (.gathered (Action.gathered?_rehighlight ht))
      (took_process { h with cache := h.cache.dropBeyond lineCount } name lines)

/-- **An action changes the cache as `Changes` says.** -/
theorem changes_act (h : Highlighter) (x : Action) : Changes h x (h.act x).1.cache := by
  cases x with
  | look i text => exact .looked (Took.line h.cache i text)
  | invalidateAll =>
    refine .invalidated rfl rfl (fun p hp => absurd hp List.not_mem_nil) fun i hi => ?_
    exact hi.resolve_right id
  | invalidateLines lines =>
    obtain ⟨hgen, hrecords, hdirty⟩ := invalidateLines_foldl h.cache lines
    exact .invalidated rfl (congrArg (· + 1) hgen) hrecords hdirty
  | invalidateRange first last =>
    refine .invalidated rfl rfl (fun p hp => (List.mem_filter.mp hp).1) fun i hi => ?_
    refine LineSet.mem_union.mpr (hi.imp id ?_)
    rintro ⟨h₁, h₂⟩
    exact mem_indexRange h₁ h₂
  | preHighlight name first last textAt => exact changes_preHighlight h name first last textAt
  | rehighlight name lineCount textAt => exact changes_rehighlight h name lineCount textAt
  | endJob worker place result => exact changes_endJob h worker place result
  | cancel worker place =>
    show Changes h _ (h.cancel worker place).1.cache
    rw [cache_cancel]
    exact .idle rfl
  | breakDown worker reason =>
    show Changes h _ (h.changeWorker worker _).cache
    rw [cache_changeWorker]
    exact .idle rfl
  | elsewhere worker language theme lines =>
    show Changes h _ (h.changeWorker worker _).cache
    rw [cache_changeWorker]
    exact .idle rfl
  | dispose =>
    show Changes h _ h.dispose.1.cache
    rw [cache_dispose]
    exact .disposed

/-! ## Jobs -/

/-- All batches in flight are of a kind. -/
def Holding (P : Batch → Prop) (h : Highlighter) : Prop := ∀ w ∈ h.workers, ∀ job ∈ w.jobs, P job.batch

variable {P Q : Batch → Prop}

theorem Holding.mono (hh : h.Holding P) (hPQ : ∀ b, P b → Q b) : h.Holding Q :=
  fun w hw job hjob => hPQ job.batch (hh w hw job hjob)

theorem Holding.setWorker (hh : h.Holding P) (worker : Nat) {w : Worker} (hw : ∀ job ∈ w.jobs, P job.batch) :
    Holding P { h with workers := h.workers.set worker w } := by
  intro w' hw'
  rcases List.mem_or_eq_of_mem_set hw' with hmem | rfl
  · exact hh w' hmem
  · exact hw

theorem workers_finish (h : Highlighter) (job : Job) (data : Except String (Lines Json)) :
    (h.finish job data).1.workers = h.workers := by
  unfold Highlighter.finish
  cases data with
  | ok spans =>
    dsimp only
    cases readSpans spans with
    | error f => rfl
    | ok spans =>
      dsimp only
      split <;> rfl
  | error reason =>
    dsimp only
    split <;> rfl

/-- A call that goes on hands no batch to a worker. -/
theorem Holding.finish (hh : h.Holding P) (job : Job) (data : Except String (Lines Json)) :
    (h.finish job data).1.Holding P := by
  unfold Holding
  rw [workers_finish]
  exact hh

theorem Holding.endJob (hh : h.Holding P) (worker place : Nat) (result : WorkResult) :
    (h.endJob worker place result).1.Holding P := by
  cases hw : h.workers[worker]? with
  | none =>
    unfold Highlighter.endJob
    rw [hw]
    exact hh
  | some w =>
    cases hj : w.jobs[place]? with
    | none =>
      unfold Highlighter.endJob
      rw [hw]
      dsimp only
      rw [hj]
      exact hh
    | some job =>
      obtain ⟨w', data, hjobs, heq⟩ := endJob_eq_finish hw hj result
      rw [heq]
      refine (hh.setWorker worker fun job' hjob' => ?_).finish job data
      rw [hjobs] at hjob'
      exact hh w (List.mem_of_getElem? hw) job' (List.mem_of_mem_eraseIdx hjob')

theorem Holding.ensureWorker (hh : h.Holding P) : h.ensureWorker.1.Holding P := by
  unfold Highlighter.ensureWorker
  by_cases hu : h.inUse = true
  · rw [if_pos hu]
    exact hh
  · rw [if_neg hu]
    intro w hw
    rcases List.mem_append.mp hw with hw | hw
    · exact hh w hw
    · rw [List.mem_singleton.mp hw]
      exact fun job hjob => absurd hjob List.not_mem_nil

theorem Holding.setJobs (hh : h.Holding P) {jobs : List Job} (hjobs : ∀ job ∈ jobs, P job.batch) :
    (h.setJobs jobs).Holding P := by
  unfold Highlighter.setJobs
  cases hl : h.workers.getLast? with
  | none => exact hh
  | some w =>
    intro w' hw'
    rcases List.mem_append.mp hw' with hw' | hw'
    · exact hh w' (List.dropLast_subset _ hw')
    · rw [List.mem_singleton.mp hw']
      exact hjobs

/-- A batch that is handed to a worker joins those in flight, if it has to wait. -/
theorem Holding.submit (hh : h.Holding P) {job : Job} (hjob : P job.batch) : (h.submit job).1.Holding P := by
  have he := hh.ensureWorker
  rcases h.submit_outcome job with heq | ⟨data, heq⟩ | ⟨w, hl, hqueued⟩
  · rw [heq]
    exact he
  · rw [heq]
    exact he.finish job data
  · have hset : (h.ensureWorker.1.setJobs (w.jobs ++ [job])).Holding P := by
      refine he.setJobs fun job' hjob' => ?_
      rcases List.mem_append.mp hjob' with hjob' | hjob'
      · exact he w (List.mem_of_getLast? hl) job' hjob'
      · rw [List.mem_singleton.mp hjob']
        exact hjob
    rcases hqueued with heq | heq
    · rw [heq]
      exact hset
    · rw [heq]
      exact hset.endJob _ _ _

theorem Holding.process (hh : h.Holding P) (name : String) {lines : Lines String}
    (hlines : P ⟨lines, h.cache.generation⟩) : (h.process name lines).1.Holding P := by
  unfold Highlighter.process
  by_cases he : lines.isEmpty = true
  · rw [if_pos he]
    exact hh
  · rw [if_neg he]
    by_cases ht : h.threshold.isAbove lines.length = true
    · rw [if_pos ht]
      exact hh
    · rw [if_neg ht]
      exact hh.submit hlines

theorem Holding.changeWorker (hh : h.Holding P) (worker : Nat) {f : Worker → Worker}
    (hf : ∀ w, (f w).jobs = w.jobs) : (h.changeWorker worker f).Holding P := by
  unfold Highlighter.changeWorker
  cases hw : h.workers[worker]? with
  | none => exact hh
  | some w =>
    refine hh.setWorker worker ?_
    rw [hf]
    exact hh w (List.mem_of_getElem? hw)

theorem Holding.cancel (hh : h.Holding P) (worker place : Nat) : (h.cancel worker place).1.Holding P := by
  unfold Highlighter.cancel
  cases hw : h.workers[worker]? with
  | none => exact hh
  | some w =>
    dsimp only
    cases w.jobs[place]? with
    | none => exact hh
    | some job =>
      refine hh.setWorker worker fun job' hjob' => ?_
      exact hh w (List.mem_of_getElem? hw) job' (List.mem_of_mem_eraseIdx hjob')

theorem Holding.dispose (hh : h.Holding P) : h.dispose.1.Holding P := by
  unfold Highlighter.dispose
  have hclosed : Holding P { h with cache := h.cache.clear, disposed := true, inUse := false } := hh
  split
  · next jobs _ hl =>
    refine hclosed.setJobs fun job hjob => ?_
    exact hh _ (List.mem_of_getLast? hl) job (List.mem_of_mem_take hjob)
  · exact hclosed

/-- **The batches in flight after an action** were in flight before it, or are what it gathered. -/
theorem Holding.act (hh : h.Holding P) (hx : ∀ b, x.gathered? h = some b → P b) :
    (h.act x).1.Holding P := by
  cases x with
  | look i text => exact hh
  | invalidateAll => exact hh
  | invalidateLines lines => exact hh
  | invalidateRange first last => exact hh
  | preHighlight name first last textAt =>
    show (h.preHighlight name first last textAt).1.Holding P
    unfold Highlighter.preHighlight
    cases ht : textsFrom textAt first (last - first + 1).toNat with
    | error f => exact hh
    | ok lines => exact hh.process name (hx _ (Action.gathered?_preHighlight ht))
  | rehighlight name lineCount textAt =>
    show (h.rehighlight name lineCount textAt).1.Holding P
    unfold Highlighter.rehighlight
    dsimp only
    cases ht : textsAt textAt (h.cache.dropBeyond lineCount).dirty with
    | error f => exact hh
    | ok lines =>
      exact Holding.process (h := { h with cache := h.cache.dropBeyond lineCount }) hh name
        (hx _ (Action.gathered?_rehighlight ht))
  | endJob worker place result => exact hh.endJob worker place result
  | cancel worker place => exact hh.cancel worker place
  | breakDown worker reason => exact hh.changeWorker worker fun w => rfl
  | elsewhere worker language theme lines => exact hh.changeWorker worker fun w => rfl
  | dispose => exact hh.dispose

theorem after_append (h : Highlighter) (before more : List Action) :
    h.after (before ++ more) = (h.after before).after more := by
  induction before generalizing h with
  | nil => rfl
  | cons a rest ih => exact ih (h.act a).1

/-- A batch was gathered in a course of actions. -/
def Gathered (h : Highlighter) (actions : List Action) (b : Batch) : Prop :=
  ∃ before y more, actions = before ++ y :: more ∧ y.gathered? (h.after before) = some b

/-- **The batches in flight after a course** were in flight before it, or were gathered in it. -/
theorem Holding.after (hh : h.Holding P) (actions : List Action) :
    (h.after actions).Holding fun b => P b ∨ Gathered h actions b := by
  induction actions generalizing h P with
  | nil => exact hh.mono fun b hb => Or.inl hb
  | cons a rest ih =>
    have hact : (h.act a).1.Holding fun b => P b ∨ a.gathered? h = some b :=
      (hh.mono fun b hb => Or.inl hb).act fun b hb => Or.inr hb
    refine (ih hact).mono ?_
    rintro b ((hb | hb) | ⟨before, y, more, rfl, hb⟩)
    · exact Or.inl hb
    · exact Or.inr ⟨[], a, rest, rfl, hb⟩
    · exact Or.inr ⟨a :: before, y, more, rfl, hb⟩

/-! ## Generations -/

theorem Stores.not_isInvalidation (hs : Stores h x b) : x.isInvalidation = false := by
  cases hs with
  | gathered hb => exact Action.not_isInvalidation_of_gathered hb
  | ended result _ _ => rfl

theorem generation_readied (h : Highlighter) (x : Action) :
    (x.readied h).generation = h.cache.generation := by
  cases x <;> rfl

theorem Changes.generation (hx : Changes h x c) :
    c.generation = h.cache.generation + if x.isInvalidation then 1 else 0 := by
  cases hx with
  | looked took => exact took.generation
  | invalidated inv generation _ _ =>
    rw [inv]
    exact generation
  | stored stores took =>
    rw [stores.not_isInvalidation, took.generation]
    exact generation_readied h x
  | idle other =>
    rw [other]
    exact generation_readied h x
  | disposed => rfl

/-- **The generation counts invalidations.** -/
theorem generation_after (h : Highlighter) (actions : List Action) :
    (h.after actions).cache.generation = h.cache.generation + actions.countP Action.isInvalidation := by
  induction actions generalizing h with
  | nil => rfl
  | cons a rest ih =>
    have hact := (changes_act h a).generation
    have hrest := ih (h.act a).1
    rw [List.countP_cons]
    calc (h.after (a :: rest)).cache.generation
        = (h.act a).1.cache.generation + rest.countP Action.isInvalidation := hrest
      _ = h.cache.generation + (rest.countP Action.isInvalidation + if a.isInvalidation then 1 else 0) := by
        rw [hact]
        omega

/-- The generation of a batch falls behind with each invalidation after it was gathered. -/
theorem generation_since {before : List Action} (hb : x.gathered? (h.after before) = some b)
    (more : List Action) :
    (h.after (before ++ x :: more)).cache.generation =
      b.generation + more.countP Action.isInvalidation := by
  rw [after_append, generation_after, List.countP_cons, Action.generation_gathered hb,
    Action.not_isInvalidation_of_gathered hb]
  rfl

/-- Neither a record nor a batch in flight is ahead of the cache. -/
structure Dated (h : Highlighter) : Prop where
  fresh : h.cache.Fresh
  jobs : h.Holding fun b => b.generation ≤ h.cache.generation

theorem Dated.bounded (hd : h.Dated) (hs : Stores h x b) : b.generation ≤ h.cache.generation := by
  cases hs with
  | gathered hb => exact Nat.le_of_eq (Action.generation_gathered hb)
  | ended result hw hj =>
    exact hd.jobs _ (List.mem_of_getElem? hw) _ (List.mem_of_getElem? hj)

theorem fresh_readied (hc : h.cache.Fresh) (x : Action) : (x.readied h).Fresh := by
  cases x with
  | rehighlight name lineCount textAt => exact hc.unmark fun i hi => (List.mem_filter.mp hi).1
  | _ => exact hc

theorem Changes.fresh (hx : Changes h x c) (hd : h.Dated) : c.Fresh := by
  cases hx with
  | looked took => exact took.fresh (Nat.le_refl _) hd.fresh
  | invalidated _ generation records _ => exact hd.fresh.next records generation
  | stored stores took =>
    refine took.fresh ?_ (fresh_readied hd.fresh x)
    rw [generation_readied]
    exact hd.bounded stores
  | idle _ => exact fresh_readied hd.fresh x
  | disposed => exact Cache.fresh_of_lt fun p hp => absurd hp List.not_mem_nil

theorem Dated.act (hd : h.Dated) (x : Action) : (h.act x).1.Dated := by
  have hx := changes_act h x
  refine ⟨hx.fresh hd, ?_⟩
  have hle : h.cache.generation ≤ (h.act x).1.cache.generation := by
    rw [hx.generation]
    exact Nat.le_add_right _ _
  -- what was in flight is of an earlier generation, what is gathered now of this one
  refine Holding.act (hd.jobs.mono fun b hb => Nat.le_trans hb hle) fun b hb => ?_
  rw [Action.generation_gathered hb]
  exact hle

theorem Dated.after (hd : h.Dated) (actions : List Action) : (h.after actions).Dated := by
  induction actions generalizing h with
  | nil => exact hd
  | cons a rest ih => exact ih (hd.act a)

end Highlighter

end EditorServices.Highlight
