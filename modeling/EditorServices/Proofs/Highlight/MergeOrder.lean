import EditorServices.Proofs.Highlight.Invalidation
import EditorServices.Proofs.Highlight.Transparency

/-!
# `Proofs.Highlight.MergeOrder` — batches may end in any order

Batches in flight can share lines, can be of different generations, and end when they like. Each of them
offers the cache a record for each of its lines. What the cache has for an index in the end is the newest of
the records offered for it, unless it had a newer one already, and an index is dirty no longer if a record
of the current generation was offered for it. None of this mentions an order, so there is none to be seen.

The order of two records of one generation would show. They are the same record if the batches agree on the
text of the line, since a record has the span that its text means.

## Contents
- **Offers.** `Batch.offers`; `Cache.Newest` and `Cache.Accepted`, what a cache is after some offers.
- **Merging.** `Cache.Accepted.merge`, for one batch.
- **Rows.** `Completion`, `Highlighter.ended`, and `Highlighter.accepted_row`, for batches that end one after
  the other.
- **The headline.** `merge_order_irrelevant`.
-/

namespace EditorServices.Highlight

/-! ## Offers -/

/-- The records that a batch has for its lines, each with the span that its text means. -/
def Batch.offers (t : Tokenizer) (b : Batch) : Lines LineRecord :=
  b.lines.map fun p => (p.1, ⟨p.2, t.answer p.2, b.generation⟩)

namespace Cache

variable {offers offers' : Lines LineRecord} {c c' c'' : Cache} {i : Int}

theorem hasNewer_eq_true {generation : Nat} :
    c.hasNewer i generation = true ↔
      ∃ r, c.records.get? i = some r ∧ generation < r.generation := by
  unfold hasNewer
  cases c.records.get? i with
  | none => simp
  | some r => simp

theorem hasNewer_eq_false {generation : Nat} :
    c.hasNewer i generation = false ↔
      ∀ r, c.records.get? i = some r → r.generation ≤ generation := by
  unfold hasNewer
  cases c.records.get? i with
  | none => simp
  | some r => simp

/-- What is under an index after some records were offered: the record from before, if it is newer than all
that were offered for the index, and else an offered one that none is newer than. -/
inductive Newest (offers : Lines LineRecord) (c : Cache) (i : Int) : Option LineRecord → Prop
  | kept (newer : ∀ r, (i, r) ∈ offers → c.hasNewer i r.generation = true) :
      Newest offers c i (c.records.get? i)
  | taken {r : LineRecord} (offered : (i, r) ∈ offers) (current : c.hasNewer i r.generation = false)
      (newest : ∀ r', (i, r') ∈ offers → r'.generation ≤ r.generation) : Newest offers c i (some r)

/-- A cache was offered records: its generation is the same, each index has the newest record, and the marks
that are gone are those for which a record of the generation of the cache was offered. -/
structure Accepted (offers : Lines LineRecord) (c c' : Cache) : Prop where
  generation : c'.generation = c.generation
  newest : ∀ i, Newest offers c i (c'.records.get? i)
  dirty : ∀ i, i ∈ c'.dirty ↔ i ∈ c.dirty ∧ ∀ r, (i, r) ∈ offers → r.generation ≠ c.generation

/-- More records are offered to the cache that came of the first. -/
theorem Newest.append (hc : Newest offers c i (c'.records.get? i)) {x : Option LineRecord}
    (hx : Newest offers' c' i x) : Newest (offers ++ offers') c i x := by
  generalize hget : c'.records.get? i = y at hc
  cases hc with
  | kept hnewer =>
    -- the index is as before, so it has a newer record as before
    have hsame : ∀ generation, c'.hasNewer i generation = c.hasNewer i generation := by
      intro generation
      unfold hasNewer
      rw [hget]
    cases hx with
    | kept hnewer' =>
      rw [hget]
      refine .kept fun r hr => ?_
      rcases List.mem_append.mp hr with hr | hr
      · exact hnewer r hr
      · rw [← hsame]
        exact hnewer' r hr
    | @taken r hoffered hcurrent hnewest =>
      rw [hsame] at hcurrent
      refine .taken (List.mem_append_right _ hoffered) hcurrent fun r' hr' => ?_
      rcases List.mem_append.mp hr' with hr' | hr'
      · obtain ⟨q, hq, hlt⟩ := hasNewer_eq_true.mp (hnewer r' hr')
        have hle := hasNewer_eq_false.mp hcurrent q hq
        omega
      · exact hnewest r' hr'
  | @taken q hoffered hcurrent hnewest =>
    cases hx with
    | kept hnewer' =>
      rw [hget]
      refine .taken (List.mem_append_left _ hoffered) hcurrent fun r' hr' => ?_
      rcases List.mem_append.mp hr' with hr' | hr'
      · exact hnewest r' hr'
      · obtain ⟨q', hq', hlt⟩ := hasNewer_eq_true.mp (hnewer' r' hr')
        rw [hget] at hq'
        cases hq'
        exact Nat.le_of_lt hlt
    | @taken r hoffered' hcurrent' hnewest' =>
      have hqr : q.generation ≤ r.generation := hasNewer_eq_false.mp hcurrent' q hget
      refine .taken (List.mem_append_right _ hoffered') ?_ fun r' hr' => ?_
      · refine hasNewer_eq_false.mpr fun p hp => ?_
        have hpq := hasNewer_eq_false.mp hcurrent p hp
        omega
      · rcases List.mem_append.mp hr' with hr' | hr'
        · have hrq := hnewest r' hr'
          omega
        · exact hnewest' r' hr'

/-- **The newest record is the same in whichever order the records were offered**, if two that are of one
generation are the same. -/
theorem Newest.unique {x y : Option LineRecord} (hx : Newest offers c i x) (hy : Newest offers' c i y)
    (hmem : ∀ p, p ∈ offers ↔ p ∈ offers')
    (hagree : ∀ r r', (i, r) ∈ offers → (i, r') ∈ offers → r.generation = r'.generation → r = r') :
    x = y := by
  cases hx with
  | kept hnewer =>
    cases hy with
    | kept _ => rfl
    | taken hoffered hcurrent _ =>
      rw [hnewer _ ((hmem _).mpr hoffered)] at hcurrent
      cases hcurrent
  | @taken r hoffered hcurrent hnewest =>
    cases hy with
    | kept hnewer =>
      rw [hnewer _ ((hmem _).mp hoffered)] at hcurrent
      cases hcurrent
    | @taken r' hoffered' _ hnewest' =>
      have hle : r.generation ≤ r'.generation := hnewest' r ((hmem _).mp hoffered)
      have hge : r'.generation ≤ r.generation := hnewest r' ((hmem _).mpr hoffered')
      rw [hagree r r' hoffered ((hmem _).mpr hoffered') (Nat.le_antisymm hle hge)]

namespace Accepted

/-- Nothing was offered, and of the cache only its tokenizer may be another. -/
theorem idle (hrecords : c'.records = c.records) (hdirty : c'.dirty = c.dirty)
    (hgen : c'.generation = c.generation) : Accepted [] c c' := by
  refine ⟨hgen, ?_, ?_⟩
  · intro i
    rw [hrecords]
    exact .kept fun r hr => absurd hr List.not_mem_nil
  · intro i
    rw [hdirty]
    exact ⟨fun hi => ⟨hi, fun r hr => absurd hr List.not_mem_nil⟩, And.left⟩

theorem refl (c : Cache) : Accepted [] c c := idle rfl rfl rfl

theorem trans (h : Accepted offers c c') (h' : Accepted offers' c' c'') :
    Accepted (offers ++ offers') c c'' := by
  refine ⟨h'.generation.trans h.generation, fun i => (h.newest i).append (h'.newest i), ?_⟩
  intro i
  rw [h'.dirty i, h.dirty i, h.generation]
  constructor
  · rintro ⟨⟨hi, hne⟩, hne'⟩
    refine ⟨hi, fun r hr => ?_⟩
    rcases List.mem_append.mp hr with hr | hr
    · exact hne r hr
    · exact hne' r hr
  · rintro ⟨hi, hne⟩
    exact ⟨⟨hi, fun r hr => hne r (List.mem_append_left _ hr)⟩,
      fun r hr => hne r (List.mem_append_right _ hr)⟩

/-- **Two caches that were offered the same records are the same**, whatever the order was. -/
theorem ext (h : Accepted offers c c') (h' : Accepted offers' c c'')
    (hmem : ∀ p, p ∈ offers ↔ p ∈ offers')
    (hagree : ∀ i r r', (i, r) ∈ offers → (i, r') ∈ offers → r.generation = r'.generation → r = r')
    (hrecords : c'.records.Ascending) (hrecords' : c''.records.Ascending)
    (hdirty : c'.dirty.Ascending) (hdirty' : c''.dirty.Ascending) :
    c'.records = c''.records ∧ c'.dirty = c''.dirty ∧ c'.generation = c''.generation := by
  refine ⟨?_, ?_, h.generation.trans h'.generation.symm⟩
  · refine hrecords.ext hrecords' fun i => ?_
    exact (h.newest i).unique (h'.newest i) hmem (hagree i)
  · refine hdirty.ext hdirty' fun i => ?_
    rw [h.dirty i, h'.dirty i]
    constructor
    · rintro ⟨hi, hne⟩
      exact ⟨hi, fun r hr => hne r ((hmem _).mpr hr)⟩
    · rintro ⟨hi, hne⟩
      exact ⟨hi, fun r hr => hne r ((hmem _).mp hr)⟩

/-! ## Merging -/

/-- **One record is offered**, and stored unless a newer one is there. One of the current generation is never
refused, since no record is ahead of the cache: that is why its mark is gone. -/
theorem mergeLine (hc : c.Fresh) (i : Int) (r : LineRecord) :
    Accepted [(i, r)] c (c.mergeLine i r) := by
  unfold Cache.mergeLine
  cases hn : c.hasNewer i r.generation with
  | true =>
    rw [if_pos rfl]
    obtain ⟨q, hq, hlt⟩ := hasNewer_eq_true.mp hn
    have hbound : q.generation ≤ c.generation := hc.bounded (i, q) (Lines.mem_of_get? hq)
    refine ⟨rfl, ?_, ?_⟩
    · intro j
      refine .kept fun r' hr' => ?_
      cases List.mem_singleton.mp hr'
      exact hn
    · intro j
      refine ⟨fun hj => ⟨hj, fun r' hr' => ?_⟩, And.left⟩
      cases List.mem_singleton.mp hr'
      omega
  | false =>
    rw [if_neg Bool.false_ne_true]
    refine ⟨rfl, ?_, ?_⟩
    · intro j
      show Newest [(i, r)] c j ((c.records.put i r).get? j)
      by_cases hj : j = i
      · subst hj
        rw [Lines.get?_put_self]
        refine .taken List.mem_cons_self hn fun r' hr' => ?_
        cases List.mem_singleton.mp hr'
        exact Nat.le_refl _
      · rw [Lines.get?_put_of_ne _ _ hj]
        refine .kept fun r' hr' => ?_
        exact absurd (congrArg Prod.fst (List.mem_singleton.mp hr')) hj
    · intro j
      show j ∈ (if r.generation = c.generation then c.dirty.erase i else c.dirty) ↔ _
      by_cases hg : r.generation = c.generation
      · rw [if_pos hg, LineSet.mem_erase]
        constructor
        · rintro ⟨hj, hne⟩
          refine ⟨hj, fun r' hr' => ?_⟩
          exact absurd (congrArg Prod.fst (List.mem_singleton.mp hr')) hne
        · rintro ⟨hj, hne⟩
          refine ⟨hj, ?_⟩
          rintro rfl
          exact hne r List.mem_cons_self hg
      · rw [if_neg hg]
        refine ⟨fun hj => ⟨hj, fun r' hr' => ?_⟩, And.left⟩
        cases List.mem_singleton.mp hr'
        exact hg

/-- **A batch that is merged offers its records.** Its lines are in order, so that the text under the index
of a line is that of the line. -/
theorem merge (t : Tokenizer) (hc : c.Fresh) {b : Batch} (hb : b.lines.Ascending)
    (hle : b.generation ≤ c.generation) : Accepted (b.offers t) c (c.merge b (t.answers b.lines)) := by
  -- the lines still to come are some of those of the batch
  suffices hsome : ∀ lines : Lines String, (∀ p ∈ lines, p ∈ b.lines) →
      Accepted (Batch.offers t ⟨lines, b.generation⟩) c (c.merge b (t.answers lines)) from
    hsome b.lines fun p hp => hp
  intro lines hlines
  induction lines generalizing c with
  | nil => exact refl c
  | cons p rest ih =>
    obtain ⟨i, text⟩ := p
    have htext : b.lines.get? i = some text := hb.get?_of_mem (hlines (i, text) List.mem_cons_self)
    have hfirst := mergeLine hc i ⟨text, t.answer text, b.generation⟩
    have hfresh : (c.mergeLine i ⟨text, t.answer text, b.generation⟩).Fresh :=
      (Took.mergeLine c (hlines (i, text) List.mem_cons_self) (t.answer text)).fresh hle hc
    have hrest := ih hfresh (by rw [hfirst.generation]; exact hle)
      fun p hp => hlines p (List.mem_cons_of_mem _ hp)
    have hstep : c.merge b (t.answers ((i, text) :: rest)) =
        (c.mergeLine i ⟨text, t.answer text, b.generation⟩).merge b (t.answers rest) := by
      unfold Cache.merge Tokenizer.answers
      rw [List.map_cons, List.foldl_cons]
      dsimp only
      rw [htext]
    rw [hstep]
    exact hfirst.trans hrest

theorem render (c : Cache) (text : String) : Accepted [] c (c.render text).2.1 := by
  unfold Cache.render
  by_cases he : text.isEmpty = true
  · rw [if_pos he]
    exact refl c
  · rw [if_neg he]
    generalize c.tokenizer.highlight text = x
    obtain ⟨result, t⟩ := x
    cases result with
    | ok span => exact idle rfl rfl rfl
    | error f => exact idle rfl rfl rfl

/-- Highlighting lines is not yet storing them. -/
theorem renderAll (c : Cache) (lines : Lines String) : Accepted [] c (c.renderAll lines).2.1 := by
  induction lines generalizing c with
  | nil => exact refl c
  | cons p rest ih => exact (render c p.2).trans (ih _)

end Accepted

end Cache

/-! ## Rows -/

/-- A job of a worker ends with some result. -/
structure Completion where
  worker : Nat
  place : Nat
  result : WorkResult

def Completion.action (e : Completion) : Action := .endJob e.worker e.place e.result

namespace Highlighter

open Cache (Accepted Took)

variable {h : Highlighter} {s : Setting}

/-- The job at a place of a worker. -/
def jobAt? (h : Highlighter) (worker place : Nat) : Option Job :=
  h.workers[worker]?.bind fun w => w.jobs[place]?

/-- The batches that end in a row of completions. -/
def ended (h : Highlighter) : List Completion → List Batch
  | [] => []
  | e :: rest => ((h.jobAt? e.worker e.place).map Job.batch).toList ++ (h.act e.action).1.ended rest

/-- A highlighter after a row of completions. -/
def endAll (h : Highlighter) (row : List Completion) : Highlighter := h.after (row.map Completion.action)

/-- The records that batches offer as they end: after disposal none. -/
def offered (h : Highlighter) (t : Tokenizer) (batches : List Batch) : Lines LineRecord :=
  if h.disposed then [] else batches.flatMap (Batch.offers t)

theorem offered_append (h : Highlighter) (t : Tokenizer) (batches more : List Batch) :
    h.offered t (batches ++ more) = h.offered t batches ++ h.offered t more := by
  unfold offered
  by_cases hd : h.disposed = true
  · rw [if_pos hd, if_pos hd, if_pos hd, List.append_nil]
  · rw [if_neg hd, if_neg hd, if_neg hd, List.flatMap_append]

theorem disposed_finish (h : Highlighter) (job : Job) (data : Except String (Lines Json)) :
    (h.finish job data).1.disposed = h.disposed := by
  unfold Highlighter.finish
  cases data with
  | ok spans =>
    dsimp only
    cases readSpans spans with
    | error f => rfl
    | ok spans =>
      dsimp only
      split <;> rfl
  | error reason =>
    dsimp only
    split <;> rfl

/-- A call that goes on offers what its lines mean, whoever highlighted them. -/
theorem accepted_finish (hs : h.Sound s) (hc : h.cache.Fresh) {job : Job}
    (hjob : job.batch.lines.Ascending) (hle : job.batch.generation ≤ h.cache.generation)
    {data : Except String (Lines Json)}
    (hdata : ∀ spans, data = .ok spans → readSpans spans = .ok (s.tokenizer.answers job.batch.lines)) :
    Accepted (h.offered s.tokenizer [job.batch]) h.cache (h.finish job data).1.cache := by
  unfold Highlighter.finish offered
  rw [List.flatMap_singleton]
  cases data with
  | ok spans =>
    dsimp only
    rw [hdata spans rfl]
    by_cases hd : h.disposed = true
    · simp only [hd, if_true]
      exact Accepted.refl _
    · simp only [hd]
      exact Accepted.merge s.tokenizer hc hjob hle
  | error reason =>
    have hrender := Accepted.renderAll h.cache job.batch.lines
    have hfresh := (Took.renderAll job.batch h.cache job.batch.lines).fresh hle hc
    dsimp only
    rw [(hs.cache.renderAll job.batch.lines).1]
    by_cases hd : h.disposed = true
    · simp only [hd, if_true]
      exact hrender
    · simp only [hd]
      refine hrender.trans (Accepted.merge s.tokenizer hfresh hjob ?_)
      rw [hrender.generation]
      exact hle

/-- **A job that ends offers the records of its batch.** -/
theorem accepted_endJob (hs : h.Sound s) (hd : h.Dated) (e : Completion) :
    Accepted (h.offered s.tokenizer ((h.jobAt? e.worker e.place).map Job.batch).toList) h.cache
        (h.act e.action).1.cache ∧
      (h.act e.action).1.disposed = h.disposed := by
  obtain ⟨worker, place, result⟩ := e
  have hnothing : Accepted (h.offered s.tokenizer []) h.cache h.cache := by
    unfold offered
    rw [List.flatMap_nil, ite_self]
    exact Accepted.refl _
  show Accepted _ _ (h.endJob worker place result).1.cache ∧ (h.endJob worker place result).1.disposed = _
  unfold jobAt?
  cases hw : h.workers[worker]? with
  | none =>
    unfold Highlighter.endJob
    rw [hw]
    exact ⟨hnothing, rfl⟩
  | some w =>
    cases hj : w.jobs[place]? with
    | none =>
      unfold Highlighter.endJob
      rw [hw]
      dsimp only
      rw [hj, Option.bind_some, hj]
      exact ⟨hnothing, rfl⟩
    | some job =>
      rw [Option.bind_some, hj]
      have hmem : w ∈ h.workers := List.mem_of_getElem? hw
      have hjob : job.batch.lines.Ascending := (hs.workers w hmem).jobs job (List.mem_of_getElem? hj)
      have hle : job.batch.generation ≤ h.cache.generation := hd.jobs w hmem job (List.mem_of_getElem? hj)
      obtain ⟨w', data, hw', -, hdata, heq⟩ := hs.endJob_eq_finish hw hj result
      rw [heq]
      refine ⟨?_, disposed_finish _ job data⟩
      exact accepted_finish (hs.setWorker worker hw') hd.fresh hjob hle hdata

/-- **Batches that end one after the other offer all their records.** -/
theorem accepted_row (hs : h.Sound s) (hd : h.Dated) (row : List Completion) :
    Accepted (h.offered s.tokenizer (h.ended row)) h.cache (h.endAll row).cache := by
  induction row generalizing h with
  | nil =>
    show Accepted (h.offered s.tokenizer []) h.cache h.cache
    unfold offered
    rw [List.flatMap_nil, ite_self]
    exact Accepted.refl _
  | cons e rest ih =>
    obtain ⟨hfirst, hdisposed⟩ := accepted_endJob hs hd e
    have hrest := ih (hs.act e.action) (hd.act e.action)
    have hsame : (h.act e.action).1.offered s.tokenizer = h.offered s.tokenizer := by
      unfold offered
      rw [hdisposed]
    rw [hsame] at hrest
    show Accepted (h.offered s.tokenizer (_ ++ _)) _ _
    rw [offered_append]
    exact hfirst.trans hrest

/-- A record that was offered is that of a line of a batch. -/
theorem mem_offered {t : Tokenizer} {batches : List Batch} {i : Int} {r : LineRecord}
    (hr : (i, r) ∈ h.offered t batches) :
    ∃ b ∈ batches, ∃ text, (i, text) ∈ b.lines ∧ r = ⟨text, t.answer text, b.generation⟩ := by
  unfold offered at hr
  by_cases hd : h.disposed = true
  · rw [if_pos hd] at hr
    exact absurd hr List.not_mem_nil
  · rw [if_neg hd] at hr
    obtain ⟨b, hb, hmem⟩ := List.mem_flatMap.mp hr
    obtain ⟨⟨j, text⟩, hline, heq⟩ := List.mem_map.mp hmem
    obtain ⟨rfl, rfl⟩ := Prod.mk.inj heq
    exact ⟨b, hb, text, hline, rfl⟩

/-- The records that batches offer do not depend on their order. -/
theorem mem_offered_of_perm {t : Tokenizer} {batches batches' : List Batch} (hp : batches.Perm batches')
    (p : Int × LineRecord) : p ∈ h.offered t batches ↔ p ∈ h.offered t batches' := by
  unfold offered
  by_cases hd : h.disposed = true
  · rw [if_pos hd, if_pos hd]
  · rw [if_neg hd, if_neg hd]
    exact (hp.flatMap_right _).mem_iff

/-! ## The headline -/

/-- Batches of one generation have the same text for each line that they share. -/
def Agree (batches : List Batch) : Prop :=
  ∀ b ∈ batches, ∀ b' ∈ batches, b.generation = b'.generation →
    ∀ p ∈ b.lines, ∀ p' ∈ b'.lines, p.1 = p'.1 → p.2 = p'.2

/-- **The order in which batches end makes no difference, and newer records win.** After every course of
actions, batches in flight that agree lead to the same records, the same dirty indices and the same
generation in whichever order they end, and whether their workers succeed or fail. Whatever batches end,
each index then has the newest of the records offered for it and the one it had. A batch that ends alone,
after whatever else happened, leaves every newer record, and takes a mark off only if it is of the current
generation. -/
theorem merge_order_irrelevant (stock : Stock) (language : String) (config : HighlightConfig)
    (threshold : Numeral) (given : Option WorkerOrigin) (listener : Listener) (holds : Bool)
    (actions : List Action) :
    let tokenizer := (Tokenizer.new stock language config.theme).1
    let h := (new stock language config threshold given listener holds).1.after actions
    (∀ first second : List Completion,
      (h.ended first).Perm (h.ended second) → Agree (h.ended first) →
      (h.endAll first).cache.records = (h.endAll second).cache.records ∧
      (h.endAll first).cache.dirty = (h.endAll second).cache.dirty ∧
      (h.endAll first).cache.generation = (h.endAll second).cache.generation) ∧
    (∀ row : List Completion,
      Accepted (h.offered tokenizer (h.ended row)) h.cache (h.endAll row).cache) ∧
    ∀ worker place job, h.jobAt? worker place = some job → ∀ result,
      let c := (h.endJob worker place result).1.cache
      (∀ i r, h.cache.records.get? i = some r → job.batch.generation < r.generation →
        c.records.get? i = some r) ∧
      ∀ i ∈ h.cache.dirty, i ∉ c.dirty → job.batch.generation = h.cache.generation := by
  intro tokenizer h
  let s : Setting := ⟨stock, language, config.theme⟩
  have hs : h.Sound s :=
    (sound_new s config.worker config.batchThreshold threshold given listener holds).after actions
  have hd : h.Dated :=
    (dated_new stock language config threshold given listener holds).1.after actions
  refine ⟨?_, fun row => accepted_row hs hd row, ?_⟩
  · intro first second hp hagree
    have hsound : (h.endAll first).cache.Sound s := (hs.after (first.map Completion.action)).cache
    have hsound' : (h.endAll second).cache.Sound s := (hs.after (second.map Completion.action)).cache
    refine Accepted.ext (accepted_row hs hd first) (accepted_row hs hd second) (mem_offered_of_perm hp) ?_
      hsound.order hsound'.order hsound.dirty hsound'.dirty
    -- two offers for an index are of lines with the same text, and the text says the rest
    intro i r r' hr hr' hgen
    obtain ⟨b, hb, text, hline, rfl⟩ := mem_offered hr
    obtain ⟨b', hb', text', hline', rfl⟩ := mem_offered hr'
    have hgen' : b.generation = b'.generation := hgen
    have htext : text = text' := hagree b hb b' hb' hgen' (i, text) hline (i, text') hline' rfl
    rw [htext, hgen']
  · intro worker place job hjob result c
    have haccepted := (accepted_endJob hs hd ⟨worker, place, result⟩).1
    rw [hjob] at haccepted
    obtain ⟨w, hw, hj⟩ := Option.bind_eq_some_iff.mp hjob
    refine ⟨?_, fun i hi hi' => ((took_endJob hw hj result).cleared hi hi').1⟩
    intro i r hget hlt
    -- no record of the batch can have taken the place of one that is newer
    have hnewest := haccepted.newest i
    generalize hx : (h.act (Completion.action ⟨worker, place, result⟩)).1.cache.records.get? i = x at hnewest
    show (h.act (Completion.action ⟨worker, place, result⟩)).1.cache.records.get? i = some r
    cases hnewest with
    | kept _ => exact hx.trans hget
    | @taken q hoffered hcurrent _ =>
      obtain ⟨b, hb, text, -, rfl⟩ := mem_offered hoffered
      cases List.mem_singleton.mp hb
      have hle : r.generation ≤ job.batch.generation := Cache.hasNewer_eq_false.mp hcurrent r hget
      omega

/-- Three batches, two of one generation with a line in common and one of the next, end in two orders, and one
of their workers fails. The first of them leaves the mark of the line that was invalidated after it. -/
theorem overlapping_batches_in_two_orders :
    let actions : List Action :=
      [.preHighlight "ahead" 0 1 fun _ => .ok "1", .preHighlight "more" 1 2 fun _ => .ok "1",
        .invalidateLines [0], .preHighlight "again" 0 0 fun _ => .ok "true"]
    let h := (new LexerEntry.extended "json" ⟨"monokai", 1, .thread⟩ (.whole 1) none .absent true).1.after
      actions
    let first : List Completion := [⟨0, 0, .done⟩, ⟨0, 0, .done⟩, ⟨0, 0, .done⟩]
    let second : List Completion := [⟨0, 2, .done⟩, ⟨0, 1, .failed "stopped"⟩, ⟨0, 0, .done⟩]
    (h.ended first).Perm (h.ended second) ∧ Agree (h.ended first) ∧ h.ended first ≠ h.ended second ∧
      (h.endAll first).cache.records = (h.endAll second).cache.records ∧
      (h.endAll first).cache.dirty = (h.endAll second).cache.dirty ∧
      ((h.endAll first).cache.records.get? 0).map LineRecord.text = some "true" ∧
      (h.endAll first).cache.records.has 2 = true ∧
      (∃ job, h.jobAt? 0 0 = some job ∧ job.batch.generation ≠ h.cache.generation) ∧
      0 ∈ h.cache.dirty ∧ 0 ∈ (h.endJob 0 0 .done).1.cache.dirty := by
  intro actions h first second
  have hfirst : h.ended first =
      [⟨[(0, "1"), (1, "1")], 0⟩, ⟨[(1, "1"), (2, "1")], 0⟩, ⟨[(0, "true")], 1⟩] := by decide +kernel
  have hsecond : h.ended second =
      [⟨[(0, "true")], 1⟩, ⟨[(1, "1"), (2, "1")], 0⟩, ⟨[(0, "1"), (1, "1")], 0⟩] := by decide +kernel
  have hperm : (h.ended first).Perm (h.ended second) := by
    rw [hfirst, hsecond]
    decide
  have hagree : Agree (h.ended first) := by
    rw [hfirst]
    unfold Agree
    decide
  have hall := merge_order_irrelevant LexerEntry.extended "json" ⟨"monokai", 1, .thread⟩ (.whole 1) none
    .absent true actions
  -- `h` stays folded, or its whole run would be unfolded to compare it
  extract_lets tokenizer at hall
  obtain ⟨horder, -, hends⟩ := hall
  obtain ⟨hrecords, hdirty, -⟩ := horder first second hperm hagree
  have hjob : h.jobAt? 0 0 = some ⟨"ahead", ⟨[(0, "1"), (1, "1")], 0⟩⟩ := by decide +kernel
  have hgen : h.cache.generation = 1 := by decide +kernel
  have hmark : 0 ∈ h.cache.dirty := by decide +kernel
  have hnewest : ((h.endAll first).cache.records.get? 0).map LineRecord.text = some "true" ∧
      (h.endAll first).cache.records.has 2 = true := by
    decide +kernel
  refine ⟨hperm, hagree, ?_, hrecords, hdirty, hnewest.1, hnewest.2, ⟨_, hjob, ?_⟩, hmark, ?_⟩
  · rw [hfirst, hsecond]
    decide
  · rw [hgen]
    decide
  · by_cases hkept : 0 ∈ (h.endJob 0 0 .done).1.cache.dirty
    · exact hkept
    · have hcurrent := (hends 0 0 _ hjob .done).2 0 hmark hkept
      rw [hgen] at hcurrent
      cases hcurrent

end Highlighter

end EditorServices.Highlight
