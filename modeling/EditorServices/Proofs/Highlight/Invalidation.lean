import EditorServices.Proofs.Highlight.Courses

/-!
# `Proofs.Highlight.Invalidation` — no invalidation is lost

An index that was invalidated has to be highlighted again, and its mark is what remembers that. The mark
must outlive every batch that was gathered before the invalidation, however late such a batch is merged.
What tells an old batch from a new one is its generation, and only a record of the current generation
takes a mark off.

## Contents
- **Marks.** `Changes.unmarked_by`, the ways in which one action takes a mark off, and
  `marked_or_unmarked`.
- **Settling.** `Settles`, what an invalidated index waits for; `settles_of_unmarked` finds where a batch
  that took a mark off was gathered.
- **The headline.** `no_lost_invalidation`.
-/

namespace EditorServices.Highlight

namespace Highlighter

variable {h : Highlighter} {x : Action} {c : Cache} {i : Int}

/-! ## Marks -/

/-- An invalidation marks its indices. -/
theorem Changes.mem_dirty (hc : Changes h x c) (hx : x.Invalidates i) : i ∈ c.dirty := by
  have hinv := hx.isInvalidation
  cases hc with
  | invalidated _ _ _ dirty => exact dirty i (Or.inr hx)
  | stored stores _ =>
    rw [stores.not_isInvalidation] at hinv
    cases hinv
  | idle other =>
    rw [other] at hinv
    cases hinv
  | looked _ => cases hinv
  | disposed => cases hinv

/-- An index is unmarked by looking it up, beyond the end, or by a batch of the current generation. -/
theorem Changes.unmarked_by (hc : Changes h x c) (hx : x ≠ .dispose) (hi : i ∈ h.cache.dirty)
    (hi' : i ∉ c.dirty) :
    (∃ text, x = .look i text) ∨
    (∃ name lineCount textAt, x = .rehighlight name lineCount textAt ∧ lineCount ≤ i) ∨
    ∃ b, Stores h x b ∧ b.generation = h.cache.generation ∧ c.Holds b i := by
  -- marks that go before a batch is stored are those beyond the end
  have hreadied : i ∉ (x.readied h).dirty →
      ∃ name lineCount textAt, x = .rehighlight name lineCount textAt ∧ lineCount ≤ i := by
    intro hgone
    cases x with
    | rehighlight name lineCount textAt =>
      refine ⟨name, lineCount, textAt, rfl, Int.not_lt.mp fun hlt => hgone ?_⟩
      exact List.mem_filter.mpr ⟨hi, decide_eq_true hlt⟩
    | _ => exact absurd hi hgone
  cases hc with
  | @looked j text _ took =>
    obtain ⟨-, text', span, hline, -⟩ := took.cleared hi hi'
    have hj := congrArg Prod.fst (List.mem_singleton.mp hline)
    dsimp only at hj
    subst hj
    exact Or.inl ⟨text, rfl⟩
  | invalidated _ _ _ dirty => exact absurd (dirty i (Or.inl hi)) hi'
  | @stored _ b _ stores took =>
    by_cases hmarked : i ∈ (x.readied h).dirty
    · obtain ⟨hgen, hholds⟩ := took.cleared hmarked hi'
      rw [generation_readied] at hgen
      exact Or.inr (Or.inr ⟨b, stores, hgen, hholds⟩)
    · exact Or.inr (Or.inl (hreadied hmarked))
  | idle _ => exact Or.inr (Or.inl (hreadied hi'))
  | disposed => exact absurd rfl hx

/-- A mark is there at the end of a course, or there is an action that takes it off. -/
theorem marked_or_unmarked (hi : i ∈ h.cache.dirty) (actions : List Action) :
    i ∈ (h.after actions).cache.dirty ∨
    ∃ m x m', actions = m ++ x :: m' ∧
      i ∈ (h.after m).cache.dirty ∧ i ∉ ((h.after m).act x).1.cache.dirty := by
  induction actions generalizing h with
  | nil => exact Or.inl hi
  | cons a rest ih =>
    by_cases ha : i ∈ (h.act a).1.cache.dirty
    · rcases ih ha with hend | ⟨m, x, m', rfl, hm, hx⟩
      · exact Or.inl hend
      · exact Or.inr ⟨a :: m, x, m', rfl, hm, hx⟩
    · exact Or.inr ⟨[], a, rest, rfl, hi, ha⟩

/-! ## Settling -/

/-- What takes the mark off an index that was invalidated: with `h` after the invalidation and actions `m`
after it, the action `x` looks the line up, finds that the document ends before it, or stores a record for
it from a batch that was gathered since, with no invalidation since then. -/
inductive Settles (h : Highlighter) (i : Int) (m : List Action) : Action → Prop
  | looked (text : String) : Settles h i m (.look i text)
  | dropped (name : String) {lineCount : Int} (textAt : Int → Except Failure String)
      (beyond : lineCount ≤ i) : Settles h i m (.rehighlight name lineCount textAt)
  | stored {x y : Action} {before : List Action} (since : List Action) {b : Batch} {text : String}
      {span : Option Span} (split : m ++ [x] = before ++ y :: since)
      (gathered : y.gathered? (h.after before) = some b)
      (undisturbed : ∀ a ∈ since, a.isInvalidation = false) (stores : Stores (h.after m) x b)
      (line : (i, text) ∈ b.lines)
      (record : (h.after (m ++ [x])).cache.records.get? i = some ⟨text, span, b.generation⟩) :
      Settles h i m x

/-- What comes after the last invalidation comes after each of them. -/
theorem split_since {before m b₁ b₂ : List Action} {a : Action} (ha : a.isInvalidation = true)
    (heq : before ++ a :: m = b₁ ++ b₂) (hsince : ∀ a' ∈ b₂, a'.isInvalidation = false) :
    ∃ c₁, b₁ = (before ++ [a]) ++ c₁ ∧ m = c₁ ++ b₂ := by
  have hnot : a ∉ b₂ := by
    intro hmem
    rw [hsince a hmem] at ha
    cases ha
  rcases List.append_eq_append_iff.mp heq with ⟨c, rfl, hc⟩ | ⟨c, -, hc⟩
  · cases c with
    | nil =>
      rw [List.nil_append] at hc
      exact absurd (hc ▸ List.mem_cons_self) hnot
    | cons a' c₁ =>
      rw [List.cons_append] at hc
      obtain ⟨rfl, rfl⟩ := List.cons.inj hc
      refine ⟨c₁, ?_, rfl⟩
      rw [List.append_assoc, List.singleton_append]
  · refine absurd ?_ hnot
    rw [hc]
    exact List.mem_append_right _ List.mem_cons_self

variable {start : Highlighter}

/-- A batch of the current generation was gathered after every invalidation. -/
theorem gathered_since {before m : List Action} {a : Action} (ha : a.isInvalidation = true) {b : Batch}
    (hb : Gathered start (before ++ a :: m) b)
    (hcurrent : b.generation = (start.after (before ++ a :: m)).cache.generation) :
    ∃ c₁ y c₂, m = c₁ ++ y :: c₂ ∧ y.gathered? ((start.after (before ++ [a])).after c₁) = some b ∧
      ∀ a' ∈ c₂, a'.isInvalidation = false := by
  obtain ⟨b₁, y, c₂, heq, hy⟩ := hb
  have hnone : ∀ a' ∈ c₂, a'.isInvalidation = false := by
    have hcount := generation_since hy c₂
    rw [← heq, ← hcurrent] at hcount
    have hzero : c₂.countP Action.isInvalidation = 0 := by omega
    intro a' ha'
    exact Bool.eq_false_iff.mpr (List.countP_eq_zero.mp hzero a' ha')
  have hsince : ∀ a' ∈ y :: c₂, a'.isInvalidation = false := by
    intro a' ha'
    rcases List.mem_cons.mp ha' with rfl | ha'
    · exact Action.not_isInvalidation_of_gathered hy
    · exact hnone a' ha'
  obtain ⟨c₁, rfl, hm⟩ := split_since ha heq hsince
  refine ⟨c₁, y, c₂, hm, ?_, hnone⟩
  rw [← after_append]
  exact hy

/-- **An action that takes the mark off an invalidated index settles it**: a batch that does so was
gathered after the invalidation. -/
theorem settles_of_unmarked (hstart : start.Holding fun _ => False) {before m : List Action} {a : Action}
    (ha : a.Invalidates i) (hx : x ≠ .dispose) (hi : i ∈ (start.after (before ++ a :: m)).cache.dirty)
    (hi' : i ∉ ((start.after (before ++ a :: m)).act x).1.cache.dirty) :
    Settles (start.after (before ++ [a])) i m x := by
  have hafter : (start.after (before ++ [a])).after m = start.after (before ++ a :: m) := by
    rw [← after_append, List.append_assoc, List.singleton_append]
  rcases (changes_act _ x).unmarked_by hx hi hi' with
    ⟨text, rfl⟩ | ⟨name, lineCount, textAt, rfl, hbeyond⟩ | ⟨b, hstores, hcurrent, text, span, hline, hget⟩
  · exact .looked text
  · exact .dropped name textAt hbeyond
  · have hrecord : ((start.after (before ++ [a])).after (m ++ [x])).cache.records.get? i =
        some ⟨text, span, b.generation⟩ := by
      rw [after_append, hafter]
      exact hget
    have hstores' : Stores ((start.after (before ++ [a])).after m) x b := by
      rw [hafter]
      exact hstores
    cases hstores with
    | gathered hb =>
      -- the batch is stored by the action that gathered it
      rw [← hafter] at hb
      exact .stored [] rfl hb (fun a' ha' => absurd ha' List.not_mem_nil) hstores' hline hrecord
    | @ended worker place w job result hw hj =>
      have hgathered : Gathered start (before ++ a :: m) job.batch := by
        have hall := hstart.after (before ++ a :: m)
        exact (hall w (List.mem_of_getElem? hw) job (List.mem_of_getElem? hj)).resolve_left id
      obtain ⟨c₁, y, c₂, rfl, hy, hnone⟩ := gathered_since ha.isInvalidation hgathered hcurrent
      refine .stored (c₂ ++ [.endJob worker place result]) ?_ hy ?_ hstores' hline hrecord
      · rw [List.append_assoc, List.cons_append]
      · intro a' ha'
        rcases List.mem_append.mp ha' with ha' | ha'
        · exact hnone a' ha'
        · rw [List.mem_singleton.mp ha']
          rfl

/-! ## The headline -/

theorem dated_new (stock : Stock) (language : String) (config : HighlightConfig) (threshold : Numeral)
    (given : Option WorkerOrigin) (listener : Listener) (holds : Bool) :
    (new stock language config threshold given listener holds).1.Dated ∧
      (new stock language config threshold given listener holds).1.Holding fun _ => False := by
  have hjobs : ∀ P, (new stock language config threshold given listener holds).1.Holding P := by
    intro P w hw job hjob
    obtain ⟨origin, -, rfl⟩ := List.mem_map.mp hw
    exact absurd hjob List.not_mem_nil
  exact ⟨⟨Cache.fresh_of_lt fun p hp => absurd hp List.not_mem_nil, hjobs _⟩, hjobs _⟩

/-- **No invalidation is lost.** After every course of actions before disposal no record is ahead of the
generation of the cache, and no dirty index has a record of that generation. An index that was invalidated
on the way is still dirty, and no record is served for it, unless an action since then settled it. Every
batch in flight was gathered on the way, and if an invalidation came after that, the end of the batch takes
no mark off, whether its worker succeeds or fails. -/
theorem no_lost_invalidation (stock : Stock) (language : String) (config : HighlightConfig)
    (threshold : Numeral) (given : Option WorkerOrigin) (listener : Listener) (holds : Bool)
    (actions : List Action) (undisposed : Action.dispose ∉ actions) :
    let start := (new stock language config threshold given listener holds).1
    let h := start.after actions
    (∀ p ∈ h.cache.records, p.2.generation ≤ h.cache.generation) ∧
    (∀ p ∈ h.cache.records, p.1 ∈ h.cache.dirty → p.2.generation ≠ h.cache.generation) ∧
    (∀ before a more i, actions = before ++ a :: more → a.Invalidates i →
      (i ∈ h.cache.dirty ∧ ∀ text, h.cache.served? i text = none) ∨
      ∃ m x m', more = m ++ x :: m' ∧ Settles (start.after (before ++ [a])) i m x) ∧
    ∀ worker place w job, h.workers[worker]? = some w → w.jobs[place]? = some job →
      ∃ before y more, actions = before ++ y :: more ∧
        y.gathered? (start.after before) = some job.batch ∧
        ((∃ a ∈ more, a.isInvalidation = true) →
          ∀ result, (h.endJob worker place result).1.cache.dirty = h.cache.dirty) := by
  intro start h
  obtain ⟨hdated, hstart⟩ : start.Dated ∧ start.Holding fun _ => False :=
    dated_new stock language config threshold given listener holds
  have hfresh : h.cache.Fresh := (hdated.after actions).fresh
  refine ⟨hfresh.bounded, hfresh.marked, ?_, ?_⟩
  · intro before a more i heq ha
    have hmarked : i ∈ (start.after (before ++ [a])).cache.dirty := by
      rw [after_append]
      exact (changes_act _ a).mem_dirty ha
    rcases marked_or_unmarked hmarked more with hi | ⟨m, x, m', rfl, hm, hx⟩
    · left
      rw [← after_append, List.append_assoc, List.singleton_append, ← heq] at hi
      exact ⟨hi, hfresh.served?_eq_none hi⟩
    · right
      rw [← after_append, List.append_assoc, List.singleton_append] at hm hx
      have hne : x ≠ .dispose := by
        rintro rfl
        refine undisposed ?_
        rw [heq]
        exact List.mem_append_right _ (List.mem_cons_of_mem _ (List.mem_append_right _ List.mem_cons_self))
      exact ⟨m, x, m', rfl, settles_of_unmarked hstart ha hne hm hx⟩
  · intro worker place w job hw hj
    have hall := hstart.after actions
    obtain ⟨before, y, more, heq, hy⟩ :=
      (hall w (List.mem_of_getElem? hw) job (List.mem_of_getElem? hj)).resolve_left id
    refine ⟨before, y, more, heq, hy, ?_⟩
    rintro ⟨a, ha, hinv⟩ result
    refine (took_endJob hw hj result).stale ?_
    have hgen := generation_since hy more
    rw [← heq] at hgen
    have hpos : 0 < more.countP Action.isInvalidation := List.countP_pos_iff.mpr ⟨a, ha, hinv⟩
    show job.batch.generation ≠ (start.after actions).cache.generation
    omega

/-- A batch that was overtaken by an invalidation is stored when it ends, and the line stays dirty. -/
theorem overtaken_batch_leaves_mark :
    let actions : List Action :=
      [.preHighlight "ahead" 0 0 fun _ => .ok "1", .invalidateLines [0], .endJob 0 0 .done]
    let h := (new LexerEntry.extended "json" ⟨"monokai", 1, .thread⟩ (.whole 1) none .absent true).1.after
      actions
    Action.dispose ∉ actions ∧ (h.cache.records.get? 0).map LineRecord.generation = some 0 ∧
      0 ∈ h.cache.dirty ∧ h.cache.served? 0 "1" = none := by
  intro actions h
  have undisposed : Action.dispose ∉ actions := by simp [actions]
  obtain ⟨-, -, hmarks, -⟩ := no_lost_invalidation LexerEntry.extended "json" ⟨"monokai", 1, .thread⟩
    (.whole 1) none .absent true actions undisposed
  have hsettled := hmarks [.preHighlight "ahead" 0 0 fun _ => .ok "1"] (.invalidateLines [0])
    [.endJob 0 0 .done] 0 rfl List.mem_cons_self
  refine ⟨undisposed, by decide +kernel, ?_⟩
  rcases hsettled with ⟨hdirty, hserved⟩ | ⟨m, x, m', hsplit, hsettles⟩
  · exact ⟨hdirty, hserved "1"⟩
  · -- the only action since the invalidation is the end of the old batch, and that gathers nothing
    rcases List.append_eq_singleton_iff.mp hsplit.symm with ⟨rfl, hx⟩ | ⟨-, hx⟩
    · obtain ⟨rfl, -⟩ := List.cons.inj hx
      cases hsettles with
      | stored _ split gathered _ _ _ _ =>
        rcases List.append_eq_singleton_iff.mp split.symm with ⟨rfl, hy⟩ | ⟨-, hy⟩
        · obtain ⟨rfl, -⟩ := List.cons.inj hy
          cases gathered
        · cases hy
    · cases hx

end Highlighter

end EditorServices.Highlight
