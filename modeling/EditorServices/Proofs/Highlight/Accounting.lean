import EditorServices.Proofs.Highlight.Notices

/-!
# `Proofs.Highlight.Accounting` — the listener is told once of every call that highlighted lines

What the listener does may differ from one time to the next, so that a course lists it with each action. The
accounts of the single actions add up: on the whole course too notices are in their places, and no call is
lost. After disposal a call that was in flight ends without a word, whether its batch is dropped, is done or
fails, and however long that takes; and the cache stays as disposal left it.

## Contents
- **Courses.** `Moment`, an action with what the listener does then; `live` and `accounts_live`.
- **Disposal.** `Silent`, `endJob_of_disposed`, and `silent_live`, what is left of calls in flight.
- **The headline.** `one_notice_for_each_call`.
-/

namespace EditorServices.Highlight

/-! ## Courses -/

/-- What happens at some time, and what the listener does if it is told then. -/
structure Moment where
  listener : Listener
  action : Action

namespace Highlighter

open Cache (Accepted)

/-- A highlighter whose listener does something else from now on. -/
def withListener (h : Highlighter) (l : Listener) : Highlighter := { h with listener := l }

/-- A highlighter after some moments, and what they yielded. -/
def live (h : Highlighter) : List Moment → Highlighter × List Event
  | [] => (h, [])
  | m :: rest =>
    let (h, events) := (h.withListener m.listener).act m.action
    let (h, more) := h.live rest
    (h, events ++ more)

theorem live_cons (h : Highlighter) (m : Moment) (rest : List Moment) :
    h.live (m :: rest) =
      ((((h.withListener m.listener).act m.action).1.live rest).1,
        ((h.withListener m.listener).act m.action).2 ++
          (((h.withListener m.listener).act m.action).1.live rest).2) := rfl

variable {h : Highlighter} {s : Setting} {a : Action} {moments : List Moment}

/-- What a highlighter keeps in every course. -/
structure Fit (s : Setting) (h : Highlighter) : Prop where
  sound : h.Sound s
  dated : h.Dated
  staffed : h.Staffed

theorem fit_new (s : Setting) (kind : WorkerKind) (bound : Nat) (threshold : Numeral)
    (given : Option WorkerOrigin) (listener : Listener) (holds : Bool) :
    (new s.stock s.language ⟨s.theme, bound, kind⟩ threshold given listener holds).1.Fit s :=
  ⟨sound_new s kind bound threshold given listener holds,
    (dated_new s.stock s.language ⟨s.theme, bound, kind⟩ threshold given listener holds).1,
    (serving_new s.stock s.language ⟨s.theme, bound, kind⟩ threshold given listener holds).staffed⟩

theorem Fit.withListener (hf : h.Fit s) (l : Listener) : (h.withListener l).Fit s :=
  ⟨{ hf.sound with }, ⟨hf.dated.fresh, hf.dated.jobs⟩, hf.staffed⟩

/-- An action keeps the accounts, and what the next one needs for that. -/
theorem Fit.act (hf : h.Fit s) (hl : h.listener ≠ .absent) (a : Action) :
    (h.act a).1.Fit s ∧
      Accounts s.tokenizer (h.withCache (a.readied h)) a.calls (Finishes h a) (h.act a) := by
  have haccounts := accounts_act hf.sound hf.dated hf.staffed hl a
  exact ⟨⟨hf.sound.act a, hf.dated.act a, haccounts.staffed⟩, haccounts⟩

/-- **The accounts of a course**: the induction is on its moments, and each starts from what the ones before
it left in flight. -/
theorem accounts_live (hf : h.Fit s) (heard : ∀ m ∈ moments, m.listener ≠ .absent) :
    (h.live moments).1.Fit s ∧ Paired (h.live moments).2 ∧
      ((endings (h.live moments).2).map Ending.name ++ (h.live moments).1.waiting).Perm
        ((moments.flatMap fun m => m.action.calls) ++ h.waiting) ∧
      (h.disposed = true → (h.live moments).1.disposed = true) := by
  induction moments generalizing h with
  | nil => exact ⟨hf, quiet_nil.paired, .refl _, id⟩
  | cons m rest ih =>
    have hl : (h.withListener m.listener).listener ≠ .absent := heard m List.mem_cons_self
    obtain ⟨hfit, hfirst⟩ := (hf.withListener m.listener).act hl m.action
    obtain ⟨hend, hpaired, hbalanced, hdisposed⟩ := ih hfit fun m' hm' => heard m' (List.mem_cons_of_mem _ hm')
    rw [live_cons]
    refine ⟨hend, hfirst.paired.append hpaired, ?_, fun hd => hdisposed (hfirst.disposed hd)⟩
    -- what the rest leaves in flight comes from what the first moment left
    rw [endings_append, List.map_append, List.append_assoc, List.flatMap_cons, List.append_assoc]
    refine (hbalanced.append_left _).trans ?_
    refine (List.perm_append_comm_assoc _ _ _).trans ((hfirst.balanced.append_left _).trans ?_)
    exact List.perm_append_comm_assoc _ _ _

/-! ## Disposal -/

/-- The listener is not told, and the calls that are over have nothing to tell. -/
def Silent (events : List Event) : Prop :=
  (∀ seen, .notified seen ∉ events) ∧ ∀ e ∈ endings events, e.Idle

theorem Silent.append {events more : List Event} (hs : Silent events) (hs' : Silent more) :
    Silent (events ++ more) := by
  refine ⟨fun seen hmem => ?_, fun e he => ?_⟩
  · rcases List.mem_append.mp hmem with hmem | hmem
    · exact hs.1 seen hmem
    · exact hs'.1 seen hmem
  · rw [endings_append] at he
    rcases List.mem_append.mp he with he | he
    · exact hs.2 e he
    · exact hs'.2 e he

theorem silent_of_quiet {events : List Event} (hq : Quiet events) : Silent events := by
  refine ⟨hq.not_notified, fun e he => ?_⟩
  rw [hq.endings] at he
  exact absurd he List.not_mem_nil

theorem silent_over {name : String} {result : Except Failure (Option Route)}
    (hidle : Ending.Idle ⟨name, result⟩) : Silent [.completed name result] := by
  refine ⟨fun seen hmem => ?_, fun e he => ?_⟩
  · cases List.mem_singleton.mp hmem
  · rw [List.mem_singleton.mp he]
    exact hidle

theorem silent_dropped (jobs : List Job) : Silent (dropped jobs) := by
  refine ⟨not_notified_dropped jobs, fun e he => ?_⟩
  rw [endings_dropped] at he
  obtain ⟨job, -, rfl⟩ := List.mem_map.mp he
  exact Ending.idle_error _ _

/-- **A job that ends after disposal ends without a word**, and leaves the cache as it is. -/
theorem endJob_of_disposed (hd : h.disposed = true) (worker place : Nat) (result : WorkResult) :
    Silent (h.endJob worker place result).2 ∧ (h.endJob worker place result).1.cache.Like h.cache ∧
      (h.endJob worker place result).1.disposed = true := by
  cases hw : h.workers[worker]? with
  | none =>
    unfold Highlighter.endJob
    rw [hw]
    exact ⟨silent_of_quiet quiet_nil, .refl _, hd⟩
  | some w =>
    cases hj : w.jobs[place]? with
    | none =>
      unfold Highlighter.endJob
      rw [hw]
      dsimp only
      rw [hj]
      exact ⟨silent_of_quiet quiet_nil, .refl _, hd⟩
    | some job =>
      obtain ⟨w', data, -, heq⟩ := endJob_eq_finish hw hj result
      rw [heq]
      obtain ⟨first, hquiet, ⟨result', hidle, hevents, hlike⟩ | ⟨hserving, -⟩⟩ :=
        finish_cases { h with workers := h.workers.set worker w' } job data
      · refine ⟨?_, hlike, (disposed_finish _ job data).trans hd⟩
        rw [hevents]
        exact (silent_of_quiet hquiet).append (silent_over hidle)
      · have hserving' : h.disposed = false := hserving
        rw [hd] at hserving'
        cases hserving'

end Highlighter

/-- The actions that do not use the cache: what workers do, and giving up on calls or on all. -/
def Action.isAside : Action → Bool
  | .endJob _ _ _ | .cancel _ _ | .breakDown _ _ | .elsewhere _ _ _ _ | .dispose => true
  | _ => false

namespace Highlighter

open Cache (Accepted)

variable {h : Highlighter} {s : Setting} {a : Action} {moments : List Moment}

/-- A highlighter that was disposed of, and not used since. -/
structure Spent (h : Highlighter) : Prop where
  disposed : h.disposed = true
  records : h.cache.records = []
  dirty : h.cache.dirty = []

theorem Spent.withListener (hs : h.Spent) (l : Listener) : (h.withListener l).Spent := { hs with }

theorem dispose_spent (h : Highlighter) : Silent h.dispose.2 ∧ h.dispose.1.Spent := by
  have hcache := cache_dispose h
  have hdisposed : h.dispose.1.disposed = true := by
    unfold Highlighter.dispose
    split
    · exact disposed_setJobs _ _
    · rfl
  refine ⟨?_, hdisposed, ?_, ?_⟩
  · unfold Highlighter.dispose
    split
    · exact (silent_of_quiet (quiet_singleton rfl)).append (silent_dropped _)
    · exact silent_of_quiet quiet_nil
  · rw [hcache]
    rfl
  · rw [hcache]
    rfl

/-- Whatever happens aside to a spent highlighter, nothing is heard of it and it stays spent. -/
theorem Spent.act (hs : h.Spent) (ha : a.isAside = true) : Silent (h.act a).2 ∧ (h.act a).1.Spent := by
  have hchange : ∀ worker f, (h.changeWorker worker f).Spent := by
    intro worker f
    unfold Highlighter.changeWorker
    cases h.workers[worker]? with
    | none => exact hs
    | some w => exact { hs with }
  cases a with
  | endJob worker place result =>
    obtain ⟨hsilent, hlike, hdisposed⟩ := endJob_of_disposed hs.disposed worker place result
    exact ⟨hsilent, hdisposed, hlike.records.trans hs.records, hlike.dirty.trans hs.dirty⟩
  | cancel worker place =>
    show Silent (h.cancel worker place).2 ∧ (h.cancel worker place).1.Spent
    unfold Highlighter.cancel
    cases h.workers[worker]? with
    | none => exact ⟨silent_of_quiet quiet_nil, hs⟩
    | some w =>
      dsimp only
      cases w.jobs[place]? with
      | none => exact ⟨silent_of_quiet quiet_nil, hs⟩
      | some job => exact ⟨silent_dropped [job], { hs with }⟩
  | breakDown worker reason => exact ⟨silent_of_quiet quiet_nil, hchange worker _⟩
  | elsewhere worker language theme lines => exact ⟨silent_of_quiet quiet_nil, hchange worker _⟩
  | dispose => exact dispose_spent h
  | _ => cases ha

/-- **A spent highlighter is never heard of again**, and its cache stays empty. -/
theorem Spent.live (hs : h.Spent) (haside : ∀ m ∈ moments, m.action.isAside = true) :
    Silent (h.live moments).2 ∧ (h.live moments).1.Spent := by
  induction moments generalizing h with
  | nil => exact ⟨silent_of_quiet quiet_nil, hs⟩
  | cons m rest ih =>
    obtain ⟨hfirst, hspent⟩ := (hs.withListener m.listener).act (haside m List.mem_cons_self)
    obtain ⟨hrest, hend⟩ := ih hspent fun m' hm' => haside m' (List.mem_cons_of_mem _ hm')
    exact ⟨hfirst.append hrest, hend⟩

/-! ## The headline -/

/-- **The listener is told once of every call that highlighted lines.** In every course of moments in which
there is a listener, whatever it does, the calls that were started are those that are over and those that are
in flight. What is heard is what the calls that are over have to tell: of a call that highlighted lines the
listener hears just before it is over, and of a call that failed or found nothing to do it never hears. When
it hears of a call, the cache has been offered every record of the call's batch. Once the highlighter is
disposed of, the listener hears nothing more and the cache stays empty, whenever and however the batches in
flight end, and even if the highlighter is used again these batches end without a word and leave the cache
as it is. -/
theorem one_notice_for_each_call (stock : Stock) (language : String) (config : HighlightConfig)
    (threshold : Numeral) (given : Option WorkerOrigin) (listener : Listener) (holds : Bool)
    (moments : List Moment) (heard : ∀ m ∈ moments, m.listener ≠ .absent) :
    let tokenizer := (Tokenizer.new stock language config.theme).1
    let start := (new stock language config threshold given listener holds).1
    let h := (start.live moments).1
    let events := (start.live moments).2
    tellings events = (endings events).flatMap Ending.tellings ∧
    ((endings events).map Ending.name ++ h.waiting).Perm (moments.flatMap fun m => m.action.calls) ∧
    (∀ earlier m later, moments = earlier ++ m :: later →
      let g := (start.live earlier).1.withListener m.listener
      ∀ seen, .notified seen ∈ (g.act m.action).2 →
        seen = (g.act m.action).1.cache ∧ ∃ job, Finishes g m.action job ∧
          (∃ route, endings (g.act m.action).2 = [⟨job.name, .ok (some route)⟩]) ∧
          Accepted (job.batch.offers tokenizer) (m.action.readied g) seen) ∧
    ∀ rest : List Moment,
      ((∀ m ∈ rest, m.action.isAside = true) →
        Silent (h.dispose.2 ++ (h.dispose.1.live rest).2) ∧
        (h.dispose.1.live rest).1.cache.records = [] ∧ (h.dispose.1.live rest).1.cache.dirty = []) ∧
      ((∀ m ∈ rest, m.listener ≠ .absent) → ∀ worker place result,
        let g := (h.dispose.1.live rest).1
        Silent (g.endJob worker place result).2 ∧
        (g.endJob worker place result).1.cache.records = g.cache.records ∧
        (g.endJob worker place result).1.cache.dirty = g.cache.dirty) := by
  intro tokenizer start h events
  let s : Setting := ⟨stock, language, config.theme⟩
  have hstart : start.Fit s := fit_new s config.worker config.batchThreshold threshold given listener holds
  have hnone : start.waiting = [] := by
    refine List.flatMap_eq_nil_iff.mpr fun w hw => ?_
    obtain ⟨origin, -, rfl⟩ := List.mem_map.mp hw
    rfl
  obtain ⟨hfit, hpaired, hbalanced, -⟩ := accounts_live hstart heard
  rw [hnone, List.append_nil] at hbalanced
  obtain ⟨hsilent, hspent⟩ := h.dispose_spent
  refine ⟨hpaired, hbalanced, ?_, fun rest => ⟨fun haside => ?_, fun hheard worker place result => ?_⟩⟩
  · intro earlier m later heq g seen hmem
    have hearlier : ∀ m' ∈ earlier, m'.listener ≠ .absent := fun m' hm' =>
      heard m' (heq ▸ List.mem_append_left _ hm')
    have hm : g.listener ≠ .absent := heard m (heq ▸ List.mem_append_right _ List.mem_cons_self)
    have hg : g.Fit s := (accounts_live hstart hearlier).1.withListener m.listener
    exact (hg.act hm m.action).2.told seen hmem
  · obtain ⟨hrest, hend⟩ := hspent.live haside
    exact ⟨hsilent.append hrest, hend.records, hend.dirty⟩
  · have hdropped : Accounts tokenizer h [] (fun _ => True) h.dispose := accounts_dispose h
    have hdisposed : h.dispose.1.Fit s := ⟨hfit.sound.dispose, hfit.dated.act .dispose, hdropped.staffed⟩
    obtain ⟨-, -, -, hstays⟩ := accounts_live hdisposed hheard
    obtain ⟨hover, hlike, -⟩ := endJob_of_disposed (hstays hspent.disposed) worker place result
    exact ⟨hover, hlike.records, hlike.dirty⟩

/-- A worker fails and the listener fails, a second call finds nothing to do, and a third is in flight when
the highlighter is disposed of. The listener heard of the first call only. -/
theorem failed_batch_noticed_once :
    let moments : List Moment := [
      ⟨.present, .preHighlight "ahead" 0 1 fun _ => .ok "1"⟩,
      ⟨.failing "broken", .endJob 0 0 (.failed "stopped")⟩,
      ⟨.present, .rehighlight "again" 2 fun _ => .ok "1"⟩,
      ⟨.present, .preHighlight "more" 2 3 fun _ => .ok "true"⟩]
    let start := (new LexerEntry.extended "json" ⟨"monokai", 1, .thread⟩ (.whole 1) none .present true).1
    let h := (start.live moments).1
    (∀ m ∈ moments, m.listener ≠ .absent) ∧ h.waiting = ["more"] ∧
      tellings (start.live moments).2 =
        [.notice, .over "ahead" (.ok (some .worker)), .over "again" (.ok none)] ∧
      Silent (h.dispose.2 ++ (h.dispose.1.live [⟨.present, .endJob 0 0 .done⟩]).2) ∧
      (h.dispose.1.live [⟨.present, .endJob 0 0 .done⟩]).1.cache.records = [] := by
  intro moments start h
  have heard : ∀ m ∈ moments, m.listener ≠ .absent := by
    intro m hm
    simp only [moments, List.mem_cons, List.not_mem_nil, or_false] at hm
    rcases hm with rfl | rfl | rfl | rfl <;> exact Listener.noConfusion
  have hall := one_notice_for_each_call LexerEntry.extended "json" ⟨"monokai", 1, .thread⟩ (.whole 1) none
    .present true moments heard
  -- the course stays folded, or it would be run to compare it
  extract_lets at hall
  obtain ⟨htold, -, -, hdisposed⟩ := hall
  have hendings : endings (start.live moments).2 = [⟨"ahead", .ok (some .worker)⟩, ⟨"again", .ok none⟩] := by
    decide +kernel
  obtain ⟨hsilent, hrecords, -⟩ := (hdisposed [⟨.present, .endJob 0 0 .done⟩]).1 fun m hm => by
    rw [List.mem_singleton.mp hm]
    rfl
  refine ⟨heard, by decide +kernel, ?_, hsilent, hrecords⟩
  rw [htold, hendings]
  rfl

end Highlighter

end EditorServices.Highlight
