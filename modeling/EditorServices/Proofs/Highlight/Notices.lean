import Mathlib.Data.List.Perm.Basic
import EditorServices.Proofs.Highlight.Ahead
import EditorServices.Proofs.Highlight.MergeOrder

/-!
# `Proofs.Highlight.Notices` — what one action tells of calls

A call that hands its batch to a worker is over much later, when other calls have come and gone, when the
worker has failed, or when the highlighter was disposed of. Nothing but the job remembers it meanwhile. Two
accounts are kept: what is heard is what the calls that are over have to tell, one after the other, and the
calls that were started are those that are over and those whose jobs are still there. The first says that no
notice is missing, too many, or out of place, the second that no call is lost and none is over twice. Here
every action is shown to keep both.

## Contents
- **Tellings.** `Telling` and `Ending`, what is heard of calls; `Paired`, notices in their places.
- **Ends of calls.** `Closing`, the events of a call that is over, and `closing_finish`.
- **Calls in flight.** `Highlighter.waiting`, and what jobs that come and go do to it.
- **Accounts.** `Accounts`, both accounts of one step, for each operation, and `accounts_act`.
-/

namespace EditorServices.Highlight

/-! ## Tellings -/

/-- What is heard of calls: the listener is told, or a call is over. -/
inductive Telling where
  | notice
  | over (name : String) (result : Except Failure (Option Route))
deriving DecidableEq

/-- How a call ended. -/
structure Ending where
  name : String
  result : Except Failure (Option Route)
deriving DecidableEq

namespace Event

def telling? : Event → Option Telling
  | .notified _ => some .notice
  | .completed name result => some (.over name result)
  | _ => none

def ending? : Event → Option Ending
  | .completed name result => some ⟨name, result⟩
  | _ => none

end Event

/-- What is heard of calls, in its order. -/
def tellings (events : List Event) : List Telling := events.filterMap Event.telling?

/-- The calls that are over, in the order of their ends. -/
def endings (events : List Event) : List Ending := events.filterMap Event.ending?

namespace Ending

/-- A call that did not highlight lines for the cache: it failed, found nothing to do, or came too late. -/
def Idle (e : Ending) : Prop := ∀ route, e.result ≠ .ok (some route)

theorem idle_error (name : String) (f : Failure) : Idle ⟨name, .error f⟩ := by
  intro route hroute
  cases hroute

theorem idle_none (name : String) : Idle ⟨name, .ok none⟩ := by
  intro route hroute
  cases hroute

/-- What a call has to tell when it is over: if it highlighted lines, the listener hears of it just before. -/
def tellings (e : Ending) : List Telling :=
  match e.result with
  | .ok (some _) => [.notice, .over e.name e.result]
  | _ => [.over e.name e.result]

theorem tellings_of_idle {e : Ending} (h : e.Idle) : e.tellings = [.over e.name e.result] := by
  unfold tellings
  split
  · next route hroute => exact absurd hroute (h route)
  · rfl

end Ending

/-- **Each notice is in its place**: what is heard is what the calls that are over have to tell. -/
def Paired (events : List Event) : Prop := tellings events = (endings events).flatMap Ending.tellings

/-- Events that say nothing of calls. -/
def Quiet (events : List Event) : Prop := ∀ e ∈ events, e.telling? = none

variable {events more : List Event}

theorem tellings_append (events more : List Event) :
    tellings (events ++ more) = tellings events ++ tellings more := List.filterMap_append

theorem endings_append (events more : List Event) :
    endings (events ++ more) = endings events ++ endings more := List.filterMap_append

theorem Paired.append (h : Paired events) (h' : Paired more) : Paired (events ++ more) := by
  unfold Paired
  rw [tellings_append, endings_append, List.flatMap_append, h, h']

namespace Quiet

theorem append (h : Quiet events) (h' : Quiet more) : Quiet (events ++ more) := by
  intro e he
  rcases List.mem_append.mp he with he | he
  · exact h e he
  · exact h' e he

theorem tellings (h : Quiet events) : tellings events = [] := List.filterMap_eq_nil_iff.mpr h

theorem endings (h : Quiet events) : endings events = [] := by
  refine List.filterMap_eq_nil_iff.mpr fun e he => ?_
  have hnone := h e he
  cases e with
  | completed name result => cases hnone
  | _ => rfl

theorem paired (h : Quiet events) : Paired events := by
  unfold Paired
  rw [h.tellings, h.endings, List.flatMap_nil]

theorem not_notified (h : Quiet events) (seen : Cache) : .notified seen ∉ events := by
  intro hmem
  cases h _ hmem

end Quiet

theorem quiet_nil : Quiet [] := fun _ he => absurd he List.not_mem_nil

theorem quiet_singleton {e : Event} (h : e.telling? = none) : Quiet [e] := by
  intro e' he'
  rw [List.mem_singleton.mp he']
  exact h

/-- What a computation did on its way says nothing of calls. -/
theorem quiet_traces (trace : List Trace) : Quiet (trace.map .trace) := by
  intro e he
  obtain ⟨t, -, rfl⟩ := List.mem_map.mp he
  rfl

namespace Highlighter

open Cache (Accepted Took)

variable {h h' : Highlighter} {s : Setting} {t : Tokenizer} {name : String}

/-! ## Ends of calls -/

/-- The events of a call that is over, with the highlighter then: the end is the last of them, and the
listener hears of it just before if there are lines for the cache. -/
inductive Closing (name : String) (g : Highlighter) (events : List Event) : Prop
  | idle {first : List Event} {result : Except Failure (Option Route)} (quiet : Quiet first)
      (idle : Ending.Idle ⟨name, result⟩) (events_eq : events = first ++ [.completed name result])
  | told {first : List Event} (quiet : Quiet first) (route : Route)
      (events_eq : events = first ++ g.notify ++ [.completed name (.ok (some route))])

/-- Telling the listener is one notice, with the cache as it is. -/
theorem tellings_notify (hl : h.listener ≠ .absent) : tellings h.notify = [.notice] := by
  unfold notify
  cases hlistener : h.listener with
  | absent => exact absurd hlistener hl
  | present => rfl
  | failing reason => rfl

theorem endings_notify (h : Highlighter) : endings h.notify = [] := by
  unfold notify
  cases h.listener <;> rfl

theorem notified_of_notify {seen : Cache} (hmem : .notified seen ∈ h.notify) : seen = h.cache := by
  unfold notify at hmem
  cases hlistener : h.listener with
  | absent =>
    rw [hlistener] at hmem
    exact absurd hmem List.not_mem_nil
  | present =>
    rw [hlistener] at hmem
    cases List.mem_singleton.mp hmem
    rfl
  | failing reason =>
    rw [hlistener] at hmem
    rcases List.mem_cons.mp hmem with heq | hmem
    · cases heq
      rfl
    · cases List.mem_singleton.mp hmem

namespace Closing

theorem endings (hc : Closing name h events) : ∃ result, endings events = [⟨name, result⟩] := by
  cases hc with
  | @idle first result quiet _ heq =>
    refine ⟨result, ?_⟩
    rw [heq, endings_append, quiet.endings]
    rfl
  | told quiet route heq =>
    refine ⟨.ok (some route), ?_⟩
    rw [heq, endings_append, endings_append, quiet.endings, endings_notify]
    rfl

theorem paired (hc : Closing name h events) (hl : h.listener ≠ .absent) : Paired events := by
  unfold Paired
  cases hc with
  | @idle first result quiet idle heq =>
    have hend : EditorServices.Highlight.endings [.completed name result] = [⟨name, result⟩] := rfl
    rw [heq, tellings_append, endings_append, quiet.tellings, quiet.endings, List.nil_append,
      List.nil_append, hend, List.flatMap_singleton, Ending.tellings_of_idle idle]
    rfl
  | told quiet route heq =>
    rw [heq, tellings_append, tellings_append, endings_append, endings_append, quiet.tellings,
      quiet.endings, tellings_notify hl, endings_notify]
    rfl

/-- A notice is about the call that is over, and the cache is what it is when the call is over. -/
theorem notified (hc : Closing name h events) {seen : Cache} (hmem : .notified seen ∈ events) :
    seen = h.cache ∧ ∃ route, EditorServices.Highlight.endings events = [⟨name, .ok (some route)⟩] := by
  cases hc with
  | idle quiet _ heq =>
    rw [heq] at hmem
    rcases List.mem_append.mp hmem with hmem | hmem
    · exact absurd hmem (quiet.not_notified seen)
    · cases List.mem_singleton.mp hmem
  | told quiet route heq =>
    rw [heq] at hmem
    rcases List.mem_append.mp hmem with hmem | hmem
    · rcases List.mem_append.mp hmem with hmem | hmem
      · exact absurd hmem (quiet.not_notified seen)
      · refine ⟨notified_of_notify hmem, route, ?_⟩
        rw [heq, endings_append, endings_append, quiet.endings, endings_notify]
        rfl
    · cases List.mem_singleton.mp hmem

end Closing

/-- **A call that goes on is over then.** If the highlighter was disposed of, the call has nothing to tell;
and without anything to tell it leaves the cache as it was. -/
theorem finish_cases (h : Highlighter) (job : Job) (data : Except String (Lines Json)) :
    ∃ first, Quiet first ∧
      ((∃ result, Ending.Idle ⟨job.name, result⟩ ∧
          (h.finish job data).2 = first ++ [.completed job.name result] ∧
          (h.finish job data).1.cache.Like h.cache) ∨
        (h.disposed = false ∧ (h.finish job data).2 =
          first ++ (h.finish job data).1.notify ++ [.completed job.name (.ok (some .worker))])) := by
  have hstopped : Quiet [timerStopped job.batch.lines.length] := quiet_singleton rfl
  unfold Highlighter.finish
  cases data with
  | ok spans =>
    refine ⟨[] ++ [timerStopped job.batch.lines.length], quiet_nil.append hstopped, ?_⟩
    dsimp only
    cases readSpans spans with
    | error f => exact .inl ⟨.error f, Ending.idle_error _ _, rfl, .refl _⟩
    | ok spans =>
      dsimp only
      by_cases hd : h.disposed = true
      · rw [if_pos hd]
        exact .inl ⟨.ok none, Ending.idle_none _, rfl, .refl _⟩
      · rw [if_neg hd]
        exact .inr ⟨Bool.eq_false_iff.mpr hd, rfl⟩
  | error reason =>
    have hfailed : Quiet [logged .warn "highlight worker failed, tokenizing inline"
        [("lines", .int job.batch.lines.length), ("error", .str reason)]] := quiet_singleton rfl
    refine ⟨_, (hfailed.append (quiet_traces (h.cache.renderAll job.batch.lines).2.2)).append hstopped, ?_⟩
    dsimp only
    by_cases hd : h.disposed = true
    · rw [if_pos hd]
      exact .inl ⟨.ok none, Ending.idle_none _, rfl, Cache.like_renderAll h.cache job.batch.lines⟩
    · rw [if_neg hd]
      exact .inr ⟨Bool.eq_false_iff.mpr hd, rfl⟩

theorem closing_finish (h : Highlighter) (job : Job) (data : Except String (Lines Json)) :
    Closing job.name (h.finish job data).1 (h.finish job data).2 := by
  obtain ⟨first, hquiet, ⟨result, hidle, heq, -⟩ | ⟨-, heq⟩⟩ := h.finish_cases job data
  · exact .idle hquiet hidle heq
  · exact .told hquiet .worker heq

/-! ## Calls in flight -/

/-- The calls that wait for jobs of some workers. -/
def waitingFor (workers : List Worker) : List String := workers.flatMap fun w => w.jobs.map Job.name

/-- The calls in flight. -/
def waiting (h : Highlighter) : List String := waitingFor h.workers

theorem waitingFor_concat (workers : List Worker) (w : Worker) :
    waitingFor (workers ++ [w]) = waitingFor workers ++ w.jobs.map Job.name := by
  unfold waitingFor
  rw [List.flatMap_append, List.flatMap_singleton]

/-- A worker has other jobs than before. -/
theorem waitingFor_set {workers : List Worker} {worker : Nat} {w : Worker}
    (hw : workers[worker]? = some w) (w' : Worker) :
    ∃ others, (waitingFor workers).Perm (w.jobs.map Job.name ++ others) ∧
      (waitingFor (workers.set worker w')).Perm (w'.jobs.map Job.name ++ others) := by
  obtain ⟨hlt, rfl⟩ := List.getElem?_eq_some_iff.mp hw
  exact ⟨waitingFor (workers.eraseIdx worker),
    (List.getElem_cons_eraseIdx_perm hlt).symm.flatMap_right _,
    (List.set_perm_cons_eraseIdx hlt w').flatMap_right _⟩

/-- A worker keeps its jobs. -/
theorem waitingFor_set_same {workers : List Worker} {worker : Nat} {w w' : Worker}
    (hw : workers[worker]? = some w) (hjobs : w'.jobs = w.jobs) :
    (waitingFor (workers.set worker w')).Perm (waitingFor workers) := by
  obtain ⟨others, hbefore, hafter⟩ := waitingFor_set hw w'
  rw [hjobs] at hafter
  exact hafter.trans hbefore.symm

/-- A worker loses a job. -/
theorem waitingFor_set_erased {workers : List Worker} {worker place : Nat} {w w' : Worker} {job : Job}
    (hw : workers[worker]? = some w) (hj : w.jobs[place]? = some job)
    (hjobs : w'.jobs = w.jobs.eraseIdx place) :
    (job.name :: waitingFor (workers.set worker w')).Perm (waitingFor workers) := by
  obtain ⟨others, hbefore, hafter⟩ := waitingFor_set hw w'
  obtain ⟨hlt, rfl⟩ := List.getElem?_eq_some_iff.mp hj
  rw [hjobs] at hafter
  have hnames := (List.getElem_cons_eraseIdx_perm hlt).map Job.name
  exact (hafter.cons _).trans ((hnames.append_right others).trans hbefore.symm)

/-- A worker that is made on demand has no jobs. -/
theorem waiting_ensureWorker (h : Highlighter) : h.ensureWorker.1.waiting = h.waiting := by
  unfold Highlighter.ensureWorker
  by_cases hu : h.inUse = true
  · rw [if_pos hu]
  · rw [if_neg hu]
    show waitingFor (h.workers ++ [_]) = waitingFor h.workers
    rw [waitingFor_concat]
    exact List.append_nil _

/-- The latest worker is given jobs. -/
theorem waiting_setJobs {w : Worker} (hl : h.latest? = some w) (jobs : List Job) :
    ∃ others, h.waiting = others ++ w.jobs.map Job.name ∧
      (h.setJobs jobs).waiting = others ++ jobs.map Job.name := by
  have hsplit : h.workers = h.workers.dropLast ++ [w] :=
    (List.dropLast_append_getLast? w (Option.mem_def.mpr hl)).symm
  refine ⟨waitingFor h.workers.dropLast, ?_, ?_⟩
  · show waitingFor h.workers = _
    rw [hsplit, waitingFor_concat, List.dropLast_concat]
  · rw [setJobs_eq hl]
    exact waitingFor_concat _ _

theorem disposed_setJobs (h : Highlighter) (jobs : List Job) : (h.setJobs jobs).disposed = h.disposed := by
  unfold Highlighter.setJobs
  split <;> rfl

theorem inUse_setJobs (h : Highlighter) (jobs : List Job) : (h.setJobs jobs).inUse = h.inUse := by
  unfold Highlighter.setJobs
  split <;> rfl

/-- A job is added to those of the latest worker. -/
theorem waiting_setJobs_concat {w : Worker} (hl : h.latest? = some w) (job : Job) :
    (h.setJobs (w.jobs ++ [job])).waiting.Perm (job.name :: h.waiting) := by
  obtain ⟨others, hbefore, hafter⟩ := waiting_setJobs hl (w.jobs ++ [job])
  rw [hbefore, hafter, List.map_append, ← List.append_assoc]
  exact List.perm_append_singleton _ _

/-! ## Accounts -/

/-- The worker in use is there. -/
def Staffed (h : Highlighter) : Prop := h.inUse = true → h.workers ≠ []

theorem Staffed.setWorker (hstaffed : h.Staffed) (worker : Nat) (w : Worker) :
    Staffed { h with workers := h.workers.set worker w } := by
  intro hu hnil
  have hlength := congrArg List.length hnil
  rw [List.length_set] at hlength
  exact hstaffed hu (List.length_eq_zero_iff.mp hlength)

/-- What a step of a highlighter `h` keeps of its accounts, when it starts some calls and may finish one for
some job: notices are in their places, the calls that are over or in flight are those that were in flight or
were started, and when the listener is told the cache has got everything that the job offers. -/
structure Accounts (t : Tokenizer) (h : Highlighter) (started : List String) (finishes : Job → Prop)
    (r : Highlighter × List Event) : Prop where
  paired : Paired r.2
  balanced : ((endings r.2).map Ending.name ++ r.1.waiting).Perm (started ++ h.waiting)
  told : ∀ seen, .notified seen ∈ r.2 → seen = r.1.cache ∧ ∃ job, finishes job ∧
    (∃ route, endings r.2 = [⟨job.name, .ok (some route)⟩]) ∧
    Accepted (job.batch.offers t) h.cache seen
  staffed : r.1.Staffed
  disposed : h.disposed = true → r.1.disposed = true

variable {started : List String} {finishes : Job → Prop} {r : Highlighter × List Event}

namespace Accounts

/-- A step of which nothing is heard. -/
theorem quiet (hevents : Quiet events) (hwaiting : h'.waiting.Perm (started ++ h.waiting))
    (hstaffed : h'.Staffed) (hdisposed : h'.disposed = h.disposed) :
    Accounts t h started finishes (h', events) := by
  have hdisposed' : h.disposed = true → h'.disposed = true := hdisposed.trans
  refine ⟨hevents.paired, ?_, ?_, hstaffed, hdisposed'⟩
  · rw [hevents.endings]
    exact hwaiting
  · intro seen hmem
    exact absurd hmem (hevents.not_notified seen)

/-- Events that say nothing of calls come first. -/
theorem after_quiet (ha : Accounts t h started finishes r) {first : List Event} (hfirst : Quiet first) :
    Accounts t h started finishes (r.1, first ++ r.2) := by
  have hend : endings (first ++ r.2) = endings r.2 := by
    rw [endings_append, hfirst.endings, List.nil_append]
  refine ⟨hfirst.paired.append ha.paired, ?_, ?_, ha.staffed, ha.disposed⟩
  · rw [hend]
    exact ha.balanced
  · intro seen hmem
    rw [hend]
    exact ha.told seen ((List.mem_append.mp hmem).resolve_left (hfirst.not_notified seen))

/-- The step starts from where another one led, which nothing was heard of. -/
theorem from_before {before : List String} (ha : Accounts t h' started finishes r)
    (hcache : h'.cache = h.cache) (hwaiting : (started ++ h'.waiting).Perm (before ++ h.waiting))
    (hdisposed : h'.disposed = h.disposed) : Accounts t h before finishes r := by
  refine ⟨ha.paired, ha.balanced.trans hwaiting, ?_, ha.staffed, fun hd => ?_⟩
  · rw [← hcache]
    exact ha.told
  · exact ha.disposed (hdisposed.trans hd)

/-- A call is over: the cache has got its batch, if the listener hears of it. -/
theorem of_closing (hc : Closing name r.1 r.2) (hl : r.1.listener ≠ .absent)
    (hwaiting : r.1.waiting = h.waiting) (hstaffed : r.1.Staffed)
    (hdisposed : r.1.disposed = h.disposed)
    (haccepted : ∀ seen, .notified seen ∈ r.2 →
      ∃ b, finishes ⟨name, b⟩ ∧ Accepted (b.offers t) h.cache r.1.cache) :
    Accounts t h [name] finishes r := by
  refine ⟨hc.paired hl, ?_, ?_, hstaffed, hdisposed.trans⟩
  · obtain ⟨result, hend⟩ := hc.endings
    rw [hend, hwaiting]
    exact .refl _
  · intro seen hmem
    obtain ⟨hseen, hend⟩ := hc.notified hmem
    obtain ⟨b, hb, hgot⟩ := haccepted seen hmem
    refine ⟨hseen, ⟨name, b⟩, hb, hend, ?_⟩
    rw [hseen]
    exact hgot

/-- A call is over and has nothing to tell. -/
theorem of_idle {result : Except Failure (Option Route)} (hidle : Ending.Idle ⟨name, result⟩)
    (hl : h'.listener ≠ .absent) (hwaiting : h'.waiting = h.waiting)
    (hstaffed : h'.Staffed) (hdisposed : h'.disposed = h.disposed) :
    Accounts t h [name] finishes (h', [.completed name result]) := by
  refine of_closing (.idle quiet_nil hidle rfl) hl hwaiting hstaffed hdisposed fun seen hmem => ?_
  cases List.mem_singleton.mp hmem

theorem mono {finishes' : Job → Prop} (ha : Accounts t h started finishes r)
    (hjobs : ∀ job, finishes job → finishes' job) : Accounts t h started finishes' r := by
  refine { ha with told := ?_ }
  intro seen hmem
  obtain ⟨hseen, job, hjob, hend, haccepted⟩ := ha.told seen hmem
  exact ⟨hseen, job, hjobs job hjob, hend, haccepted⟩

end Accounts

/-- **A call goes on**: it is over then, and if it has something to tell the cache has got its batch. -/
theorem accounts_finish (hs : h.Sound s) (hc : h.cache.Fresh) (hstaffed : h.Staffed)
    (hl : h.listener ≠ .absent) {job : Job} (hjob : job.batch.lines.Ascending)
    (hle : job.batch.generation ≤ h.cache.generation) {data : Except String (Lines Json)}
    (hdata : ∀ spans, data = .ok spans → readSpans spans = .ok (s.tokenizer.answers job.batch.lines)) :
    Accounts s.tokenizer h [job.name] (· = job) (h.finish job data) := by
  obtain ⟨c, heq⟩ := h.finish_eq_withCache job data
  have hl' : (h.finish job data).1.listener ≠ .absent := by
    rw [heq]
    exact hl
  have hwaiting : (h.finish job data).1.waiting = h.waiting := by
    rw [heq]
    rfl
  have hstaffed' : (h.finish job data).1.Staffed := by
    rw [heq]
    exact hstaffed
  refine .of_closing (h.closing_finish job data) hl' hwaiting hstaffed' (disposed_finish h job data) ?_
  intro seen hmem
  refine ⟨job.batch, rfl, ?_⟩
  have haccepted := accepted_finish hs hc hjob hle hdata
  obtain ⟨first, hquiet, ⟨result, hidle, hevents, -⟩ | ⟨hserving, -⟩⟩ := h.finish_cases job data
  · -- a call that has nothing to tell tells nothing
    rw [hevents] at hmem
    rcases List.mem_append.mp hmem with hmem | hmem
    · exact absurd hmem (hquiet.not_notified seen)
    · cases List.mem_singleton.mp hmem
  · unfold offered at haccepted
    rw [hserving, if_neg Bool.false_ne_true, List.flatMap_singleton] at haccepted
    exact haccepted

/-- **A job ends**, and the call that waited for it is over. -/
theorem accounts_endJob (hs : h.Sound s) (hd : h.Dated) (hstaffed : h.Staffed)
    (hl : h.listener ≠ .absent) (worker place : Nat) (result : WorkResult) :
    Accounts s.tokenizer h [] (h.jobAt? worker place = some ·) (h.endJob worker place result) := by
  cases hw : h.workers[worker]? with
  | none =>
    unfold Highlighter.endJob
    rw [hw]
    exact .quiet quiet_nil (.refl _) hstaffed rfl
  | some w =>
    cases hj : w.jobs[place]? with
    | none =>
      unfold Highlighter.endJob
      rw [hw]
      dsimp only
      rw [hj]
      exact .quiet quiet_nil (.refl _) hstaffed rfl
    | some job =>
      have hmem : w ∈ h.workers := List.mem_of_getElem? hw
      have hjob : job.batch.lines.Ascending := (hs.workers w hmem).jobs job (List.mem_of_getElem? hj)
      have hle : job.batch.generation ≤ h.cache.generation := hd.jobs w hmem job (List.mem_of_getElem? hj)
      obtain ⟨w', data, hw', hjobs, hdata, heq⟩ := hs.endJob_eq_finish hw hj result
      have hgoes : Accounts s.tokenizer h [] (· = job)
          (Highlighter.finish { h with workers := h.workers.set worker w' } job data) := by
        have hfinish := accounts_finish (hs.setWorker worker hw') hd.fresh (hstaffed.setWorker worker w') hl
          hjob hle hdata
        exact hfinish.from_before rfl (waitingFor_set_erased hw hj hjobs) rfl
      have hat : h.jobAt? worker place = some job := by
        unfold jobAt?
        rw [hw, Option.bind_some, hj]
      rw [heq]
      refine hgoes.mono fun job' hjob' => ?_
      rw [hjob']
      exact hat

/-- A worker that is made on demand changes nothing of what is in flight. -/
theorem Dated.ensureWorker (hd : h.Dated) : h.ensureWorker.1.Dated := by
  refine ⟨?_, ?_⟩
  · rw [cache_ensureWorker]
    exact hd.fresh
  · rw [cache_ensureWorker]
    exact hd.jobs.ensureWorker

theorem Dated.setJobs (hd : h.Dated) {jobs : List Job}
    (hjobs : ∀ job ∈ jobs, job.batch.generation ≤ h.cache.generation) : (h.setJobs jobs).Dated := by
  refine ⟨?_, ?_⟩
  · rw [cache_setJobs]
    exact hd.fresh
  · rw [cache_setJobs]
    exact hd.jobs.setJobs hjobs

/-- The worker in use is there, or is made. -/
theorem latest_ensureWorker (hstaffed : h.Staffed) :
    ∃ w, h.ensureWorker.1.latest? = some w := by
  unfold Highlighter.ensureWorker
  by_cases hu : h.inUse = true
  · rw [if_pos hu]
    exact ⟨h.workers.getLast (hstaffed hu), List.getLast?_eq_some_getLast _⟩
  · rw [if_neg hu]
    exact ⟨.new (.owned h.kind), List.getLast?_concat⟩

theorem ensureWorker_same (h : Highlighter) :
    h.ensureWorker.1.disposed = h.disposed ∧ h.ensureWorker.1.listener = h.listener ∧
      Quiet h.ensureWorker.2 := by
  unfold Highlighter.ensureWorker
  by_cases hu : h.inUse = true
  · rw [if_pos hu]
    exact ⟨rfl, rfl, quiet_nil⟩
  · rw [if_neg hu]
    exact ⟨rfl, rfl, quiet_singleton rfl⟩

section
variable {w : Worker} {job : Job}

theorem workers_ne_nil_of_latest (hlatest : h.latest? = some w) : h.workers ≠ [] := by
  intro hnil
  unfold latest? at hlatest
  rw [hnil] at hlatest
  cases hlatest

theorem Sound.takeJob (hs : h.Sound s) (hlatest : h.latest? = some w) (hjob : job.batch.lines.Ascending) :
    (h.setJobs (w.jobs ++ [job])).Sound s := by
  refine hs.setJobs fun job' hjob' => ?_
  rcases List.mem_append.mp hjob' with hjob' | hjob'
  · exact (hs.workers w (List.mem_of_getLast? hlatest)).jobs job' hjob'
  · rw [List.mem_singleton.mp hjob']
    exact hjob

theorem Dated.takeJob (hd : h.Dated) (hlatest : h.latest? = some w)
    (hle : job.batch.generation ≤ h.cache.generation) : (h.setJobs (w.jobs ++ [job])).Dated := by
  refine hd.setJobs fun job' hjob' => ?_
  rcases List.mem_append.mp hjob' with hjob' | hjob'
  · exact hd.jobs w (List.mem_of_getLast? hlatest) job' hjob'
  · rw [List.mem_singleton.mp hjob']
    exact hle

theorem staffed_takeJob (hlatest : h.latest? = some w) : (h.setJobs (w.jobs ++ [job])).Staffed := by
  intro _
  rw [setJobs_eq hlatest]
  exact List.append_ne_nil_of_right_ne_nil _ (List.cons_ne_nil _ _)

/-- A worker that holds its jobs back keeps one more: its call waits. -/
theorem accounts_heldJob (hlatest : h.latest? = some w) {finishes : Job → Prop} :
    Accounts s.tokenizer h [job.name] finishes (h.setJobs (w.jobs ++ [job]), []) :=
  .quiet quiet_nil (waiting_setJobs_concat hlatest job) (staffed_takeJob hlatest) (disposed_setJobs _ _)

/-- A worker that ends one more job at once: its call is over. -/
theorem accounts_endedJob (hs : h.Sound s) (hd : h.Dated) (hl : h.listener ≠ .absent)
    (hlatest : h.latest? = some w) (hjob : job.batch.lines.Ascending)
    (hle : job.batch.generation ≤ h.cache.generation) :
    Accounts s.tokenizer h [job.name] (· = job) ((h.setJobs (w.jobs ++ [job])).endJob
      (h.setJobs (w.jobs ++ [job])).latest w.jobs.length .done) := by
  have hl' : (h.setJobs (w.jobs ++ [job])).listener ≠ .absent := by
    rw [setJobs_eq hlatest]
    exact hl
  have hat : (h.setJobs (w.jobs ++ [job])).jobAt? (h.setJobs (w.jobs ++ [job])).latest w.jobs.length
      = some job := by
    unfold jobAt?
    rw [latest_setJobs hlatest, Option.bind_some]
    exact List.getElem?_concat_length
  have hgoes := accounts_endJob (hs.takeJob hlatest hjob) (hd.takeJob hlatest hle) (staffed_takeJob hlatest)
    hl' (h.setJobs (w.jobs ++ [job])).latest w.jobs.length .done
  have hover : Accounts s.tokenizer h [job.name] _ _ :=
    hgoes.from_before (cache_setJobs _ _) (waiting_setJobs_concat hlatest job) (disposed_setJobs _ _)
  exact hover.mono fun job' hjob' => Option.some.inj (hjob'.symm.trans hat)

end

/-- **A batch is handed to a worker**: the call waits or is over, but it is not lost. -/
theorem accounts_submit (hs : h.Sound s) (hd : h.Dated) (hstaffed : h.Staffed)
    (hl : h.listener ≠ .absent) {job : Job} (hjob : job.batch.lines.Ascending)
    (hle : job.batch.generation ≤ h.cache.generation) :
    Accounts s.tokenizer h [job.name] (· = job) (h.submit job) := by
  have hs' := hs.ensureWorker
  have hd' := hd.ensureWorker
  have hcache := cache_ensureWorker h
  have hwaiting := waiting_ensureWorker h
  obtain ⟨w, hlatest⟩ := latest_ensureWorker hstaffed
  obtain ⟨hdisposed, hlistener, hmade⟩ := ensureWorker_same h
  unfold Highlighter.submit
  revert hs' hd' hcache hwaiting hlatest hdisposed hlistener hmade
  generalize h.ensureWorker = x
  obtain ⟨h', made⟩ := x
  intro hs' hd' hcache hwaiting hlatest hdisposed hlistener hmade
  dsimp only at hs' hd' hcache hwaiting hlatest hdisposed hlistener hmade ⊢
  rw [hlatest]
  dsimp only
  rw [← hlistener] at hl
  rw [← hcache] at hle
  have hfirst : Quiet (made ++ [.submitted h'.cache.language h'.cache.theme job.batch.lines]) :=
    hmade.append (quiet_singleton rfl)
  -- what the worker that is in use now does counts from here
  have hbefore {r : Highlighter × List Event} (hr : Accounts s.tokenizer h' [job.name] (· = job) r) :
      Accounts s.tokenizer h [job.name] (· = job)
        (r.1, made ++ [.submitted h'.cache.language h'.cache.theme job.batch.lines] ++ r.2) :=
    (hr.after_quiet hfirst).from_before hcache (by rw [hwaiting]) hdisposed
  cases w.fault with
  | some reason =>
    have hnodata : ∀ spans, (Except.error reason : Except String (Lines Json)) = .ok spans →
        readSpans spans = .ok (s.tokenizer.answers job.batch.lines) := by
      intro spans hspans
      cases hspans
    have hstaffed' : h'.Staffed := fun _ => workers_ne_nil_of_latest hlatest
    exact hbefore (accounts_finish hs' hd'.fresh hstaffed' hl hjob hle hnodata)
  | none =>
    dsimp only
    by_cases hh : (h'.setJobs (w.jobs ++ [job])).holds = true
    · rw [if_pos hh]
      have hheld := hbefore (accounts_heldJob hlatest)
      rwa [List.append_nil] at hheld
    · rw [if_neg hh]
      exact hbefore (accounts_endedJob hs' hd' hl hlatest hjob hle)

/-- Lines that are highlighted at once are offered like those of a batch. -/
theorem accepted_renderNow {c : Cache} (hc : c.Sound s) (hfresh : c.Fresh) {lines : Lines String}
    (hlines : lines.Ascending) :
    Accepted (Batch.offers s.tokenizer ⟨lines, c.generation⟩) c (c.renderNow lines).1 := by
  have hb : (⟨lines, c.generation⟩ : Batch).lines.Ascending := hlines
  have hmerged := Accepted.merge s.tokenizer hfresh hb (Nat.le_refl _)
  have hlike : (c.renderNow lines).1.Like (c.merge ⟨lines, c.generation⟩ (s.tokenizer.answers lines)) :=
    (Cache.like_renderNow hc lines).trans (Cache.like_merge s.tokenizer hfresh hb rfl).symm
  refine ⟨hlike.generation.trans hmerged.generation, fun i => ?_, fun i => ?_⟩
  · rw [hlike.records]
    exact hmerged.newest i
  · rw [hlike.dirty]
    exact hmerged.dirty i

/-- **A call goes on with the lines that it gathered**: it is over at once, or waits. -/
theorem accounts_process (hs : h.Sound s) (hd : h.Dated) (hstaffed : h.Staffed)
    (hl : h.listener ≠ .absent) (name : String) {lines : Lines String} (hlines : lines.Ascending) :
    Accounts s.tokenizer h [name] (· = ⟨name, ⟨lines, h.cache.generation⟩⟩) (h.process name lines) := by
  unfold Highlighter.process
  by_cases he : lines.isEmpty = true
  · rw [if_pos he]
    exact .of_idle (Ending.idle_none name) hl rfl hstaffed rfl
  · rw [if_neg he]
    by_cases ht : h.threshold.isAbove lines.length = true
    · rw [if_pos ht]
      refine .of_closing (.told (quiet_traces (h.cache.renderNow lines).2) .inline rfl) hl rfl hstaffed rfl ?_
      intro seen hmem
      exact ⟨_, rfl, accepted_renderNow hs.cache hd.fresh hlines⟩
    · rw [if_neg ht]
      let job : Job := ⟨name, ⟨lines, h.cache.generation⟩⟩
      have hjob : job.batch.lines.Ascending := hlines
      have hsubmitted := accounts_submit hs hd hstaffed hl hjob (Nat.le_refl _)
      exact hsubmitted.after_quiet (quiet_singleton (e := timerStarted lines.length) rfl)

/-! ### Actions -/

end Highlighter

/-- The calls that an action starts. -/
def Action.calls : Action → List String
  | .preHighlight name _ _ _ => [name]
  | .rehighlight name _ _ => [name]
  | _ => []

namespace Highlighter

variable {h h' : Highlighter} {s : Setting} {t : Tokenizer} {name : String} {started : List String}
  {finishes : Job → Prop}

/-- An action can finish a call for a job: one that it starts itself, with the batch that it gathers, or one
that waited for the job. -/
inductive Finishes (h : Highlighter) : Action → Job → Prop
  | started {a : Action} {name : String} {b : Batch} (calls : a.calls = [name])
      (gathered : a.gathered? h = some b) : Finishes h a ⟨name, b⟩
  | ended {worker place : Nat} {job : Job} (result : WorkResult)
      (waits : h.jobAt? worker place = some job) : Finishes h (.endJob worker place result) job

theorem accounts_preHighlight (hs : h.Sound s) (hd : h.Dated) (hstaffed : h.Staffed)
    (hl : h.listener ≠ .absent) (name : String) (first last : Int) (textAt : Int → Except Failure String) :
    Accounts s.tokenizer h [name] (Finishes h (.preHighlight name first last textAt))
      (h.preHighlight name first last textAt) := by
  unfold Highlighter.preHighlight
  cases ht : textsFrom textAt first (last - first + 1).toNat with
  | error f => exact .of_idle (Ending.idle_error name f) hl rfl hstaffed rfl
  | ok lines =>
    have hprocessed := accounts_process hs hd hstaffed hl name (ascending_unserved h.cache ht)
    refine hprocessed.mono fun job hjob => ?_
    rw [hjob]
    exact .started rfl (Action.gathered?_preHighlight ht)

theorem accounts_rehighlight (hs : h.Sound s) (hd : h.Dated) (hstaffed : h.Staffed)
    (hl : h.listener ≠ .absent) (name : String) (lineCount : Int) (textAt : Int → Except Failure String) :
    Accounts s.tokenizer (h.withCache (h.cache.dropBeyond lineCount)) [name]
      (Finishes h (.rehighlight name lineCount textAt)) (h.rehighlight name lineCount textAt) := by
  have hs' : (h.withCache (h.cache.dropBeyond lineCount)).Sound s :=
    hs.withCache (hs.cache.dropBeyond lineCount)
  have hd' : (h.withCache (h.cache.dropBeyond lineCount)).Dated :=
    ⟨hd.fresh.unmark fun i hi => (List.mem_filter.mp hi).1, hd.jobs⟩
  unfold Highlighter.rehighlight
  dsimp only
  cases ht : textsAt textAt (h.cache.dropBeyond lineCount).dirty with
  | error f => exact .of_idle (Ending.idle_error name f) hl rfl hstaffed rfl
  | ok lines =>
    have hprocessed := accounts_process hs' hd' hstaffed hl name (ascending_textsAt hs'.cache.dirty ht)
    refine hprocessed.mono fun job hjob => ?_
    rw [hjob]
    exact .started rfl (Action.gathered?_rehighlight ht)

/-- The calls of dropped batches are over, and have nothing to tell. -/
theorem endings_dropped (jobs : List Job) :
    endings (dropped jobs) = jobs.map fun job => ⟨job.name, .error .cancelled⟩ := by
  induction jobs with
  | nil => rfl
  | cons job rest ih =>
    show ⟨job.name, .error .cancelled⟩ :: endings (dropped rest) = _
    rw [ih]
    rfl

theorem paired_dropped (jobs : List Job) : Paired (dropped jobs) := by
  induction jobs with
  | nil => rfl
  | cons job rest ih =>
    have hone : Paired [timerStopped job.batch.lines.length, .completed job.name (.error .cancelled)] := rfl
    exact hone.append ih

theorem not_notified_dropped (jobs : List Job) (seen : Cache) : .notified seen ∉ dropped jobs := by
  intro hmem
  obtain ⟨job, -, hmem⟩ := List.mem_flatMap.mp hmem
  rcases List.mem_cons.mp hmem with heq | hmem
  · cases heq
  · cases List.mem_singleton.mp hmem

/-- Batches are dropped, and their calls with them. -/
theorem Accounts.of_dropped {jobs : List Job} (hwaiting : (jobs.map Job.name ++ h'.waiting).Perm h.waiting)
    (hstaffed : h'.Staffed) (hdisposed : h.disposed = true → h'.disposed = true) :
    Accounts t h [] finishes (h', dropped jobs) := by
  refine ⟨paired_dropped jobs, ?_, ?_, hstaffed, hdisposed⟩
  · rw [endings_dropped, List.map_map]
    exact hwaiting
  · intro seen hmem
    exact absurd hmem (not_notified_dropped jobs seen)

theorem accounts_cancel (hstaffed : h.Staffed) (worker place : Nat) :
    Accounts t h [] finishes (h.cancel worker place) := by
  unfold Highlighter.cancel
  cases hw : h.workers[worker]? with
  | none => exact .quiet quiet_nil (.refl _) hstaffed rfl
  | some w =>
    dsimp only
    cases hj : w.jobs[place]? with
    | none => exact .quiet quiet_nil (.refl _) hstaffed rfl
    | some job =>
      exact .of_dropped (waitingFor_set_erased hw hj rfl) (hstaffed.setWorker worker _) id

/-- The jobs of the latest worker that were dropped and those that were kept are all its jobs. -/
theorem waiting_setJobs_take {w : Worker} (hl : h.latest? = some w) (n : Nat) :
    ((w.jobs.drop n).map Job.name ++ (h.setJobs (w.jobs.take n)).waiting).Perm h.waiting := by
  obtain ⟨others, hbefore, hafter⟩ := waiting_setJobs hl (w.jobs.take n)
  rw [hbefore, hafter]
  refine (List.perm_append_comm_assoc _ _ _).trans (.append_left _ ?_)
  rw [← List.map_append]
  refine (List.perm_append_comm.trans ?_).map Job.name
  rw [List.take_append_drop]

/-- Disposal drops the batches that wait, and leaves the one that is worked on. -/
theorem accounts_dispose (h : Highlighter) : Accounts t h [] finishes h.dispose := by
  unfold Highlighter.dispose
  let closed : Highlighter := { h with cache := h.cache.clear, disposed := true, inUse := false }
  have hclosed : ∀ g : Highlighter, g.inUse = closed.inUse → g.Staffed := by
    intro g hg hu
    rw [hg] at hu
    cases hu
  split
  · next kind fault jobs kept _ hlatest =>
    have hl : closed.latest? = some ⟨.owned kind, fault, jobs, kept⟩ := hlatest
    have hdropped : Accounts t h [] finishes (closed.setJobs (jobs.take 1), dropped (jobs.drop 1)) :=
      .of_dropped (waiting_setJobs_take hl 1) (hclosed _ (inUse_setJobs _ _)) fun _ => disposed_setJobs _ _
    exact hdropped.after_quiet (quiet_singleton (e := .workerStopped) rfl)
  · exact ⟨quiet_nil.paired, .refl _, fun seen hmem => absurd hmem List.not_mem_nil, hclosed closed rfl,
      fun _ => rfl⟩

theorem accounts_changeWorker (hstaffed : h.Staffed) (worker : Nat)
    {f : Worker → Worker} (hf : ∀ w, (f w).jobs = w.jobs) :
    Accounts t h [] finishes (h.changeWorker worker f, []) := by
  unfold Highlighter.changeWorker
  cases hw : h.workers[worker]? with
  | none => exact .quiet quiet_nil (.refl _) hstaffed rfl
  | some w =>
    exact .quiet quiet_nil (waitingFor_set_same hw (hf w)) (hstaffed.setWorker worker _) rfl

/-- **Every action keeps the accounts.** -/
theorem accounts_act (hs : h.Sound s) (hd : h.Dated) (hstaffed : h.Staffed)
    (hl : h.listener ≠ .absent) (a : Action) :
    Accounts s.tokenizer (h.withCache (a.readied h)) a.calls (Finishes h a) (h.act a) := by
  cases a with
  | look i text => exact .quiet (quiet_traces _) (.refl _) hstaffed rfl
  | invalidateAll => exact .quiet quiet_nil (.refl _) hstaffed rfl
  | invalidateLines lines => exact .quiet quiet_nil (.refl _) hstaffed rfl
  | invalidateRange first last => exact .quiet quiet_nil (.refl _) hstaffed rfl
  | preHighlight name first last textAt => exact accounts_preHighlight hs hd hstaffed hl name first last textAt
  | rehighlight name lineCount textAt => exact accounts_rehighlight hs hd hstaffed hl name lineCount textAt
  | endJob worker place result =>
    exact (accounts_endJob hs hd hstaffed hl worker place result).mono fun job hjob => .ended result hjob
  | cancel worker place => exact accounts_cancel hstaffed worker place
  | breakDown worker reason => exact accounts_changeWorker hstaffed worker fun _ => rfl
  | elsewhere worker language theme lines => exact accounts_changeWorker hstaffed worker fun _ => rfl
  | dispose => exact accounts_dispose h

end Highlighter

end EditorServices.Highlight
