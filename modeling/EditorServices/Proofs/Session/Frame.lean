import EditorServices.Session.Turn

/-!
# `Proofs.Session.Frame` — what the parts of a turn change, and what they leave alone

A turn is put together from a few functions: one that ends a task, one that sends a message, one that
sends a request, one that gives replies. This file says once for each of them which session it leaves
behind, so that later files never open them again.

The task that a turn is about is seen through two views, `progressOf` and `jobOf`. Nothing ever changes
the job of a task, and `moveTask` is the only way in which progress changes.

## Contents
- **Rows of turns.** `Turned.after`, `Turned.andThen`, and `after`, the session after a history.
- **Views.** `progressOf` and `jobOf`, through `moveTask` and `addTask`.
- **New tasks.** `Grown`, a session with further tasks, which is all that receiving a message of the
  server's own comes to.
- **Ends.** `finish`, `transmit`, `ask` and `tell`.
- **Closedness.** `whyClosed?` and `refusal?`.
-/

namespace EditorServices.Session

/-! ## Rows of turns -/

@[simp] theorem Turned.session_after (es : List Effect) (r : Turned) :
    (r.after es).session = r.session := rfl

@[simp] theorem Turned.effects_after (es : List Effect) (r : Turned) :
    (r.after es).effects = es ++ r.effects := rfl

@[simp] theorem Turned.session_andThen (r : Turned) (f : Session → Turned) :
    (r.andThen f).session = (f r.session).session := rfl

@[simp] theorem Turned.effects_andThen (r : Turned) (f : Session → Turned) :
    (r.andThen f).effects = r.effects ++ (f r.session).effects := rfl

/-- The session after a history. -/
def after (s : Session) (h : List Turn) : Session := (s.run h).session

@[simp] theorem after_nil (s : Session) : s.after [] = s := rfl

@[simp] theorem after_cons (s : Session) (u : Turn) (h : List Turn) :
    s.after (u :: h) = (s.step u).session.after h := rfl

@[simp] theorem after_append (s : Session) (g h : List Turn) :
    s.after (g ++ h) = (s.after g).after h := by
  rw [after, run_append]
  rfl

/-- **What one turn preserves, every history preserves.** -/
theorem after_preserves {P : Session → Prop} (hstep : ∀ s u, P s → P (s.step u).session)
    {s : Session} (hs : P s) (h : List Turn) : P (s.after h) := by
  induction h generalizing s with
  | nil => exact hs
  | cons u h ih => exact ih (hstep s u hs)

/-! ## Views -/

/-- How far a task has come. -/
def progressOf (s : Session) (t : Nat) : Option Progress := (s.tasks[t]?).map Task.progress

/-- What a task is for. -/
def jobOf (s : Session) (t : Nat) : Option Job := (s.tasks[t]?).map Task.job

theorem progressOf_eq_none {s : Session} {t : Nat} : s.progressOf t = none ↔ s.tasks.length ≤ t := by
  simp [progressOf]

theorem progressOf_of_get {s : Session} {t : Nat} {k : Task} (h : s.tasks[t]? = some k) :
    s.progressOf t = some k.progress := by
  simp [progressOf, h]

theorem jobOf_of_get {s : Session} {t : Nat} {k : Task} (h : s.tasks[t]? = some k) :
    s.jobOf t = some k.job := by
  simp [jobOf, h]

/-- A job that no task has is that of no place. -/
theorem jobOf_ne_of_tasks {s : Session} {job : Job} (h : ∀ k ∈ s.tasks, k.job ≠ job) (t : Nat) :
    s.jobOf t ≠ some job := by
  intro hj
  obtain ⟨k, hk, hjob⟩ := Option.map_eq_some_iff.mp hj
  exact h k (List.mem_of_getElem? hk) hjob

theorem lt_of_progressOf {s : Session} {t : Nat} {p : Progress} (h : s.progressOf t = some p) :
    t < s.tasks.length := by
  refine Nat.lt_of_not_le fun hle => ?_
  rw [progressOf_eq_none.mpr hle] at h
  cases h

theorem getElem?_moveTask (s : Session) (t u : Nat) (p : Progress) :
    (s.moveTask t p).tasks[u]?
      = if u = t then (s.tasks[u]?).map fun k => { k with progress := p } else s.tasks[u]? := by
  simp only [moveTask, List.getElem?_modify]
  by_cases hu : u = t
  · subst hu; simp
  · have ht : ¬ t = u := fun h => hu h.symm
    simp [hu, ht]

@[simp] theorem progressOf_moveTask (s : Session) (t u : Nat) (p : Progress) :
    (s.moveTask t p).progressOf u
      = if u = t then (s.progressOf u).map fun _ => p else s.progressOf u := by
  simp only [progressOf, getElem?_moveTask]
  by_cases hu : u = t
  · simp [hu, Function.comp_def]
  · simp [hu]

/-- A task that is there is moved. -/
theorem progressOf_moveTask_self {s : Session} {t : Nat} {p : Progress} (h : s.progressOf t = some p)
    (next : Progress) : (s.moveTask t next).progressOf t = some next := by
  rw [progressOf_moveTask, if_pos rfl, h]
  rfl

@[simp] theorem jobOf_moveTask (s : Session) (t u : Nat) (p : Progress) :
    (s.moveTask t p).jobOf u = s.jobOf u := by
  simp only [jobOf, getElem?_moveTask]
  by_cases hu : u = t
  · simp [hu, Function.comp_def]
  · simp [hu]

@[simp] theorem length_moveTask (s : Session) (t : Nat) (p : Progress) :
    (s.moveTask t p).tasks.length = s.tasks.length := by simp [moveTask]

/-- Moving a task that is not there does nothing. -/
theorem moveTask_of_length_le {s : Session} {t : Nat} (p : Progress) (h : s.tasks.length ≤ t) :
    s.moveTask t p = s := by
  have : s.tasks.modify t (fun k => { k with progress := p }) = s.tasks := by
    apply List.ext_getElem?
    intro u
    rw [List.getElem?_modify]
    by_cases hu : t = u
    · subst hu; simp [List.getElem?_eq_none h]
    · simp [hu]
  rw [moveTask, this]

section
variable (s : Session) (t : Nat) (p : Progress)

@[simp] theorem profile_moveTask : (s.moveTask t p).profile = s.profile := rfl
@[simp] theorem phase_moveTask : (s.moveTask t p).phase = s.phase := rfl
@[simp] theorem document_moveTask : (s.moveTask t p).document = s.document := rfl
@[simp] theorem diagnostics_moveTask : (s.moveTask t p).diagnostics = s.diagnostics := rfl
@[simp] theorem lastRequest_moveTask : (s.moveTask t p).lastRequest = s.lastRequest := rfl
@[simp] theorem pending_moveTask : (s.moveTask t p).pending = s.pending := rfl
@[simp] theorem ended_moveTask : (s.moveTask t p).ended = s.ended := rfl
@[simp] theorem bus_moveTask : (s.moveTask t p).bus = s.bus := rfl
@[simp] theorem subscribers_moveTask : (s.moveTask t p).subscribers = s.subscribers := rfl
@[simp] theorem background_moveTask : (s.moveTask t p).background = s.background := rfl
@[simp] theorem reader_moveTask : (s.moveTask t p).reader = s.reader := rfl
@[simp] theorem writer_moveTask : (s.moveTask t p).writer = s.writer := rfl
@[simp] theorem whyClosed?_moveTask : (s.moveTask t p).whyClosed? = s.whyClosed? := rfl
@[simp] theorem refusal?_moveTask : (s.moveTask t p).refusal? = s.refusal? := rfl

end

theorem getElem?_addTask (s : Session) (job : Job) (u : Nat) :
    (s.addTask job).1.tasks[u]?
      = if u = s.tasks.length then some ⟨job, .created⟩ else s.tasks[u]? := by
  simp only [addTask]
  by_cases hu : u = s.tasks.length
  · subst hu; simp
  · rw [if_neg hu]
    rcases Nat.lt_or_gt_of_ne hu with h | h
    · exact List.getElem?_append_left h
    · rw [List.getElem?_eq_none (by simp; omega), List.getElem?_eq_none (by omega)]

@[simp] theorem progressOf_addTask (s : Session) (job : Job) (u : Nat) :
    (s.addTask job).1.progressOf u
      = if u = s.tasks.length then some .created else s.progressOf u := by
  simp only [progressOf, getElem?_addTask]
  by_cases hu : u = s.tasks.length <;> simp [hu]

@[simp] theorem jobOf_addTask (s : Session) (job : Job) (u : Nat) :
    (s.addTask job).1.jobOf u = if u = s.tasks.length then some job else s.jobOf u := by
  simp only [jobOf, getElem?_addTask]
  by_cases hu : u = s.tasks.length <;> simp [hu]

/-! ## New tasks -/

/-- A session with further tasks, none of them a call, that wait for their first turn; nothing that
requests or documents depend on has changed. -/
structure Grown (s s' : Session) : Prop where
  profile : s'.profile = s.profile
  phase : s'.phase = s.phase
  document : s'.document = s.document
  lastRequest : s'.lastRequest = s.lastRequest
  pending : s'.pending = s.pending
  ended : s'.ended = s.ended
  reader : s'.reader = s.reader
  writer : s'.writer = s.writer
  tasks : ∃ more, s'.tasks = s.tasks ++ more ∧
    ∀ k ∈ more, k.progress = .created ∧ ∀ c, k.job ≠ .call c

namespace Grown

variable {s r q : Session}

theorem refl (s : Session) : Grown s s :=
  ⟨rfl, rfl, rfl, rfl, rfl, rfl, rfl, rfl, [], (List.append_nil _).symm, by simp⟩

theorem trans (h : Grown s r) (g : Grown r q) : Grown s q := by
  obtain ⟨more, hm, hc⟩ := h.tasks
  obtain ⟨more', hm', hc'⟩ := g.tasks
  refine ⟨g.profile.trans h.profile, g.phase.trans h.phase, g.document.trans h.document,
    g.lastRequest.trans h.lastRequest, g.pending.trans h.pending, g.ended.trans h.ended,
    g.reader.trans h.reader, g.writer.trans h.writer, more ++ more', by rw [hm', hm, List.append_assoc], ?_⟩
  intro k hk
  rcases List.mem_append.mp hk with hk | hk
  · exact hc k hk
  · exact hc' k hk

theorem addTask (s : Session) {job : Job} (h : ∀ c, job ≠ .call c) : Grown s (s.addTask job).1 :=
  ⟨rfl, rfl, rfl, rfl, rfl, rfl, rfl, rfl, [⟨job, .created⟩], rfl, by simpa using h⟩

theorem spawn (s : Session) {job : Job} (h : ∀ c, job ≠ .call c) : Grown s (s.spawn job).session :=
  ⟨rfl, rfl, rfl, rfl, rfl, rfl, rfl, rfl, [⟨job, .created⟩], rfl, by simpa using h⟩

theorem tellOf (s : Session) (id : Option Json) (method params : Json) :
    Grown s (s.tellOf id method params).session := by
  unfold Session.tellOf
  split
  · exact .spawn s (by simp)
  · exact .refl s

/-- A task that was there is as it was. -/
theorem get (h : Grown s r) {t : Nat} {k : Task} (ht : s.tasks[t]? = some k) : r.tasks[t]? = some k := by
  obtain ⟨more, hm, -⟩ := h.tasks
  rw [hm]
  exact List.getElem?_append_left (List.getElem?_eq_some_iff.mp ht).1 ▸ ht

theorem progressOf (h : Grown s r) {t : Nat} {p : Progress} (ht : s.progressOf t = some p) :
    r.progressOf t = some p := by
  obtain ⟨k, hk, rfl⟩ := Option.map_eq_some_iff.mp ht
  exact progressOf_of_get (h.get hk)

/-- A task that was not there waits for its first turn, or is still not there. -/
theorem progressOf_of_none (h : Grown s r) {t : Nat} (ht : s.progressOf t = none) :
    r.progressOf t = none ∨ r.progressOf t = some .created := by
  obtain ⟨more, hm, hc⟩ := h.tasks
  rw [progressOf_eq_none] at ht
  unfold Session.progressOf
  rw [hm, List.getElem?_append_right ht]
  cases hk : more[t - s.tasks.length]? with
  | none => exact .inl rfl
  | some k => exact .inr (by rw [Option.map_some, (hc k (List.mem_of_getElem? hk)).1])

/-- A task that was not there is no call. -/
theorem jobOf_of_none (h : Grown s r) {t : Nat} (ht : s.jobOf t = none) (c : Call) :
    r.jobOf t ≠ some (.call c) := by
  obtain ⟨more, hm, hc⟩ := h.tasks
  have hle : s.tasks.length ≤ t := by simpa [jobOf] using ht
  unfold Session.jobOf
  rw [hm, List.getElem?_append_right hle]
  cases hk : more[t - s.tasks.length]? with
  | none => simp
  | some k =>
    have := (hc k (List.mem_of_getElem? hk)).2 c
    simpa using this

theorem whyClosed? (h : Grown s r) : r.whyClosed? = s.whyClosed? := by
  unfold Session.whyClosed?
  rw [h.phase, h.ended]

theorem refusal? (h : Grown s r) : r.refusal? = s.refusal? := by
  unfold Session.refusal?
  rw [h.whyClosed?, h.writer]

end Grown

theorem grown_noticeDiagnostics {s : Session} {method params : Json} {r : Turned}
    (h : s.noticeDiagnostics method params = some r) : Grown s r.session := by
  have hsame : ∀ {r : Turned}, some (⟨s, []⟩ : Turned) = some r → Grown s r.session := by
    rintro r ⟨⟩; exact .refl s
  unfold noticeDiagnostics at h
  split at h
  · split at h
    · unfold receiveDiagnostics at h
      split at h
      · split at h
        · cases h
        · cases h
          exact ⟨rfl, rfl, rfl, rfl, rfl, rfl, rfl, rfl, [], (List.append_nil _).symm, by simp⟩
      · exact hsame h
    · exact hsame h
  · exact hsame h

/-- A message of the server's own only adds tasks: one for the answer, one for the subscribers. -/
theorem grown_receiveMethod (s : Session) (ms : Members) (method : Json) :
    Grown s (s.receiveMethod ms method).session := by
  have hanswer : ∀ (q : Session) (id : Option Json) (method params : Json),
      Grown q (q.answerRequest id method params).session := by
    intro q id method params
    cases id with
    | none => exact .refl q
    | some id => exact .spawn q (by simp)
  unfold receiveMethod
  dsimp only
  split
  · exact .refl s
  · next noticed hn =>
    exact (grown_noticeDiagnostics hn).trans ((hanswer _ _ _ _).trans (.tellOf _ _ _ _))

/-! ## Ends -/

/-- However a task ends, its progress is all that changes. -/
@[simp] theorem session_finish (s : Session) (t : Nat) (outcome : Except Failure Answer) :
    (s.finish t outcome).session = s.moveTask t .finished := by
  unfold finish
  cases h : (s.tasks[t]?).map Task.job with
  | none =>
    have hle : s.tasks.length ≤ t := by simpa using h
    exact (moveTask_of_length_le _ hle).symm
  | some job => cases job <;> rfl

/-- Ending the task of a call ends the call. -/
theorem finish_call {s : Session} {t : Nat} {c : Call} (hj : s.jobOf t = some (.call c))
    (o : Except Failure Answer) : s.finish t o = ⟨s.moveTask t .finished, [.completed t o]⟩ := by
  unfold finish
  rw [show (s.tasks[t]?).map Task.job = s.jobOf t from rfl, hj]

@[simp] theorem session_succeed (s : Session) (t : Nat) :
    (s.succeed t).session = s.moveTask t .finished := session_finish s t _

@[simp] theorem session_giveUp (s : Session) (t : Nat) (f : Failure) :
    (s.giveUp t f).session = s.moveTask t .finished := session_finish s t _

/-- A session whose disposal is over. -/
theorem session_wrapUp (s : Session) (t : Nat) :
    (s.wrapUp t).session = s.shutDown.moveTask t .finished := by
  rw [wrapUp, Turned.session_after, session_succeed]

/-- What a task that sends a message goes on to: one whose message is refused is over. -/
def sending (s : Session) (next : Progress) : Progress :=
  if s.refusal?.isSome then .finished else next

@[simp] theorem session_transmit (s : Session) (t : Nat) (m : Json) (next : Progress) :
    (s.transmit t m next).session = s.moveTask t (s.sending next) := by
  unfold transmit sending
  cases s.refusal? <;> simp

/-- What is not refused is sent. -/
theorem transmit_of_open {s : Session} (h : s.refusal? = none) (t : Nat) (m : Json) (next : Progress) :
    s.transmit t m next = ⟨s.moveTask t next, [.perform t (.send m)]⟩ := by
  rw [transmit, h]

/-- A request is noted and its task moved, unless it is refused. -/
theorem session_ask (s : Session) (t : Nat) (purpose : Purpose) (method : String) (params : Json) :
    (s.ask t purpose method params).session =
      if s.refusal?.isSome then s.moveTask t .finished
      else { s with
        lastRequest := s.lastRequest + 1
        pending := s.pending ++ [(s.lastRequest + 1, t)] }.moveTask t
          (.requesting purpose (s.lastRequest + 1) false none) := by
  unfold ask
  cases s.refusal? <;> simp

/-- Telling subscribers ends the task or leaves it with one that lets others run. -/
theorem session_tell (s : Session) (t : Nat) (n : Notification) (rs : List Bus.Subscription) :
    ∃ p, (s.tell t n rs).session = s.moveTask t p ∧
      (p = .finished ∨ ∃ who rest, p = .telling who rest) := by
  induction rs with
  | nil => exact ⟨.finished, session_succeed s t, .inl rfl⟩
  | cons r rest ih =>
    simp only [tell]
    split
    · exact ih
    · next who _ =>
      split
      · simpa using ih
      · simpa using ih
      · exact ⟨.telling who rest, rfl, .inr ⟨who, rest, rfl⟩⟩

/-! ## Closedness -/

theorem whyClosed?_eq_none {s : Session} :
    s.whyClosed? = none ↔ s.phase ≠ .disposed ∧ s.ended = none := by
  unfold whyClosed?
  by_cases h : s.phase = .disposed <;> simp [h]

theorem whyClosed?_of_disposed {s : Session} (h : s.phase = .disposed) :
    s.whyClosed? = some "session disposed" := by simp [whyClosed?, h]

theorem isSome_whyClosed?_of_ended {s : Session} {reason : String} (h : s.ended = some reason) :
    s.whyClosed?.isSome = true := by
  unfold whyClosed?
  split
  · rfl
  · rw [h]; rfl

/-- Messages are taken in an open session whose writer runs. -/
theorem refusal?_eq_none {s : Session} :
    s.refusal? = none ↔ s.whyClosed? = none ∧ s.writer ≠ .stopped := by
  unfold refusal?
  cases s.whyClosed? <;> simp

/-- Messages are refused because the session is closed, or else because its writer was stopped. -/
theorem refusal?_cases {s : Session} {f : Failure} (h : s.refusal? = some f) :
    (∃ reason, s.whyClosed? = some reason ∧ f = closedFailure reason) ∨
      s.whyClosed? = none ∧ s.writer = .stopped ∧ f = writerStopped := by
  unfold refusal? at h
  split at h
  · next reason hclosed => exact .inl ⟨reason, hclosed, (Option.some.inj h).symm⟩
  · next hopen =>
    obtain ⟨hstopped, hf⟩ := Option.ite_none_right_eq_some.mp h
    exact .inr ⟨hopen, hstopped, (Option.some.inj hf).symm⟩

end EditorServices.Session
