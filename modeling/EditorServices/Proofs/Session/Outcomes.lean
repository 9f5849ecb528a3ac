import EditorServices.Proofs.Session.Asking

/-!
# `Proofs.Session.Outcomes` — a call is over when its outcome is known, and that is once

Who makes a call learns from an effect that it is over. A turn of a task has at most one such effect, and
has it exactly when it ends the task of a call. So a call is under way until its outcome is known, and
nothing is known of it twice.

## Contents
- **Endings.** `endings`, the calls that are over with some effects, with their outcomes.
- **Parts of turns.** `Settles`, by which a part of a turn goes on with a task or ends it; one lemma for each
  part.
- **One turn.** `Concluded` and `concluded_step`.
-/

namespace EditorServices.Session

/-! ## Endings -/

/-- The call that is over with an effect, and what came of it. -/
def Effect.ended? : Effect → Option (Nat × Except Failure Answer)
  | .completed t o => some (t, o)
  | _ => none

/-- The calls that are over with some effects, in the order in which they ended. -/
def endings (es : List Effect) : List (Nat × Except Failure Answer) := es.filterMap Effect.ended?

@[simp] theorem endings_nil : endings [] = [] := rfl

@[simp] theorem endings_append (es fs : List Effect) : endings (es ++ fs) = endings es ++ endings fs :=
  List.filterMap_append

theorem mem_endings {es : List Effect} {t : Nat} {o : Except Failure Answer} :
    (t, o) ∈ endings es ↔ .completed t o ∈ es := by
  unfold endings
  rw [List.mem_filterMap]
  constructor
  · rintro ⟨e, he, heq⟩
    cases e <;> cases heq
    exact he
  · intro h
    exact ⟨_, h, rfl⟩

theorem endings_map {α : Type} {f : α → Effect} (hf : ∀ x, (f x).ended? = none) (xs : List α) :
    endings (xs.map f) = [] := by
  unfold endings
  rw [List.filterMap_map]
  exact List.filterMap_eq_nil_iff.mpr fun x _ => hf x

/-- What any task could have asked for ends no call. -/
theorem endings_of_allowed {r : Turned} (h : ∀ t, r.Allowed none [] .listen t) : endings r.effects = [] := by
  apply List.filterMap_eq_nil_iff.mpr
  intro e he
  cases e with
  | completed t o => exact absurd (show t = t + 1 from h (t + 1) _ he) (by omega)
  | _ => rfl

@[simp] theorem endings_failPending (s : Session) (reason : String) :
    endings (s.failPending reason).effects = [] :=
  endings_of_allowed fun t => allowed_failPending s t none reason

/-! ## Parts of turns -/

/-- What is let be known of the end of a task. -/
def Job.ending (job : Job) (t : Nat) (o : Except Failure Answer) : List (Nat × Except Failure Answer) :=
  match job with
  | .call _ => [(t, o)]
  | .listen | .answer _ _ _ | .publish _ => []

/-- A part of a turn goes on with a task, or ends it and lets that be known of a call. -/
inductive Settles (job : Job) (t : Nat) (r : Turned) : Prop where
  | goesOn (silent : endings r.effects = []) (going : r.session.progressOf t ≠ some .finished)
  | ends (o : Except Failure Answer) (known : endings r.effects = job.ending t o)
      (finished : r.session.progressOf t = some .finished)

namespace Settles

variable {s : Session} {t : Nat} {job : Job} {p : Progress} {r : Turned}

theorem move {next : Progress} (hnext : next ≠ .finished) {es : List Effect} (hes : endings es = []) :
    Settles job t ⟨s.moveTask t next, es⟩ := by
  refine .goesOn hes ?_
  rw [progressOf_moveTask, if_pos rfl]
  intro h
  obtain ⟨-, -, heq⟩ := Option.map_eq_some_iff.mp h
  exact hnext heq

theorem idle (hk : s.tasks[t]? = some ⟨job, p⟩) (hp : p ≠ .finished) : Settles job t ⟨s, []⟩ := by
  refine .goesOn rfl ?_
  rw [progressOf_of_get hk]
  exact fun heq => hp (Option.some.inj heq)

/-- What is done first ends no call. -/
theorem after (h : Settles job t r) {es : List Effect} (hes : endings es = []) :
    Settles job t (r.after es) := by
  have hsame : endings (r.after es).effects = endings r.effects := by
    rw [Turned.effects_after, endings_append, hes, List.nil_append]
  cases h with
  | goesOn silent going => exact .goesOn (hsame.trans silent) going
  | ends o known finished => exact .ends o (hsame.trans known) finished

end Settles

section

variable {s : Session} {t : Nat} {job : Job} {p : Progress} (hk : s.tasks[t]? = some ⟨job, p⟩)
include hk

theorem settles_finish (o : Except Failure Answer) : Settles job t (s.finish t o) := by
  refine .ends o ?_ ?_
  · unfold finish
    rw [hk]
    cases job with
    | listen =>
      apply endings_map
      intro x
      rfl
    | call | answer | publish => rfl
  · rw [session_finish]
    exact progressOf_moveTask_self (progressOf_of_get hk) .finished

theorem settles_transmit (m : Json) (next : Progress) (hnext : next ≠ .finished) :
    Settles job t (s.transmit t m next) := by
  unfold transmit
  split
  · exact settles_finish hk _
  · exact .move hnext rfl

theorem settles_ask (purpose : Purpose) (method : String) (params : Json) :
    Settles job t (s.ask t purpose method params) := by
  unfold ask
  split
  · exact settles_finish hk _
  · exact .move (by simp) rfl

theorem settles_tell (n : Notification) (rs : List Bus.Subscription) : Settles job t (s.tell t n rs) := by
  induction rs with
  | nil => exact settles_finish hk _
  | cons r rest ih =>
    unfold tell
    split
    · exact ih
    · split
      · exact ih.after rfl
      · exact ih.after rfl
      · exact .move (by simp) rfl

theorem settles_beginCall (c : Call) : Settles job t (s.beginCall t c) := by
  cases c with
  | handshake | openDocument => exact .move (by simp) rfl
  | updateDocument text =>
    show Settles job t (s.beginUpdate t text)
    unfold beginUpdate
    split
    · exact settles_finish hk _
    · refine settles_transmit (s := { s with document := _ }) (p := p) ?_ _ .updating (by simp)
      exact hk
  | closeDocument =>
    show Settles job t (s.beginClose t)
    unfold beginClose
    split
    · exact settles_finish hk _
    · exact settles_transmit hk _ _ (by simp)
  | ask q line character => exact settles_ask hk _ _ _
  | dispose =>
    show Settles job t (s.beginDispose t)
    unfold beginDispose
    split
    · exact settles_finish hk _
    · refine Settles.after (Settles.move (by simp) ?_) rfl
      rw [endings_append, endings_failPending]
      rfl

theorem settles_begin : Settles job t (s.begin t job) := by
  cases job with
  | call c => exact settles_beginCall hk c
  | listen => exact .move (by simp) rfl
  | answer id method params =>
    show Settles _ t (s.beginAnswer t id method params)
    unfold beginAnswer
    split
    · exact settles_finish hk _
    · split
      · exact settles_finish hk _
      · exact settles_transmit hk _ _ (by simp)
  | publish n =>
    show Settles _ t (s.beginPublish t n)
    unfold beginPublish
    split
    · exact settles_finish hk _
    · exact settles_tell hk n _

theorem settles_conclude (purpose : Purpose) (id : Nat) (r : Reply) :
    Settles job t (s.conclude t purpose id r) := by
  have hdropped : (s.dropRequest id).tasks[t]? = some ⟨job, p⟩ := hk
  unfold conclude
  dsimp only
  split
  · exact settles_finish hdropped _
  · split
    · exact (settles_finish hdropped _).after rfl
    · exact settles_transmit hdropped _ _ (by simp)
  · refine (settles_finish hdropped _).after ?_
    split <;> rfl

theorem settles_wrapUp : Settles job t (s.wrapUp t) := by
  refine (settles_finish (s := s.shutDown) hk _).after ?_
  apply endings_map
  intro x
  rfl

theorem settles_channelClosed : Settles job t (s.channelClosed t) := by
  unfold channelClosed
  split
  · exact settles_wrapUp hk
  · refine .move (by simp) ?_
    split <;> rfl

theorem settles_channelOpened : Settles job t (s.channelOpened t) := by
  have hlater : (s.addTask .listen).1.tasks[t]? = some ⟨job, p⟩ := by
    rw [getElem?_addTask, if_neg (Nat.ne_of_lt (List.getElem?_eq_some_iff.mp hk).1), hk]
  exact (settles_ask (s := { (s.addTask .listen).1 with reader := some s.tasks.length }) hlater _ _ _).after
    rfl

theorem settles_continueWith (hp : p ≠ .finished) (text : String) :
    Settles job t (s.continueWith t job text p) := by
  cases p with
  | openingChannel => exact settles_channelOpened hk
  | requesting purpose id written reply =>
    cases written with
    | true => exact .idle hk hp
    | false =>
      cases reply with
      | some r => exact (settles_conclude hk purpose id r).after rfl
      | none => exact .move (by simp) rfl
  | announcing => exact (settles_finish (s := { s with phase := .ready }) hk _).after rfl
  | reading =>
    show Settles job t (s.openWith t text)
    unfold openWith
    dsimp only
    split
    · exact settles_finish hk _
    · refine settles_transmit (s := { s with document := _ }) (p := .reading) ?_ _ .opening (by simp)
      exact hk
  | opening => exact .move (by simp) rfl
  | updating | answering => exact (settles_finish hk _).after rfl
  | closing => exact (settles_finish (s := { s with document := none }) hk _).after rfl
  | closingChannel => exact settles_channelClosed hk
  | created | settling | telling | listening | awaitingReader | finished => exact .idle hk hp

theorem settles_continueWithout (hp : p ≠ .finished) (f : Failure) :
    Settles job t (s.continueWithout t f p) := by
  cases p with
  | requesting purpose id written reply =>
    cases written with
    | true => exact .idle hk hp
    | false => exact settles_finish (s := s.dropRequest id) hk _
  | openingChannel | announcing | reading | opening | updating | closing | answering
  | closingChannel => exact settles_finish hk _
  | created | settling | telling | listening | awaitingReader | finished => exact .idle hk hp

theorem settles_abandon (hp : p ≠ .finished) : Settles job t (s.abandon t p) := by
  cases p with
  | finished => exact absurd rfl hp
  | requesting purpose id written reply => exact settles_finish (s := s.dropRequest id) hk _
  | awaitingReader reader => exact settles_wrapUp hk
  | created | openingChannel | announcing | reading | opening | settling | updating | closing | answering
  | telling | listening | closingChannel => exact settles_finish hk _

theorem settles_streamEnded (hp : p.wait? = none) (reason : String) (error : Option String) :
    Settles job t (s.streamEnded t reason error) := by
  have hnoted : (s.noteEnd (endReason reason error)).session.tasks[t]? = some ⟨job, p⟩ := by
    have hkept := Kept.failPending { s with ended := some (endReason reason error) } (endReason reason error)
    obtain ⟨q, hq, hpq⟩ := hkept.stage (progressOf_of_get hk)
    rw [hpq.eq_of_wait? hp] at hq
    exact task_of_views (hkept.job (jobOf_of_get hk)) hq
  unfold streamEnded
  dsimp only
  refine Settles.after ?_ ?_
  · split
    · exact settles_finish hk _
    · refine (settles_finish hnoted _).after ?_
      rw [noteEnd, Turned.effects_after, endings_append, endings_failPending]
      rfl
  · split <;> rfl

/-- **A turn of a task goes on with it or ends it.** -/
theorem settles_resume (hp : p ≠ .finished) (r : Resumption) : Settles job t (s.resume t r) := by
  unfold resume
  rw [hk]
  dsimp only
  split
  · exact settles_begin hk
  · exact settles_continueWith hk hp _
  · exact settles_continueWithout hk hp _
  · exact settles_conclude hk _ _ _
  · exact settles_finish hk _
  · split
    · exact (settles_tell hk _ _).after rfl
    · exact .idle hk hp
  · exact settles_streamEnded hk rfl _ _
  · exact settles_wrapUp hk
  · exact settles_abandon hk hp
  · exact .idle hk hp

end

/-! ## One turn -/

variable {s : Session} {u : Turn}

/-- A call is under way. -/
def UnderWay (s : Session) (t : Nat) : Prop :=
  (∃ c, s.jobOf t = some (.call c)) ∧ s.progressOf t ≠ some .finished

/-- What a turn does to the calls that are under way. -/
inductive Concluded (s : Session) (u : Turn) : Prop where
  /-- All of them go on. -/
  | none (silent : endings (s.step u).effects = [])
      (goesOn : ∀ v, UnderWay s v → UnderWay (s.step u).session v)
  /-- One of them is over, by a turn of its own, and the others go on. -/
  | one (t : Nat) (o : Except Failure Answer) (turn : u.task? = some t) (before : UnderWay s t)
      (known : endings (s.step u).effects = [(t, o)])
      (finished : (s.step u).session.progressOf t = some .finished)
      (goesOn : ∀ v, v ≠ t → UnderWay s v → UnderWay (s.step u).session v)

/-- A call goes on while others have their turns. -/
theorem UnderWay.elsewhere {v : Nat} (h : UnderWay s v) (ho : Orderly s) (hu : u.task? ≠ some v) :
    UnderWay (s.step u).session v := by
  obtain ⟨⟨c, hj⟩, hgoing⟩ := h
  refine ⟨⟨c, ho.jobOf_step u hj⟩, ?_⟩
  obtain ⟨k, hk, -⟩ := Option.map_eq_some_iff.mp hj
  obtain ⟨q, hq, hpq⟩ := ho.progressOf_step hu (progressOf_of_get hk)
  rw [progressOf_of_get hk] at hgoing
  rw [hq]
  rcases hpq with rfl | ⟨_, _, _, _, -, rfl⟩
  · exact hgoing
  · simp

/-- **What a turn does to the calls that are under way.** -/
theorem concluded_step (ho : Orderly s) (u : Turn) : Concluded s u := by
  cases hu : u.task? with
  | none =>
    refine .none (endings_of_allowed fun t => allowed_step_of_task?_none s hu none [] .listen t) ?_
    intro v hv
    exact hv.elsewhere ho (by rw [hu]; simp)
  | some t =>
    obtain ⟨r, rfl⟩ := Turn.exists_resume hu
    have hidle (hr : s.resume t r = ⟨s, []⟩) : Concluded s (.resume t r) := by
      have hstep : s.step (.resume t r) = ⟨s, []⟩ := hr
      refine .none (by rw [hstep]; rfl) fun v hv => ?_
      rw [hstep]
      exact hv
    cases hk : s.tasks[t]? with
    | none => exact hidle (by rw [resume, hk])
    | some k =>
      obtain ⟨job, p⟩ := k
      by_cases hp : p = .finished
      · exact hidle (resume_finished (by rw [progressOf_of_get hk, hp]) r)
      -- the other calls go on in either case
      have hothers (v : Nat) (hv : v ≠ t) (h : UnderWay s v) :
          UnderWay (s.step (.resume t r)).session v :=
        h.elsewhere ho fun heq => hv (Option.some.inj heq).symm
      have hown (h : UnderWay s t) (going : (s.resume t r).session.progressOf t ≠ some .finished) :
          UnderWay (s.step (.resume t r)).session t := by
        obtain ⟨⟨c, hj⟩, -⟩ := h
        exact ⟨⟨c, ho.jobOf_step _ hj⟩, going⟩
      cases settles_resume hk hp r with
      | goesOn silent going =>
        refine .none silent fun v hv => ?_
        by_cases hvt : v = t
        · exact hvt ▸ hown (hvt ▸ hv) going
        · exact hothers v hvt hv
      | ends o known finished =>
        cases job with
        | call c =>
          refine .one t o rfl ⟨⟨c, jobOf_of_get hk⟩, ?_⟩ known finished hothers
          rw [progressOf_of_get hk]
          exact fun heq => hp (Option.some.inj heq)
        | listen | answer | publish =>
          refine .none known fun v hv => hothers v ?_ hv
          rintro rfl
          obtain ⟨⟨c, hj⟩, -⟩ := hv
          cases (jobOf_of_get hk).symm.trans hj

end EditorServices.Session
