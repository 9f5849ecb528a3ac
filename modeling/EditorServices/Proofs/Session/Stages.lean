import EditorServices.Proofs.Session.Waiting

/-!
# `Proofs.Session.Stages` — every task goes through the stages of its job

What a task waits for tells what it is for: only a closing of the document ever waits for its message
to be written as `closing`, only a question waits for a reply to that question. A turn of a task moves
that task to another stage of the same job; towards all other tasks it may only give replies.

## Contents
- **Stages.** `Progress.IsOf`, by which a stage belongs to a job, and `Orderly`.
- **One turn.** `Kept`, for tasks that are not moved, and `Moved`, for the task whose turn it is.
- **Histories.** `orderly_after`.
-/

namespace EditorServices.Session

/-! ## Stages -/

/-- A stage belongs to a job. -/
def Progress.IsOf : Progress → Job → Prop
  | .created, _ | .finished, _ => True
  | .openingChannel, j | .announcing, j | .requesting .handshake _ _ _, j => j = .call .handshake
  | .requesting (.ask q) _ _ _, j => ∃ line character, j = .call (.ask q line character)
  | .reading, j | .opening, j | .settling, j => j = .call .openDocument
  | .updating, j => ∃ text, j = .call (.updateDocument text)
  | .closing, j => j = .call .closeDocument
  | .answering, j => ∃ id method params, j = .answer id method params
  | .telling _ _, j => ∃ n, j = .publish n
  | .listening, j => j = .listen
  | .closingChannel, j | .awaitingReader _, j => j = .call .dispose

/-- A stage belongs to a job and is not its first: a task comes to it by a turn of its own. -/
def Progress.IsLaterOf : Progress → Job → Prop
  | .created, _ => False
  | p, j => p.IsOf j

theorem Progress.IsLaterOf.isOf {p : Progress} {job : Job} (h : p.IsLaterOf job) : p.IsOf job := by
  cases p with
  | created => trivial
  | _ => exact h

theorem Progress.IsLaterOf.ne_created {p : Progress} {job : Job} (h : p.IsLaterOf job) : p ≠ .created := by
  rintro rfl
  exact h

/-- Every task is at a stage of its job. -/
def Orderly (s : Session) : Prop := ∀ t job p, s.jobOf t = some job → s.progressOf t = some p → p.IsOf job

theorem orderly_new (p : Profile) : Orderly (new p) := by
  intro t job q hj
  cases hj

/-! ## One turn -/

/-- A stage is the same as before, but for a reply that was given. -/
def Progress.UpToReply (p q : Progress) : Prop :=
  q = p ∨ ∃ purpose id written r,
    p = .requesting purpose id written none ∧ q = .requesting purpose id written (some r)

namespace Progress.UpToReply

variable {p q r : Progress}

theorem refl (p : Progress) : p.UpToReply p := .inl rfl

theorem trans (h : p.UpToReply q) (g : q.UpToReply r) : p.UpToReply r := by
  rcases h with rfl | ⟨purpose, id, written, a, rfl, rfl⟩
  · exact g
  · rcases g with rfl | ⟨_, _, _, _, hq, -⟩
    · exact .inr ⟨purpose, id, written, a, rfl, rfl⟩
    · cases hq

/-- A stage without a wait stays. -/
theorem eq_of_wait? (h : p.UpToReply q) (hp : p.wait? = none) : q = p := by
  rcases h with rfl | ⟨purpose, id, written, a, rfl, -⟩
  · rfl
  · cases hp

theorem ne_created (h : p.UpToReply q) (hp : p ≠ .created) : q ≠ .created := by
  rcases h with rfl | ⟨purpose, id, written, a, rfl, rfl⟩
  · exact hp
  · simp

theorem isOf (h : p.UpToReply q) {job : Job} (hp : p.IsOf job) : q.IsOf job := by
  rcases h with rfl | ⟨purpose, id, written, a, rfl, rfl⟩
  · exact hp
  · cases purpose <;> exact hp

end Progress.UpToReply

/-- The tasks of a session are still there and where they were, up to replies; further tasks wait for
their first turn, and none of them is a call. -/
structure Kept (s s' : Session) : Prop where
  job : ∀ {v job}, s.jobOf v = some job → s'.jobOf v = some job
  stage : ∀ {v p}, s.progressOf v = some p → ∃ q, s'.progressOf v = some q ∧ p.UpToReply q
  fresh : ∀ {v}, s.progressOf v = none → s'.progressOf v = none ∨ s'.progressOf v = some .created
  noCall : ∀ {v}, s.jobOf v = none → ∀ c, s'.jobOf v ≠ some (.call c)

namespace Kept

variable {s r q : Session}

theorem ofTasks (h : q.tasks = s.tasks) : Kept s q := by
  refine ⟨fun hj => ?_, fun {v p} hp => ⟨p, ?_, .refl p⟩, fun hp => .inl ?_, fun {v} hj c hc => ?_⟩
  · rw [jobOf, h]; exact hj
  · rw [progressOf, h]; exact hp
  · rw [progressOf, h]; exact hp
  · rw [jobOf, h] at hc
    exact absurd (hj.symm.trans hc) (by simp)

theorem refl (s : Session) : Kept s s := ofTasks rfl

theorem trans (h : Kept s r) (g : Kept r q) : Kept s q := by
  refine ⟨fun hj => g.job (h.job hj), fun hp => ?_, fun hp => ?_, fun {v} hj c hc => ?_⟩
  · obtain ⟨a, ha, hpa⟩ := h.stage hp
    obtain ⟨b, hb, hab⟩ := g.stage ha
    exact ⟨b, hb, hpa.trans hab⟩
  · rcases h.fresh hp with hr | hr
    · exact g.fresh hr
    · obtain ⟨b, hb, hcb⟩ := g.stage hr
      exact .inr (by rw [hb, hcb.eq_of_wait? rfl])
  · cases hr : r.jobOf v with
    | none => exact g.noCall hr c hc
    | some job =>
      obtain rfl : job = .call c := Option.some.inj ((g.job hr).symm.trans hc)
      exact h.noCall hj c hr

theorem ofGrown (h : Grown s q) : Kept s q := by
  refine ⟨fun {v job} hj => ?_, fun {v p} hp => ⟨p, h.progressOf hp, .refl p⟩, h.progressOf_of_none,
    h.jobOf_of_none⟩
  obtain ⟨k, hk, rfl⟩ := Option.map_eq_some_iff.mp hj
  exact jobOf_of_get (h.get hk)

theorem reply (s : Session) (t : Nat) (r : Reply) : Kept s (s.reply t r).session := by
  refine ⟨fun hj => by rw [jobOf_reply]; exact hj, fun {v p} hp => ?_, fun {v} hp => .inl ?_,
    fun {v} hj c => by rw [jobOf_reply, hj]; simp⟩
  · unfold Session.reply
    rw [show (s.tasks[t]?).map Task.progress = s.progressOf t from rfl]
    split
    · next purpose id written ht =>
      by_cases hv : v = t
      · subst hv
        obtain rfl : p = .requesting purpose id written none := Option.some.inj (hp.symm.trans ht)
        exact ⟨.requesting purpose id written (some r), by simp [hp],
          .inr ⟨purpose, id, written, r, rfl, rfl⟩⟩
      · exact ⟨p, by rw [progressOf_moveTask, if_neg hv, hp], .refl p⟩
    · exact ⟨p, hp, .refl p⟩
  · have hw : s.waitOf v = none := by rw [waitOf, hp]; rfl
    rw [progressOf_reply_of_none hw, hp]

theorem failPending (s : Session) (reason : String) : Kept s (s.failPending reason).session :=
  replyAll_preserves (fun x t h => h.trans (.reply x t _)) _ (ofTasks rfl)

theorem receive (s : Session) (m : Json) : Kept s (s.receive m).session := by
  unfold Session.receive
  split
  · split
    · exact ofGrown (grown_receiveMethod s _ _)
    · unfold receiveResponse
      dsimp only
      split
      · split
        · exact (ofTasks rfl : Kept s (s.dropRequest _)).trans (.reply _ _ _)
        · exact .refl s
      · exact .refl s
  · exact .refl s

end Kept

/-- What a turn of a task does to the tasks: nothing, or it moves that task to a later stage of its
job. -/
inductive Moved (s : Session) (t : Nat) (job : Job) (s' : Session) : Prop where
  | idle (kept : Kept s s')
  | moved (q : Session) (p : Progress) (kept : Kept s q) (isOf : p.IsLaterOf job)
      (here : s' = q.moveTask t p)

namespace Moved

variable {s s' : Session} {t : Nat} {job : Job}

theorem ofMove {p : Progress} (h : p.IsLaterOf job) : Moved s t job (s.moveTask t p) :=
  .moved s p (.refl s) h rfl

theorem ofFinish (outcome : Except Failure Answer) : Moved s t job (s.finish t outcome).session := by
  rw [session_finish]
  exact ofMove trivial

theorem ofTransmit (m : Json) (next : Progress) (h : next.IsLaterOf job) :
    Moved s t job (s.transmit t m next).session := by
  rw [session_transmit]
  refine ofMove ?_
  unfold sending
  split
  · trivial
  · exact h

theorem ofTell (n : Notification) (rs : List Bus.Subscription) (h : ∃ m, job = .publish m) :
    Moved s t job (s.tell t n rs).session := by
  obtain ⟨p, hp, hcase⟩ := session_tell s t n rs
  rw [hp]
  refine ofMove ?_
  rcases hcase with rfl | ⟨who, rest, rfl⟩
  · trivial
  · exact h

theorem ofAsk {purpose : Purpose} (method : String) (params : Json)
    (h : ∀ id, Progress.IsLaterOf (.requesting purpose id false none) job) :
    Moved s t job (s.ask t purpose method params).session := by
  rw [session_ask]
  split
  · exact ofMove trivial
  · refine .moved _ (.requesting purpose (s.lastRequest + 1) false none) ?_ (h _) rfl
    exact .ofTasks rfl

/-- What was done before, if it moved no task, makes no difference. -/
theorem ofKept {q : Session} (hq : Kept s q) (h : Moved q t job s') : Moved s t job s' := by
  cases h with
  | idle kept => exact .idle (hq.trans kept)
  | moved r p kept isOf here => exact .moved r p (hq.trans kept) isOf here

/-- The jobs, and the tasks that are not moved. -/
theorem keptElsewhere (h : Moved s t job s') :
    (∀ {v j}, s.jobOf v = some j → s'.jobOf v = some j) ∧
    (∀ {v p}, v ≠ t → s.progressOf v = some p → ∃ q, s'.progressOf v = some q ∧ p.UpToReply q) ∧
    (∀ {v}, v ≠ t → s.progressOf v = none → s'.progressOf v = none ∨ s'.progressOf v = some .created) ∧
    (∀ {v}, s.jobOf v = none → ∀ c, s'.jobOf v ≠ some (.call c)) := by
  cases h with
  | idle kept => exact ⟨kept.job, fun _ => kept.stage, fun _ => kept.fresh, kept.noCall⟩
  | moved q p kept isOf here =>
    subst here
    refine ⟨fun hj => by rw [jobOf_moveTask]; exact kept.job hj, fun hv hp => ?_, fun hv hp => ?_,
      fun hj c => by rw [jobOf_moveTask]; exact kept.noCall hj c⟩
    · rw [progressOf_moveTask, if_neg hv]; exact kept.stage hp
    · rw [progressOf_moveTask, if_neg hv]; exact kept.fresh hp

/-- The task whose turn it is stays within its job. -/
theorem stageOf (h : Moved s t job s') {p : Progress} (hp : s.progressOf t = some p) (hj : p.IsOf job) :
    ∃ q, s'.progressOf t = some q ∧ q.IsOf job := by
  cases h with
  | idle kept =>
    obtain ⟨q, hq, hpq⟩ := kept.stage hp
    exact ⟨q, hq, hpq.isOf hj⟩
  | moved r q kept isOf here =>
    subst here
    obtain ⟨x, hx, -⟩ := kept.stage hp
    exact ⟨q, by rw [progressOf_moveTask, if_pos rfl, hx]; rfl, isOf.isOf⟩

/-- A task that has begun does not begin again. -/
theorem begun (h : Moved s t job s') {p : Progress} (hp : s.progressOf t = some p) (hb : p ≠ .created) :
    s'.progressOf t ≠ some .created := by
  cases h with
  | idle kept =>
    obtain ⟨q, hq, hpq⟩ := kept.stage hp
    rw [hq]
    exact fun heq => hpq.ne_created hb (Option.some.inj heq)
  | moved r q kept isOf here =>
    subst here
    obtain ⟨x, hx, -⟩ := kept.stage hp
    rw [progressOf_moveTask, if_pos rfl, hx]
    exact fun heq => isOf.ne_created (Option.some.inj heq)

end Moved

/-! ### The turns of a task -/

section
variable (s : Session) (t : Nat)

theorem moved_beginCall (c : Call) : Moved s t (.call c) (s.beginCall t c).session := by
  cases c with
  | handshake =>
    refine .moved _ .openingChannel ?_ rfl rfl
    exact .ofTasks rfl
  | openDocument => exact .ofMove rfl
  | updateDocument text =>
    show Moved s t _ (s.beginUpdate t text).session
    unfold beginUpdate
    split
    · exact .ofFinish _
    · refine .ofKept ?_ (.ofTransmit _ .updating ⟨text, rfl⟩)
      exact .ofTasks rfl
  | closeDocument =>
    show Moved s t _ (s.beginClose t).session
    unfold beginClose
    split
    · exact .ofFinish _
    · exact .ofTransmit _ _ rfl
  | ask q line character =>
    show Moved s t _ (s.ask t (.ask q) q.method _).session
    exact .ofAsk _ _ fun _ => ⟨line, character, rfl⟩
  | dispose =>
    show Moved s t _ (s.beginDispose t).session
    unfold beginDispose
    split
    · exact .ofFinish _
    · have hd : Kept s { s with phase := .disposed } := .ofTasks rfl
      have hf := hd.trans (.failPending _ "session disposed")
      refine .moved _ .closingChannel ?_ rfl rfl
      exact hf.trans (.ofTasks rfl)

theorem moved_begin (job : Job) : Moved s t job (s.begin t job).session := by
  cases job with
  | call c => exact moved_beginCall s t c
  | listen => exact .ofMove rfl
  | answer id method params =>
    show Moved s t _ (s.beginAnswer t id method params).session
    unfold beginAnswer
    split
    · exact .ofFinish _
    · split
      · exact .ofFinish _
      · exact .ofTransmit _ .answering ⟨id, method, params, rfl⟩
  | publish n =>
    show Moved s t _ (s.beginPublish t n).session
    unfold beginPublish
    split
    · exact .ofFinish _
    · exact .ofTell _ _ ⟨n, rfl⟩

theorem moved_conclude {purpose : Purpose} {id : Nat} {written : Bool} {reply : Option Reply}
    {job : Job} (h : Progress.IsOf (.requesting purpose id written reply) job) (r : Reply) :
    Moved s t job (s.conclude t purpose id r).session := by
  refine .ofKept (q := s.dropRequest id) (.ofTasks rfl) ?_
  unfold conclude
  dsimp only
  split
  · exact .ofFinish _
  · split
    · exact .ofFinish _
    · exact .ofTransmit _ _ h
  · exact .ofFinish _

theorem moved_wrapUp (job : Job) : Moved s t job (s.wrapUp t).session :=
  .ofKept (q := s.shutDown) (.ofTasks rfl) (.ofFinish _)

theorem moved_channelOpened : Moved s t (.call .handshake) (s.channelOpened t).session := by
  unfold channelOpened
  rw [Turned.session_after]
  have hlisten : Kept s (s.addTask .listen).1 := .ofGrown (.addTask s (by simp))
  refine .ofKept (hlisten.trans ?_) (.ofAsk _ _ fun _ => rfl)
  exact .ofTasks rfl

theorem moved_continueWith {p : Progress} {job : Job} (h : p.IsOf job) (text : String) :
    Moved s t job (s.continueWith t job text p).session := by
  cases p with
  | openingChannel =>
    obtain rfl : job = _ := h
    exact moved_channelOpened s t
  | requesting purpose id written reply =>
    cases written with
    | true => exact .idle (.refl s)
    | false =>
      show Moved s t job (s.requestWritten t purpose id reply).session
      unfold requestWritten
      rw [Turned.session_after]
      cases reply with
      | some r => exact moved_conclude s t h r
      | none => exact .ofMove (by cases purpose <;> exact h)
  | announcing => exact .ofKept (q := { s with phase := .ready }) (.ofTasks rfl) (.ofFinish _)
  | reading =>
    show Moved s t job (s.openWith t text).session
    unfold openWith
    dsimp only
    split
    · exact .ofFinish _
    · refine .ofKept ?_ (.ofTransmit _ .opening h)
      exact .ofTasks rfl
  | opening => exact .ofMove h
  | updating | answering => exact .ofFinish _
  | closing => exact .ofKept (q := { s with document := none }) (.ofTasks rfl) (.ofFinish _)
  | closingChannel =>
    show Moved s t job (s.channelClosed t).session
    unfold channelClosed
    split
    · exact moved_wrapUp s t job
    · exact .ofMove h
  | created | settling | telling | listening | awaitingReader | finished => exact .idle (.refl s)

theorem moved_continueWithout (f : Failure) (p : Progress) (job : Job) :
    Moved s t job (s.continueWithout t f p).session := by
  cases p with
  | requesting purpose id written reply =>
    cases written with
    | true => exact .idle (.refl s)
    | false => exact .ofKept (q := s.dropRequest id) (.ofTasks rfl) (.ofFinish _)
  | openingChannel | announcing | reading | opening | updating | closing | answering
  | closingChannel => exact .ofFinish _
  | created | settling | telling | listening | awaitingReader | finished => exact .idle (.refl s)

theorem moved_abandon (p : Progress) (job : Job) : Moved s t job (s.abandon t p).session := by
  cases p with
  | finished => exact .idle (.refl s)
  | requesting purpose id written reply =>
    exact .ofKept (q := s.dropRequest id) (.ofTasks rfl) (.ofFinish _)
  | awaitingReader reader => exact moved_wrapUp s t job
  | created | openingChannel | announcing | reading | opening | settling | updating | closing | answering
  | telling | listening | closingChannel => exact .ofFinish _

theorem moved_streamEnded (reason : String) (error : Option String) (job : Job) :
    Moved s t job (s.streamEnded t reason error).session := by
  unfold streamEnded
  dsimp only
  rw [Turned.session_after, Turned.session_andThen]
  refine .ofKept ?_ (.ofFinish _)
  split
  · exact .refl s
  · have he : Kept s { s with ended := some (endReason reason error) } := .ofTasks rfl
    exact he.trans (.failPending _ _)

/-- **A turn of a task moves that task within its job, and no other task.** -/
theorem moved_resume {job : Job} {p : Progress} (hk : s.tasks[t]? = some ⟨job, p⟩) (h : p.IsOf job)
    (r : Resumption) : Moved s t job (s.resume t r).session := by
  unfold resume
  rw [hk]
  dsimp only
  split
  · exact moved_begin s t job
  · exact moved_continueWith s t h _
  · exact moved_continueWithout s t _ _ _
  · exact moved_conclude s t h _
  · exact .ofFinish _
  · split
    · exact .ofTell _ _ ⟨_, rfl⟩
    · exact .idle (.refl s)
  · exact moved_streamEnded s t _ _ _
  · exact moved_wrapUp s t _
  · exact moved_abandon s t _ _
  · exact .idle (.refl s)

end

/-- The task whose turn it is. -/
def Turn.task? : Turn → Option Nat
  | .resume t _ => some t
  | _ => none

theorem Turn.exists_resume {u : Turn} {t : Nat} (hu : u.task? = some t) : ∃ r, u = .resume t r := by
  cases u <;> cases hu
  exact ⟨_, rfl⟩

theorem task_of_views {s : Session} {t : Nat} {job : Job} {p : Progress} (hj : s.jobOf t = some job)
    (hp : s.progressOf t = some p) : s.tasks[t]? = some ⟨job, p⟩ := by
  obtain ⟨k, hk, rfl⟩ := Option.map_eq_some_iff.mp hj
  rw [progressOf_of_get hk] at hp
  cases hp
  exact hk

/-- A task that is over does nothing when it is resumed. -/
theorem resume_finished {s : Session} {t : Nat} (hp : s.progressOf t = some .finished) (r : Resumption) :
    s.resume t r = ⟨s, []⟩ := by
  obtain ⟨⟨job, p⟩, hk, rfl⟩ := Option.map_eq_some_iff.mp hp
  rw [resume, hk]
  cases r with
  | returned x => cases x <;> rfl
  | begins | replied | rested | streamEnded | readerFinished | cancelled => rfl

/-- A task that waits for its first turn takes no other. -/
theorem resume_created {s : Session} {t : Nat} {job : Job} {r : Resumption}
    (hk : s.tasks[t]? = some ⟨job, .created⟩) (hbegins : r ≠ .begins) (hcancelled : r ≠ .cancelled) :
    s.resume t r = ⟨s, []⟩ := by
  rw [resume, hk]
  cases r with
  | begins => exact absurd rfl hbegins
  | cancelled => exact absurd rfl hcancelled
  | returned x => cases x <;> rfl
  | replied | rested | streamEnded | readerFinished => rfl

/-- The first turn of a disposal disposes of the session. -/
theorem phase_dispose {s : Session} {t : Nat} (hj : s.jobOf t = some (.call .dispose))
    (hp : s.progressOf t = some .created) : (s.step (.resume t .begins)).session.phase = .disposed := by
  show (s.resume t .begins).session.phase = .disposed
  rw [resume, task_of_views hj hp]
  show (s.beginDispose t).session.phase = .disposed
  unfold beginDispose
  split
  · next hphase => rw [session_succeed, phase_moveTask, hphase]
  · simp

namespace Orderly

variable {s : Session} (h : Orderly s)
include h

/-- A call adds its task; another turn that is nobody's moves no task, and a turn of a task moves that
one only. -/
theorem kept_or_moved (u : Turn) :
    (∃ c, u = .call c ∧ (s.step u).session = (s.addTask (.call c)).1) ∨ Kept s (s.step u).session ∨
      ∃ t r job p, u = .resume t r ∧ s.jobOf t = some job ∧ s.progressOf t = some p ∧
        Moved s t job (s.step u).session := by
  cases u with
  | call c => exact .inl ⟨c, rfl, rfl⟩
  | receive m => exact .inr (.inl (.receive s m))
  | account t f => exact .inr (.inl (.ofTasks rfl))
  | resume t r =>
    cases hk : s.tasks[t]? with
    | none =>
      refine .inr (.inl ?_)
      show Kept s (s.resume t r).session
      rw [resume, hk]
      exact .refl s
    | some k =>
      have hj := jobOf_of_get hk
      have hp := progressOf_of_get hk
      exact .inr (.inr
        ⟨t, r, k.job, k.progress, rfl, hj, hp, moved_resume s t hk (h t _ _ hj hp) r⟩)

/-- No task changes its job. -/
theorem jobOf_step (u : Turn) {v : Nat} {job : Job} (hj : s.jobOf v = some job) :
    (s.step u).session.jobOf v = some job := by
  rcases h.kept_or_moved u with ⟨c, -, hs⟩ | hk | ⟨t, r, _, _, -, -, -, hm⟩
  · rw [hs, jobOf_addTask, if_neg, hj]
    rintro rfl
    simp [jobOf] at hj
  · exact hk.job hj
  · exact hm.keptElsewhere.1 hj

/-- A task whose turn it is not stays where it is, up to a reply. -/
theorem progressOf_step {u : Turn} {v : Nat} {p : Progress} (hu : u.task? ≠ some v)
    (hp : s.progressOf v = some p) :
    ∃ q, (s.step u).session.progressOf v = some q ∧ p.UpToReply q := by
  rcases h.kept_or_moved u with ⟨c, -, hs⟩ | hk | ⟨t, r, _, _, rfl, -, -, hm⟩
  · refine ⟨p, ?_, .refl p⟩
    rw [hs, progressOf_addTask, if_neg (Nat.ne_of_lt (lt_of_progressOf hp)), hp]
  · exact hk.stage hp
  · exact hm.keptElsewhere.2.1 (fun hv => hu (by rw [hv]; rfl)) hp

/-- A task that appears waits for its first turn. -/
theorem progressOf_fresh (u : Turn) {v : Nat} (hp : s.progressOf v = none) :
    (s.step u).session.progressOf v = none ∨ (s.step u).session.progressOf v = some .created := by
  rcases h.kept_or_moved u with ⟨c, -, hs⟩ | hk | ⟨t, r, _, _, rfl, -, ht, hm⟩
  · rw [hs, progressOf_addTask]
    split
    · exact .inr rfl
    · exact .inl hp
  · exact hk.fresh hp
  · exact hm.keptElsewhere.2.2.1 (by rintro rfl; rw [hp] at ht; cases ht) hp

/-- A call that appears was just made. -/
theorem jobOf_fresh {u : Turn} {v : Nat} {c : Call} (hj : s.jobOf v = none)
    (hc : (s.step u).session.jobOf v = some (.call c)) : u = .call c ∧ v = s.tasks.length := by
  rcases h.kept_or_moved u with ⟨d, rfl, hs⟩ | hk | ⟨t, r, _, _, rfl, -, -, hm⟩
  · rw [hs, jobOf_addTask] at hc
    split at hc
    · next hv =>
      cases hc
      exact ⟨rfl, hv⟩
    · rw [hj] at hc
      cases hc
  · exact absurd hc (hk.noCall hj c)
  · exact absurd hc (hm.keptElsewhere.2.2.2 hj c)

theorem step (u : Turn) : Orderly (s.step u).session := by
  intro v job q hj hq
  cases hp : s.progressOf v with
  | none =>
    rcases h.progressOf_fresh u hp with hn | hc
    · rw [hn] at hq; cases hq
    · obtain rfl : Progress.created = q := Option.some.inj (hc.symm.trans hq)
      trivial
  | some p =>
    obtain ⟨job', hjob'⟩ : ∃ j, s.jobOf v = some j := by
      obtain ⟨k, hk, -⟩ := Option.map_eq_some_iff.mp hp
      exact ⟨k.job, jobOf_of_get hk⟩
    obtain rfl : job' = job := Option.some.inj ((h.jobOf_step u hjob').symm.trans hj)
    have hpj := h v job' p hjob' hp
    by_cases hu : u.task? = some v
    · rcases h.kept_or_moved u with ⟨c, rfl, -⟩ | hk | ⟨t, r, job, p', rfl, htj, htp, hm⟩
      · cases hu
      · obtain ⟨x, hx, hpx⟩ := hk.stage hp
        obtain rfl : x = q := Option.some.inj (hx.symm.trans hq)
        exact hpx.isOf hpj
      · obtain rfl : t = v := Option.some.inj hu
        obtain rfl : job = job' := Option.some.inj (htj.symm.trans hjob')
        obtain ⟨x, hx, hxj⟩ := hm.stageOf hp hpj
        obtain rfl : x = q := Option.some.inj (hx.symm.trans hq)
        exact hxj
    · obtain ⟨x, hx, hpx⟩ := h.progressOf_step hu hp
      obtain rfl : x = q := Option.some.inj (hx.symm.trans hq)
      exact hpx.isOf hpj

/-- A task that has begun does not begin again. -/
theorem begun_step (u : Turn) {t : Nat} {p : Progress} (hp : s.progressOf t = some p)
    (hb : p ≠ .created) : (s.step u).session.progressOf t ≠ some .created := by
  by_cases hut : u.task? = some t
  · rcases h.kept_or_moved u with ⟨c, rfl, -⟩ | hk | ⟨v, r, job, p', rfl, -, -, hm⟩
    · cases hut
    · obtain ⟨q, hq, hpq⟩ := hk.stage hp
      rw [hq]
      exact fun heq => hpq.ne_created hb (Option.some.inj heq)
    · obtain rfl : v = t := Option.some.inj hut
      exact hm.begun hp hb
  · obtain ⟨q, hq, hpq⟩ := h.progressOf_step hut hp
    rw [hq]
    exact fun heq => hpq.ne_created hb (Option.some.inj heq)

/-- A task that is over stays over. -/
theorem finished_step (u : Turn) {t : Nat} (hp : s.progressOf t = some .finished) :
    (s.step u).session.progressOf t = some .finished := by
  by_cases hut : u.task? = some t
  · obtain ⟨r, rfl⟩ := Turn.exists_resume hut
    show (s.resume t r).session.progressOf t = _
    rw [resume_finished hp]
    exact hp
  · obtain ⟨q, hq, hpq⟩ := h.progressOf_step hut hp
    rw [hq, hpq.eq_of_wait? rfl]

/-- No task changes its job in a history. -/
theorem jobOf_after (hs : List Turn) {t : Nat} {job : Job} (hj : s.jobOf t = some job) :
    (s.after hs).jobOf t = some job := by
  have hboth : Orderly (s.after hs) ∧ (s.after hs).jobOf t = some job :=
    after_preserves (P := fun q => Orderly q ∧ q.jobOf t = some job)
      (fun q v hq => ⟨hq.1.step v, hq.1.jobOf_step v hq.2⟩) ⟨h, hj⟩ hs
  exact hboth.2

end Orderly

/-- Every task is at a stage of its job after every history. -/
theorem orderly_after (p : Profile) (h : List Turn) : Orderly ((new p).after h) :=
  after_preserves (fun _ u hs => hs.step u) (orderly_new p) h

end EditorServices.Session
