import EditorServices.Proofs.Session.Correlation
import EditorServices.Proofs.Session.Opening
import Mathlib.Data.List.Infix

/-!
# `Proofs.Session.EndOfChannel` — no question outlives the channel

Once a session has ended, each of its questions has an end that is settled: what is pending has failed in
the turn that ended the session, what was answered before keeps its answer unless its request cannot be
written after all, and what is asked later fails before it is sent. The headline
`no_question_outlives_channel` says so for every order in which a loop may serve what it was asked for.

The invariant is `Bound`. It names the outcomes that a task may still have, and it is kept by every
occurrence after the end, however the turns of the task, late results and late disposals follow one
another. That the outcome is also reached is `Remembered`: nothing is pending any longer, so each question
that is not over has something in the loop that makes it go on.

A server may answer a request that it was not sent yet. Its task then still waits for the request to be
written, and a failure of that is what its caller gets: `WriteFails`. That a request is `Writable` rules it
out.

## Contents
- **Requests that are not written.** `WriteFails`, and `completed_of_writeFails`.
- **The end.** `Initialized`, `EndsAt`, and `over_step`.
- **Settled outcomes.** `Bound`, `Bound.step` and `bound_run`.
- **Writable requests.** `Writable` and `writeFails_run`.
- **At the end.** What is settled in the turn that ends the session: `bound_of_waiting`, `bound_of_unasked`.
- **The headline.** `no_question_outlives_channel`.
-/

namespace EditorServices.Session

/-! ## Requests that are not written -/

/-- In a history, the request of a task could not be written: the task learns why while it waits for that. -/
def WriteFails (p : Profile) (h : List Turn) (t : Nat) (f : Failure) : Prop :=
  ∃ a b w, h = a ++ .resume t (.returned (.error f)) :: b ∧ ((new p).after a).waitOf t = some w ∧
    w.written = false

theorem WriteFails.append {p : Profile} {h : List Turn} {t : Nat} {f : Failure} (hf : WriteFails p h t f)
    (us : List Turn) : WriteFails p (h ++ us) t f := by
  obtain ⟨a, b, w, rfl, hw, unwritten⟩ := hf
  exact ⟨a, b ++ us, w, by simp, hw, unwritten⟩

/-- A request that could not be written could not be before, or it turns out in the last turn. -/
theorem writeFails_snoc {p : Profile} {h : List Turn} {u : Turn} {t : Nat} {f : Failure}
    (hf : WriteFails p (h ++ [u]) t f) : WriteFails p h t f ∨ u = .resume t (.returned (.error f)) ∧
      ∃ w, ((new p).after h).waitOf t = some w ∧ w.written = false := by
  obtain ⟨a, b, w, heq, hw, unwritten⟩ := hf
  rcases List.eq_nil_or_concat b with rfl | ⟨b, v, rfl⟩
  · obtain ⟨rfl, hu⟩ := List.append_inj' heq rfl
    exact .inr ⟨List.singleton_inj.mp hu, w, hw, unwritten⟩
  · rw [List.concat_eq_append, ← List.cons_append, ← List.append_assoc] at heq
    obtain ⟨rfl, -⟩ := List.append_inj' heq rfl
    exact .inl ⟨a, b, w, rfl, hw, unwritten⟩

/-- A question whose request could not be written fails for that, whatever its reply is. -/
theorem completed_unwritten {s : Session} (ho : Orderly s) {t : Nat} {q : Query} {line character : Json}
    (hj : s.jobOf t = some (.call (.ask q line character))) {w : Wait} (hw : s.waitOf t = some w)
    (unwritten : w.written = false) (f : Failure) (o : Except Failure Answer) :
    .completed t o ∈ (s.resume t (.returned (.error f))).effects ↔ o = .error f := by
  obtain ⟨purpose, id, written, reply⟩ := w
  obtain rfl : written = false := unwritten
  obtain ⟨p', -, hturn⟩ := questionTurn_resume hj ho (progressOf_of_waitOf hw) (.returned (.error f))
  generalize (s.resume t (.returned (.error f))).effects = es at hturn
  cases hturn with
  | idle passed => cases passed
  | ended ends done =>
    rw [done]
    cases ends with
    | unwritten => rfl
    | failed concludes => cases concludes
    | answered concludes => cases concludes

namespace Loop

/-- **A request that could not be written ends its question**, and there is one reason why it could not. -/
theorem completed_of_writeFails (p : Profile) (peer : Channel.Peer) (surroundings : Channel.Surroundings)
    {g : List Occurrence} {t : Nat} {f : Failure}
    (hf : WriteFails p ((new p peer surroundings).run g).taken t f)
    (hq : ∀ job, ((new p peer surroundings).run g).session.jobOf t = some job → job.IsQuestion) :
    f = Channel.notOpen ∧
      ∀ o, .completed t o ∈ ((new p peer surroundings).run g).effects ↔ o = .error f := by
  induction g using List.reverseRecOn with
  | nil =>
    obtain ⟨a, b, w, heq, -⟩ := hf
    simp [run, new] at heq
  | append_singleton g x ih =>
    have hs := sound_run p peer surroundings g
    rw [run_append] at hf hq ⊢
    generalize (new p peer surroundings).run g = l at hs ih hf hq ⊢
    change WriteFails p (l.step x).taken t f at hf
    change ∀ job, (l.step x).session.jobOf t = some job → job.IsQuestion at hq
    show f = Channel.notOpen ∧ ∀ o, .completed t o ∈ (l.step x).effects ↔ o = .error f
    generalize hl : l.step x = l' at hf hq ⊢
    have hstepped := stepped_step l x
    rw [hl] at hstepped
    cases hstepped with
    | outside => exact ih hf hq
    | operation => exact ih hf hq
    | turn u demands arrived prompted =>
      have hbefore : ∀ job, l.session.jobOf t = some job → job.IsQuestion :=
        fun job hj => hq job (hs.orderly.jobOf_step u hj)
      have heffects (o : Except Failure Answer) :
          .completed t o ∈ (({ l with demands := demands, arrived := arrived } : Loop).take u).effects ↔
            .completed t o ∈ l.effects ∨ .completed t o ∈ (l.session.step u).effects := List.mem_append
      rcases writeFails_snoc hf with hf | ⟨rfl, w, hw, unwritten⟩
      · -- it is over, so that nothing else comes of it
        obtain ⟨hnotOpen, hknown⟩ := ih hf hbefore
        obtain ⟨job, hj, hover⟩ := hs.completed t _ ((hknown _).mpr rfl)
        refine ⟨hnotOpen, fun o => ?_⟩
        rw [heffects, hknown]
        exact or_iff_left (not_completed_of_finished (hover (hbefore job hj)) u o)
      · rw [← hs.session] at hw
        obtain ⟨⟨job, _⟩, hk, -⟩ := Option.map_eq_some_iff.mp (progressOf_of_waitOf hw)
        obtain ⟨q, line, character, rfl⟩ := hbefore job (jobOf_of_get hk)
        refine ⟨?_, fun o => ?_⟩
        · cases prompted with
          | demanded mem =>
            obtain ⟨job, hj, hnotOpen⟩ := hs.fits _ mem
            exact hnotOpen (hbefore job hj) f rfl
        · rw [heffects]
          refine Iff.trans (or_iff_right fun ho => ?_)
            (completed_unwritten hs.orderly (jobOf_of_get hk) hw unwritten f o)
          obtain ⟨job, hj, hover⟩ := hs.completed t o ho
          rw [progressOf_of_waitOf hw] at hover
          cases hover (hbefore job hj)

/-! ## The end -/

/-- A handshake was begun and has succeeded, and none is on its way. -/
def Initialized (l : Loop) : Prop := l.session.phase = .ready ∧ Shaken l.session

/-- A turn that ends an open session is taken in an occurrence. -/
def EndsAt (l : Loop) (x : Occurrence) (u : Turn) : Prop :=
  (l.step x).taken = l.taken ++ [u] ∧ EndTurn l.session u

variable {p : Profile} {l : Loop}

/-- What the occurrence of a turn does. -/
theorem stepped_of_taken {x : Occurrence} {u : Turn} (h : (l.step x).taken = l.taken ++ [u]) :
    ∃ demands arrived, Prompted l x u ∧ (∀ d ∈ demands, d ∈ l.demands) ∧
      l.step x = { l with demands := demands, arrived := arrived }.take u := by
  generalize hl : l.step x = l' at h
  have hx := stepped_step l x
  rw [hl] at hx
  have hnot (heq : l.taken = l.taken ++ [u]) : False := by
    have := congrArg List.length heq
    simp at this
  cases hx with
  | outside => exact (hnot h).elim
  | operation => exact (hnot h).elim
  | turn v demands arrived prompted old _ =>
    obtain rfl : v = u := by
      have heq : l.taken ++ [v] = l.taken ++ [u] := h
      exact List.singleton_inj.mp (List.append_cancel_left heq)
    exact ⟨demands, arrived, prompted, old, rfl⟩

/-- While no handshake is begun, a session that has ended has ended for good. -/
theorem over_step (hs : Sound p l) (h : Over l.session) {x : Occurrence} (hx : x ≠ .call .handshake) :
    Over (l.step x).session := by
  rcases session_step l x with heq | ⟨u, prompted, heq⟩
  · rw [heq]
    exact h
  · rw [heq]
    refine h.step hs.orderly ?_
    rintro rfl
    exact hx (prompted.eq_call hs)

theorem shaken_step (hs : Sound p l) (h : Shaken l.session) {x : Occurrence}
    (hx : x ≠ .call .handshake) : Shaken (l.step x).session := by
  rcases session_step l x with heq | ⟨u, prompted, heq⟩
  · rw [heq]
    exact h
  · rw [heq]
    refine h.step hs.orderly ?_
    rintro rfl
    exact hx (prompted.eq_call hs)

/-! ## Settled outcomes -/

/-- The outcomes that a task may still have, unless its request cannot be written. -/
structure Bound (P : Except Failure Answer → Prop) (p : Profile) (l : Loop) (t : Nat) : Prop where
  /-- What is not asked yet fails before it is sent. -/
  unasked : l.session.progressOf t = none ∨ l.session.progressOf t = some .created →
    ∀ reason, P (.error (closedFailure reason))
  /-- What waits has its reply. -/
  waiting : ∀ q id written reply,
    l.session.progressOf t = some (.requesting (.ask q) id written reply) →
    ∃ r, reply = some r ∧ P (q.outcome r)
  completed : ∀ o, .completed t o ∈ l.effects → P o ∨ ∃ f, o = .error f ∧ WriteFails p l.taken t f

namespace Bound

variable {P : Except Failure Answer → Prop} {t : Nat}

/-- A question ends as it has to. -/
theorem outcome (h : Bound P p l t) (hs : Sound p l) (closed : l.session.whyClosed?.isSome = true)
    {x : Occurrence} {u : Turn} (prompted : Prompted l x u)
    (gaveUp : x = .giveUp t → P (.error .cancelled)) {q : Query} {line character : Json}
    (hj : l.session.jobOf t = some (.call (.ask q line character))) {o : Except Failure Answer}
    (ho : .completed t o ∈ (l.session.step u).effects) :
    P o ∨ ∃ f, o = .error f ∧ WriteFails p (l.taken ++ [u]) t f := by
  have hu := task?_of_completed ho
  obtain ⟨r, rfl⟩ := Turn.exists_resume hu
  -- the reply that a question has is the one that it is bound to
  have hreply {id : Nat} {rep : Reply} (hc : Concludes l.session (.resume t r) t id rep) :
      P (q.outcome rep) := by
    have hp : ∃ purpose written, l.session.progressOf t = some (.requesting purpose id written (some rep)) := by
      cases hc with
      | replied waits => exact ⟨_, _, waits⟩
      | found waits => exact ⟨_, _, waits⟩
    obtain ⟨purpose, written, hp⟩ := hp
    have hisOf := hs.orderly t _ _ hj hp
    cases purpose with
    | handshake => cases hisOf
    | ask q' =>
      obtain ⟨_, _, heq⟩ := hisOf
      cases heq
      obtain ⟨r', hr', hP⟩ := h.waiting _ _ _ _ hp
      cases hr'
      exact hP
  cases completed_question hj hs.orderly ho with
  | refused created why =>
    rcases refusal?_cases why with ⟨reason, -, rfl⟩ | ⟨hopen, -⟩
    · exact .inl (h.unasked (.inr created) reason)
    · rw [hopen] at closed
      cases closed
  | cancelled =>
    cases prompted with
    | gaveUp => exact .inl (gaveUp rfl)
    | demanded mem =>
      obtain ⟨job, hjob, hcall⟩ := hs.fits _ mem
      exact absurd (Option.some.inj (hjob.symm.trans hj)) (hcall _)
  | @unwritten id reply f waits =>
    exact .inr ⟨f, rfl, l.taken, [], _, rfl, hs.session ▸ waitOf_of_progressOf waits, rfl⟩
  | failed concludes => exact .inl (hreply concludes)
  | answered concludes => exact .inl (hreply concludes)

/-- What a bound task may still end with depends on its stage only. -/
def Stages (P : Except Failure Answer → Prop) (p : Option Progress) : Prop :=
  (p = none ∨ p = some .created → ∀ reason, P (.error (closedFailure reason))) ∧
    ∀ q id written reply, p = some (.requesting (.ask q) id written reply) →
      ∃ r, reply = some r ∧ P (q.outcome r)

theorem stages_now (h : Bound P p l t) : Stages P (l.session.progressOf t) := ⟨h.unasked, h.waiting⟩

theorem stages_finished : Stages P (some .finished) := by
  refine ⟨fun hx => ?_, fun q id written reply hx => ?_⟩
  · rcases hx with hx | hx <;> cases hx
  · cases hx

/-- A bound task whose turn it is, in a closed session: it stays where it was, or is over. -/
theorem stages_own (h : Bound P p l t) (hs : Sound p l) (closed : l.session.whyClosed?.isSome = true)
    {q : Query} {line character : Json} (hj : l.session.jobOf t = some (.call (.ask q line character)))
    (r : Resumption) : Stages P ((l.session.resume t r).session.progressOf t) := by
  obtain ⟨⟨job, p'⟩, hk, -⟩ := Option.map_eq_some_iff.mp hj
  have hp := progressOf_of_get hk
  obtain ⟨p'', hp'', hturn⟩ := questionTurn_resume hj hs.orderly hp r
  have hsends (m : Json) : .perform t (.send m) ∉ (l.session.resume t r).effects := by
    intro hm
    rw [whyClosed?_of_sends (u := .resume t r) hm] at closed
    cases closed
  have hnow := h.stages_now
  rw [hp] at hnow
  rw [hp'']
  generalize (l.session.resume t r).effects = es at hturn hsends
  cases hturn with
  | idle => exact hnow
  | asked => exact absurd (List.mem_singleton_self _) (hsends _)
  | written =>
    -- a bound task has its reply
    obtain ⟨r, hr, -⟩ := h.waiting _ _ _ _ hp
    cases hr
  | ended => exact stages_finished

/-- The stages that a bound task can come to in a closed session. -/
theorem stages (h : Bound P p l t) (hs : Sound p l) (closed : l.session.whyClosed?.isSome = true)
    (hq : ∀ job, l.session.jobOf t = some job → job.IsQuestion) (u : Turn) :
    Stages P ((l.session.step u).session.progressOf t) := by
  have ho := hs.orderly
  have hnow := h.stages_now
  cases hp : l.session.progressOf t with
  | none =>
    rw [hp] at hnow
    rcases ho.progressOf_fresh u hp with hn | hc
    · rw [hn]
      exact hnow
    · rw [hc]
      refine ⟨fun _ => hnow.1 (.inl rfl), fun q id written reply hx => ?_⟩
      cases hx
  | some p' =>
    by_cases hu : u.task? = some t
    · obtain ⟨r, rfl⟩ := Turn.exists_resume hu
      obtain ⟨⟨job, _⟩, hk, -⟩ := Option.map_eq_some_iff.mp hp
      obtain ⟨q, line, character, rfl⟩ := hq job (jobOf_of_get hk)
      exact h.stages_own hs closed (jobOf_of_get hk) r
    · obtain ⟨q', hq', hpq⟩ := ho.progressOf_step hu hp
      rw [hq']
      rcases hpq with rfl | ⟨purpose, id, written, r, rfl, rfl⟩
      · rw [hp] at hnow
        exact hnow
      · -- a reply that is given now is not the one that it is bound to
        refine ⟨fun hx => ?_, fun q id written reply hx => ?_⟩
        · rcases hx with hx | hx <;> cases hx
        · cases hx
          obtain ⟨r', hr', -⟩ := h.waiting _ _ _ _ hp
          cases hr'

/-- **What is settled stays settled.** -/
theorem step (h : Bound P p l t) (hs : Sound p l) (closed : l.session.whyClosed?.isSome = true)
    {x : Occurrence} (gaveUp : x = .giveUp t → P (.error .cancelled))
    (hq : ∀ job, l.session.jobOf t = some job → job.IsQuestion) : Bound P p (l.step x) t := by
  generalize hl : l.step x = l'
  have hstepped := stepped_step l x
  rw [hl] at hstepped
  cases hstepped with
  | outside => exact ⟨h.unasked, h.waiting, h.completed⟩
  | operation => exact ⟨h.unasked, h.waiting, h.completed⟩
  | turn u demands arrived prompted =>
    obtain ⟨hunasked, hwaiting⟩ := h.stages hs closed hq u
    refine ⟨hunasked, hwaiting, fun o ho => ?_⟩
    rcases List.mem_append.mp ho with ho | ho
    · exact (h.completed o ho).imp_right fun ⟨f, hof, hf⟩ => ⟨f, hof, hf.append [u]⟩
    · obtain ⟨job, hj, -⟩ := hs.over_of_completed ho
      obtain ⟨q, line, character, rfl⟩ := hq job hj
      exact h.outcome hs closed prompted gaveUp hj ho

end Bound

/-- Jobs are kept by every row of occurrences. -/
theorem jobOf_run (hs : Sound p l) (h : List Occurrence) {t : Nat} {job : Job}
    (hj : l.session.jobOf t = some job) : (l.run h).session.jobOf t = some job := by
  have hboth := run_preserves (P := fun l => Sound p l ∧ l.session.jobOf t = some job)
    (Q := fun _ => True) (fun l x _ hl => ⟨hl.1.step x, ?_⟩) (h := h) (fun _ _ => trivial) ⟨hs, hj⟩
  · exact hboth.2
  · rcases session_step l x with heq | ⟨u, -, heq⟩
    · rw [heq]
      exact hl.2
    · rw [heq]
      exact hl.1.orderly.jobOf_step u hl.2

/-- **What is settled at the end of a session stays settled.** -/
theorem bound_run {P : Except Failure Answer → Prop} {t : Nat} {h : List Occurrence} (hs : Sound p l)
    (hover : Over l.session) (hb : Bound P p l t) (once : ∀ x ∈ h, x ≠ .call .handshake)
    (gaveUp : .giveUp t ∈ h → P (.error .cancelled))
    (hq : ∀ job, (l.run h).session.jobOf t = some job → job.IsQuestion) : Bound P p (l.run h) t := by
  induction h generalizing l with
  | nil => exact hb
  | cons x h ih =>
    -- a task that is a question in the end was one before
    have hnow : ∀ job, l.session.jobOf t = some job → job.IsQuestion :=
      fun job hj => hq job (jobOf_run hs (x :: h) hj)
    exact ih (hs.step x) (over_step hs hover (once x List.mem_cons_self))
      (hb.step hs hover.closed (fun hg => gaveUp (hg ▸ List.mem_cons_self)) hnow)
      (fun y hy => once y (List.mem_cons_of_mem _ hy)) (fun hg => gaveUp (List.mem_cons_of_mem _ hg)) hq

/-! ## Writable requests -/

/-- The request of a task does not fail to be written: it was written, or the channel stays open because
the session is left alone. -/
structure Writable (alone : Prop) (l : Loop) (t : Nat) : Prop where
  unfailed : ∀ f, .turn (.resume t (.returned (.error f))) ∉ l.demands
  sent : (∀ o, .operation t o ∉ l.demands) ∨ alone ∧ Reliable l

/-- A question asks for its request to be sent, and for no other operation. -/
theorem send_of_question (hs : Sound p l) {t : Nat}
    (hq : ∀ job, l.session.jobOf t = some job → job.IsQuestion) {o : Operation}
    (mem : .operation t o ∈ l.demands) : ∃ m, o = .send m := by
  obtain ⟨job, hj, hof⟩ := hs.fits _ mem
  obtain ⟨q, line, character, rfl⟩ := hq job hj
  cases o with
  | send m => exact ⟨m, rfl⟩
  | openChannel | closeChannel | readFile => cases hof

namespace Writable

variable {alone : Prop} {t : Nat}

/-- In a closed session, a request that was written stays so. -/
theorem step (h : Writable alone l t) (hs : Sound p l) (closed : l.session.whyClosed?.isSome = true)
    (hq : ∀ job, l.session.jobOf t = some job → job.IsQuestion) {x : Occurrence}
    (hx : alone → x ≠ .call .dispose) : Writable alone (l.step x) t := by
  refine ⟨fun f hf => ?_, h.sent.imp (fun none_left o mem => ?_) fun ⟨halone, channel⟩ =>
    ⟨halone, channel.step hs (hx halone)⟩⟩
  · rcases returned_mem_step hf with hf | ⟨o, text, mem, hresult⟩
    · exact h.unfailed f hf
    · rcases h.sent with none_left | ⟨-, channel⟩
      · exact none_left o mem
      · obtain ⟨m, rfl⟩ := send_of_question hs hq mem
        exact channel.sends text m f hresult
  · rcases operation_mem_step mem with mem | ⟨u, he⟩
    · exact none_left o mem
    · -- a closed session sends nothing
      obtain ⟨-, job, hj, hof⟩ := operation_of_perform he
      obtain ⟨q, line, character, rfl⟩ := hq job hj
      cases o with
      | send m =>
        rw [whyClosed?_of_sends he] at closed
        cases closed
      | openChannel | closeChannel | readFile => cases hof

/-- A request that does not fail to be written is not known to have failed in the next occurrence. -/
theorem writeFails (h : Writable alone l t) {x : Occurrence} {f : Failure}
    (hf : WriteFails p (l.step x).taken t f) : WriteFails p l.taken t f := by
  generalize hl : l.step x = l' at hf
  have hstepped := stepped_step l x
  rw [hl] at hstepped
  cases hstepped with
  | outside => exact hf
  | operation => exact hf
  | turn u demands arrived prompted =>
    refine (writeFails_snoc hf).resolve_right ?_
    rintro ⟨rfl, -⟩
    cases prompted with
    | demanded mem => exact h.unfailed f mem

end Writable

/-- **A request that was written, or is when its channel is left alone, does not fail to be written.** -/
theorem writeFails_run {alone : Prop} {t : Nat} {h : List Occurrence} (hs : Sound p l)
    (hover : Over l.session) (hw : Writable alone l t) (once : ∀ x ∈ h, x ≠ .call .handshake)
    (hx : alone → ∀ x ∈ h, x ≠ .call .dispose)
    (hq : ∀ job, (l.run h).session.jobOf t = some job → job.IsQuestion) {f : Failure}
    (hf : WriteFails p (l.run h).taken t f) : WriteFails p l.taken t f := by
  induction h generalizing l with
  | nil => exact hf
  | cons x h ih =>
    refine hw.writeFails (ih (hs.step x) (over_step hs hover (once x List.mem_cons_self)) ?_
      (fun y hy => once y (List.mem_cons_of_mem _ hy))
      (fun ha y hy => hx ha y (List.mem_cons_of_mem _ hy)) hq hf)
    exact hw.step hs hover.closed (fun job hj => hq job (jobOf_run hs (x :: h) hj))
      fun ha => hx ha x List.mem_cons_self

/-! ## At the end -/

/-- A loop has not forgotten a task: its end was made known, or what makes it go on is to be served. -/
def Remembered (l : Loop) (t : Nat) : Prop :=
  (∃ o, .completed t o ∈ l.effects) ∨
    ∃ p d, l.session.progressOf t = some p ∧ d ∈ l.demands ∧ d.Moves t p

/-- Nothing waits for the server after the end. -/
theorem remembered_of_over (hs : Sound p l) (hover : Over l.session) {t : Nat} {job : Job}
    (hj : l.session.jobOf t = some job) (hq : job.IsQuestion) : Remembered l t := by
  cases hs.attended t job hj hq with
  | demanded q d here mem moves => exact .inr ⟨q, d, here, mem, moves⟩
  | ended o _ known => exact .inl ⟨o, known⟩
  | waiting purpose id here =>
    have hmem := hs.consistent.mem_pending (waitOf_of_progressOf here) rfl
    rw [hover.pending] at hmem
    cases hmem

/-- **After the end nothing is sent any more.** -/
theorem effects_run_of_over (hs : Sound p l) (hover : Over l.session) {h : List Occurrence}
    (once : ∀ x ∈ h, x ≠ .call .handshake) :
    ∃ more, (l.run h).effects = l.effects ++ more ∧ ∀ t m, .perform t (.send m) ∉ more := by
  induction h generalizing l with
  | nil => exact ⟨[], (List.append_nil _).symm, fun t m hm => by cases hm⟩
  | cons x h ih =>
    obtain ⟨more, hmore, hnone⟩ := ih (hs.step x) (over_step hs hover (once x List.mem_cons_self))
      fun y hy => once y (List.mem_cons_of_mem _ hy)
    obtain ⟨now, hnow, hquiet⟩ : ∃ now, (l.step x).effects = l.effects ++ now ∧
        ∀ t m, .perform t (.send m) ∉ now := by
      generalize hl : l.step x = l'
      have hstepped := stepped_step l x
      rw [hl] at hstepped
      cases hstepped with
      | outside => exact ⟨[], (List.append_nil _).symm, fun t m hm => by cases hm⟩
      | operation => exact ⟨[], (List.append_nil _).symm, fun t m hm => by cases hm⟩
      | turn u =>
        refine ⟨(l.session.step u).effects, rfl, fun t m hm => ?_⟩
        have hclosed := hover.closed
        rw [whyClosed?_of_sends hm] at hclosed
        cases hclosed
    refine ⟨now ++ more, by rw [← List.append_assoc, ← hnow]; exact hmore, fun t m hm => ?_⟩
    rcases List.mem_append.mp hm with hm | hm
    · exact hquiet t m hm
    · exact hnone t m hm

theorem endTurn_inside {s : Session} {u : Turn} (h : EndTurn s u) (m : Json) : u ≠ .receive m := by
  rcases h.2 with ⟨t, reason, error, rfl, -⟩ | ⟨t, rfl, -⟩ <;> simp

/-- The turn that ends a session is not one of a task that waits for a request. -/
theorem task?_ne_of_endTurn {s : Session} {u : Turn} (h : EndTurn s u) {t : Nat} {w : Wait}
    (hw : s.waitOf t = some w) : u.task? ≠ some t := by
  intro hu
  have hp := progressOf_of_waitOf hw
  rcases h.2 with ⟨v, reason, error, rfl, hv⟩ | ⟨v, rfl, -, hv⟩
  · obtain rfl : v = t := Option.some.inj hu
    rw [hv] at hp
    cases hp
  · obtain rfl : v = t := Option.some.inj hu
    rw [hv] at hp
    cases hp

/-- A question that waits when the session ends is settled: it has the reply that it had, or the failure
of all that is pending. -/
theorem bound_of_waiting {P : Except Failure Answer → Prop} (hs : Sound p l) (hshaken : Shaken l.session)
    {x : Occurrence} {u : Turn} (ends : EndsAt l x u) {t : Nat} {q : Query} {line character : Json}
    (hj : l.session.jobOf t = some (.call (.ask q line character))) {w : Wait}
    (hw : l.session.waitOf t = some w)
    (hreply : ∀ r, (w.reply = some r ∨ w.reply = none ∧ ∃ reason, r = .error (closedFailure reason)) →
      P (q.outcome r)) : Bound P p (l.step x) t := by
  have hend := ends.2
  have hp := progressOf_of_waitOf hw
  have hu := task?_ne_of_endTurn hend hw
  have hover := over_of_endTurn hs.orderly hshaken hend
  have hcons := (hs.step x).consistent
  obtain ⟨demands, arrived, -, old, hstep⟩ := stepped_of_taken ends.1
  rw [hstep] at hcons ⊢
  obtain ⟨purpose, id, written, reply⟩ := w
  obtain rfl : purpose = .ask q := by
    have hisOf := hs.orderly t _ _ hj hp
    cases purpose with
    | handshake => cases hisOf
    | ask q' =>
      obtain ⟨_, _, heq⟩ := hisOf
      cases heq
      rfl
  obtain ⟨p', hp', hpq⟩ := hs.orderly.progressOf_step hu hp
  refine ⟨fun hx => ?_, fun q' id' written' reply' hx => ?_, fun o ho => ?_⟩
  · -- it still waits for its request
    change (l.session.step u).session.progressOf t = none ∨
      (l.session.step u).session.progressOf t = some .created at hx
    rw [hp'] at hx
    rcases hpq with rfl | ⟨_, _, _, _, -, rfl⟩ <;> rcases hx with hx | hx <;> cases hx
  · change (l.session.step u).session.progressOf t = _ at hx
    rw [hp'] at hx
    obtain rfl := Option.some.inj hx
    rcases hpq with heq | ⟨_, _, _, r, heq, heq'⟩
    · cases heq
      cases reply with
      | some r => exact ⟨r, rfl, hreply r (.inl rfl)⟩
      | none =>
        -- nothing is pending any longer
        have hmem := hcons.mem_pending (waitOf_of_progressOf hp') rfl
        change _ ∈ (l.session.step u).session.pending at hmem
        rw [hover.pending] at hmem
        cases hmem
    · cases heq
      cases heq'
      obtain ⟨reason, rfl⟩ :=
        reply_of_inside hw rfl (endTurn_inside hend) (waitOf_of_progressOf hp') rfl
      exact ⟨_, rfl, hreply _ (.inr ⟨rfl, reason, rfl⟩)⟩
  · rcases List.mem_append.mp ho with ho | ho
    · obtain ⟨job, hjob, hover'⟩ := hs.completed t o ho
      obtain rfl := Option.some.inj (hjob.symm.trans hj)
      rw [hover' ⟨q, line, character, rfl⟩] at hp
      cases hp
    · exact absurd (task?_of_completed ho) hu

/-- A question that is not asked before the session ended is settled too. -/
theorem bound_of_unasked {P : Except Failure Answer → Prop} (hs : Sound p l) {t : Nat}
    (hp : l.session.progressOf t = none ∨ l.session.progressOf t = some .created)
    (hq : ∀ job, l.session.jobOf t = some job → job.IsQuestion)
    (hP : ∀ reason, P (.error (closedFailure reason))) : Bound P p l t := by
  refine ⟨fun _ => hP, fun q id written reply hr => ?_, fun o ho => ?_⟩
  · rw [hr] at hp
    rcases hp with hp | hp <;> cases hp
  · obtain ⟨job, hj, hover⟩ := hs.completed t o ho
    rw [hover (hq job hj)] at hp
    rcases hp with hp | hp <;> cases hp

/-- The request of a task does not fail before the stream ends, if the session is not disposed of while the
task waits for it. -/
theorem unfailed_run (p : Profile) (peer : Channel.Peer) (surroundings : Channel.Surroundings)
    {g : List Occurrence} {t : Nat} (h : ∀ a, a <+: g →
      ((new p peer surroundings).run a).session.waitOf t ≠ none →
      ((new p peer surroundings).run a).session.phase ≠ .disposed) :
    Unfailed ((new p peer surroundings).run g).session t := by
  induction g using List.reverseRecOn with
  | nil =>
    intro _ w f hw
    cases hw
  | append_singleton g x ih =>
    have hbefore := ih fun a ha => h a (ha.trans (List.prefix_append g [x]))
    have hnow := h (g ++ [x]) List.prefix_rfl
    have hs := sound_run p peer surroundings g
    rw [run_append] at hnow ⊢
    show Unfailed (((new p peer surroundings).run g).step x).session t
    change (((new p peer surroundings).run g).step x).session.waitOf t ≠ none →
      (((new p peer surroundings).run g).step x).session.phase ≠ .disposed at hnow
    rcases session_step ((new p peer surroundings).run g) x with heq | ⟨u, -, heq⟩
    · rw [heq]
      exact hbefore
    · rw [heq] at hnow ⊢
      exact hbefore.step hs.orderly hnow

/-! ## The headline -/

/-- The failure of what no channel carries any longer. -/
def IsClosed (o : Except Failure Answer) : Prop := ∃ reason cause, o = .error (.channelClosed reason cause)

theorem isClosed_closedFailure (reason : String) : IsClosed (.error (closedFailure reason)) :=
  ⟨reason, none, rfl⟩

/-- A question has no other end than one of a kind, unless its caller gives up; and it does end, once the
loop has served what it was asked for. -/
def EndsWith (P : Except Failure Answer → Prop) (l : Loop) (h : List Occurrence) (t : Nat) : Prop :=
  (∀ o, .completed t o ∈ l.effects → P o ∨ o = .error .cancelled ∧ .giveUp t ∈ h) ∧ l.Remembered t

/-- The request of a task was not written so far, or could not be. -/
def Unsent (l : Loop) (t : Nat) : Prop :=
  (∃ o, .operation t o ∈ l.demands) ∨ ∃ f, .turn (.resume t (.returned (.error f))) ∈ l.demands

/-- What was settled at the end of a session comes about. -/
theorem endsWith_of_bound {P : Except Failure Answer → Prop} {h : List Occurrence} (hs : Sound p l)
    (hover : Over l.session) (once : ∀ x ∈ h, x ≠ .call .handshake) {t : Nat} {q : Query}
    {line character : Json} (hj : (l.run h).session.jobOf t = some (.call (.ask q line character)))
    (hb : Bound (fun o => P o ∨ o = .error .cancelled ∧ .giveUp t ∈ h) p l t)
    (unwritten : ∀ f, WriteFails p (l.run h).taken t f → P (.error f)) : EndsWith P (l.run h) h t := by
  have hbound := bound_run hs hover hb once (fun hg => .inr ⟨rfl, hg⟩) (isQuestion_of_ask hj)
  have hlater : Sound p (l.run h) ∧ Over (l.run h).session :=
    run_preserves (P := fun l => Sound p l ∧ Over l.session)
      (fun l x hx hl => ⟨hl.1.step x, over_step hl.1 hl.2 hx⟩) once ⟨hs, hover⟩
  refine ⟨fun o ho => ?_, remembered_of_over hlater.1 hlater.2 hj ⟨q, line, character, rfl⟩⟩
  rcases hbound.completed o ho with hP | ⟨f, rfl, hf⟩
  · exact hP
  · exact .inl (unwritten f hf)

/-- A question whose request is sent on a reliable channel does not fail to send it. -/
theorem unfailing_run {t : Nat} {h : List Occurrence} (hs : Sound p l) (hr : Reliable l)
    (hnone : ∀ f, .turn (.resume t (.returned (.error f))) ∉ l.demands)
    (hx : ∀ x ∈ h, x ≠ .call .dispose)
    (hq : ∀ job, (l.run h).session.jobOf t = some job → job.IsQuestion) :
    Reliable (l.run h) ∧ ∀ f, .turn (.resume t (.returned (.error f))) ∉ (l.run h).demands := by
  induction h generalizing l with
  | nil => exact ⟨hr, hnone⟩
  | cons x h ih =>
    refine ih (hs.step x) (hr.step hs (hx x List.mem_cons_self)) (fun f hmem => ?_)
      (fun y hy => hx y (List.mem_cons_of_mem _ hy)) hq
    rcases returned_mem_step hmem with hmem | ⟨o, text, mem, hf⟩
    · exact hnone f hmem
    · obtain ⟨m, rfl⟩ := send_of_question hs
        (fun job hj => hq job (jobOf_run hs (x :: h) hj)) mem
      exact hr.sends text m f hf

/-- The channel of a session that was initialized is open, and no request of a question that is called
after that has failed, as long as nobody disposes of the session. -/
theorem unfailing_of_initialized (p : Profile) (peer : Channel.Peer) (surroundings : Channel.Surroundings)
    {g₁ g₂ : List Occurrence} (ready : ((new p peer surroundings).run g₁).session.phase = .ready)
    (alone : ∀ y ∈ g₁ ++ g₂, y ≠ .call .dispose) {t : Nat}
    (later : ((new p peer surroundings).run g₁).session.jobOf t = none) {q : Query} {line character : Json}
    (hj : ((new p peer surroundings).run (g₁ ++ g₂)).session.jobOf t
      = some (.call (.ask q line character))) :
    Reliable ((new p peer surroundings).run (g₁ ++ g₂)) ∧
      ∀ f, .turn (.resume t (.returned (.error f))) ∉ ((new p peer surroundings).run (g₁ ++ g₂)).demands := by
  have hfirst := sound_run p peer surroundings g₁
  have hreliable : Reliable ((new p peer surroundings).run g₁) :=
    ⟨leftAlone_run p peer surroundings fun y hy => alone y (List.mem_append_left _ hy),
      (opened_run p peer surroundings g₁).ready ready⟩
  have hnone : ∀ f, .turn (.resume t (.returned (.error f))) ∉
      ((new p peer surroundings).run g₁).demands := by
    intro f hmem
    obtain ⟨job, hjob, -⟩ := hfirst.fits _ hmem
    rw [later] at hjob
    cases hjob
  rw [run_append] at hj ⊢
  exact unfailing_run hfirst hreliable hnone (fun y hy => alone y (List.mem_append_right _ hy))
    (isQuestion_of_ask hj)

section
variable (hs : Sound p l) (hshaken : Shaken l.session) {x : Occurrence} {u : Turn}
  (ends : EndsAt l x u) {h : List Occurrence} (once : ∀ y ∈ h, y ≠ .call .handshake) {t : Nat} {q : Query}
  {line character : Json} (hj : l.session.jobOf t = some (.call (.ask q line character))) {w : Wait}
  (hw : l.session.waitOf t = some w)
include hs hshaken ends

/-- The session is over after the occurrence in which it ends. -/
theorem over_of_endsAt : Over (l.step x).session := by
  obtain ⟨demands, arrived, -, -, hstep⟩ := stepped_of_taken ends.1
  rw [hstep]
  exact over_of_endTurn hs.orderly hshaken ends.2

include once hj hw

/-- A question without an answer fails. -/
theorem endsWith_isClosed (unanswered : ∀ m, ¬ FirstAnswer p l.taken t w.id m)
    (unwritten : ∀ f, WriteFails p ((l.step x).run h).taken t f → IsClosed (.error f)) :
    EndsWith IsClosed ((l.step x).run h) h t := by
  have hjob := jobOf_run hs (x :: h) hj
  refine endsWith_of_bound (hs.step x) (over_of_endsAt hs hshaken ends) once hjob ?_ unwritten
  refine bound_of_waiting hs hshaken ends hj hw fun r hr => .inl ?_
  -- a reply that is no answer tells of the end of the session
  rcases hr with hr | ⟨-, reason, rfl⟩
  · cases r with
    | ok m =>
      rw [hs.session] at hw
      exact absurd ((traced p l.taken t w hw).answered m hr) (unanswered m)
    | error f =>
      obtain ⟨reason, rfl⟩ := blamed_after p l.taken t w f (hs.session ▸ hw) hr
      exact isClosed_closedFailure reason
  · exact isClosed_closedFailure reason

/-- A question that was answered keeps its answer, if its request does not fail to be written. -/
theorem endsWith_answer {m : Json} (answered : FirstAnswer p l.taken t w.id m)
    (unfailed : Unfailed l.session t)
    (written : ∀ f, ¬ WriteFails p ((l.step x).run h).taken t f) :
    EndsWith (· = q.answer m) ((l.step x).run h) h t := by
  have hjob := jobOf_run hs (x :: h) hj
  have hreply : w.reply = some (.ok m) := by
    rcases reply_of_firstAnswer (hs.session ▸ hw) answered with hr | ⟨f, hr⟩
    · exact hr
    · exact absurd hr (unfailed (whyClosed?_eq_none.mp ends.2.1).2 w f hw)
  refine endsWith_of_bound (hs.step x) (over_of_endsAt hs hshaken ends) once hjob ?_
    fun f hf => absurd hf (written f)
  refine bound_of_waiting hs hshaken ends hj hw fun r hr => .inl ?_
  rw [hreply] at hr
  rcases hr with hr | ⟨hr, -⟩
  · obtain rfl := Option.some.inj hr
    rfl
  · cases hr

/-- A request that was written before the session ends, or is when its channel is left alone, does not fail
to be written after that. -/
theorem not_writeFails (alone : Prop)
    (sent : ¬ Unsent l t ∨ alone ∧ Reliable l ∧ ∀ f, .turn (.resume t (.returned (.error f))) ∉ l.demands)
    (hx : alone → ∀ y ∈ x :: h, y ≠ .call .dispose) (before : ∀ f, ¬ WriteFails p l.taken t f)
    (f : Failure) : ¬ WriteFails p ((l.step x).run h).taken t f := by
  have hquestion := isQuestion_of_ask (jobOf_run hs (x :: h) hj)
  have hown := task?_ne_of_endTurn ends.2 hw
  obtain ⟨demands, arrived, -, old, hstep⟩ := stepped_of_taken ends.1
  have hwritable : Writable alone (l.step x) t := by
    refine ⟨fun f hmem => ?_, ?_⟩
    · rw [hstep] at hmem
      have hbefore := old _ (returned_mem_take hmem)
      rcases sent with hsent | ⟨-, -, hnone⟩
      · exact hsent (.inr ⟨f, hbefore⟩)
      · exact hnone f hbefore
    · rcases sent with hsent | ⟨ha, hreliable, -⟩
      · refine .inl fun o hmem => hsent (.inl ⟨o, ?_⟩)
        -- the turn that ends the session is not one of this task, so it asks for nothing for it
        rw [hstep] at hmem
        rcases operation_mem_take hmem with hmem | he
        · exact old _ hmem
        · exact absurd (operation_of_perform he).1 hown
      · exact .inr ⟨ha, hreliable.step hs (hx ha x List.mem_cons_self)⟩
  intro hf
  have hf := writeFails_run (hs.step x) (over_of_endsAt hs hshaken ends) hwritable once
    (fun ha y hy => hx ha y (List.mem_cons_of_mem _ hy)) hquestion hf
  rw [ends.1] at hf
  rcases writeFails_snoc hf with hf | ⟨rfl, -⟩
  · exact before f hf
  · exact hown rfl

end

/-- In the turn in which the end of the stream is seen, all that arrived was handed over. -/
theorem arrived_of_streamEnded (hs : Sound p l) {x : Occurrence} {t : Nat} {reason : String}
    {error : Option String}
    (h : (l.step x).taken = l.taken ++ [.resume t (.streamEnded reason error)]) : l.arrived = [] := by
  obtain ⟨_, _, prompted, -, -⟩ := stepped_of_taken h
  cases prompted with
  | demanded mem => exact (hs.fits _ mem).elim
  | streamEnded _ _ _ none_left => exact none_left

/-- **No question outlives the channel.** A session was initialized, and no other handshake is begun. In
an occurrence `x` it ends: its reader sees the end of the inbound stream, or somebody disposes of it.
Then, whatever the loop does afterwards,

* nothing is pending, and each question that waited without an answer fails because the channel is closed;
* if it is the stream that ended, then all that arrived before was handed over, in its order; and a
  question that was answered, without a disposal while it waited, ends with that answer, if its request does
  not fail to be written. If that does fail, the question ends with the failure, which is one of a closed
  channel. It cannot, once the request was written, or while nobody disposes of the session if the question
  was asked after the handshake;
* each question that is asked later fails in the same way, and nothing is asked to be sent.

A caller may always give up, and no question is forgotten. -/
theorem no_question_outlives_channel (p : Profile) (peer : Channel.Peer)
    (surroundings : Channel.Surroundings) {g₁ g₂ h : List Occurrence} {x : Occurrence} {u : Turn}
    (initialized : Initialized ((new p peer surroundings).run g₁))
    (once : ∀ y ∈ g₂ ++ x :: h, y ≠ .call .handshake)
    (ends : EndsAt ((new p peer surroundings).run (g₁ ++ g₂)) x u) :
    let before := (new p peer surroundings).run (g₁ ++ g₂)
    let later := (before.step x).run h
    (later.session.pending = [] ∧
      ∀ t q line character w, before.session.jobOf t = some (.call (.ask q line character)) →
        before.session.waitOf t = some w → (∀ m, ¬ FirstAnswer p before.taken t w.id m) →
        EndsWith IsClosed later h t) ∧
    ((∀ t reason error, u = .resume t (.streamEnded reason error) →
        before.taken.filterMap Turn.message? = arrivals (g₁ ++ g₂)) ∧
      ∀ t q line character w m, before.session.jobOf t = some (.call (.ask q line character)) →
        before.session.waitOf t = some w → FirstAnswer p before.taken t w.id m →
        (∀ a, a <+: g₁ ++ g₂ → ((new p peer surroundings).run a).session.waitOf t ≠ none →
          ((new p peer surroundings).run a).session.phase ≠ .disposed) →
        ((∀ f, ¬ WriteFails p later.taken t f) → EndsWith (· = q.answer m) later h t) ∧
        (∀ f, WriteFails p later.taken t f →
          IsClosed (.error f) ∧ ∀ o, .completed t o ∈ later.effects ↔ o = .error f) ∧
        (¬ Unsent before t ∨ ((new p peer surroundings).run g₁).session.jobOf t = none ∧
          (∀ y ∈ g₁ ++ g₂ ++ x :: h, y ≠ .call .dispose) → ∀ f, ¬ WriteFails p later.taken t f)) ∧
    (∀ t q line character, later.session.jobOf t = some (.call (.ask q line character)) →
      ((before.step x).session.progressOf t = none ∨
        (before.step x).session.progressOf t = some .created) → EndsWith IsClosed later h t) ∧
    ∃ more, later.effects = (before.step x).effects ++ more ∧ ∀ t m, .perform t (.send m) ∉ more := by
  intro before later
  have hfirst := sound_run p peer surroundings g₁
  have hs : Sound p before := sound_run p peer surroundings (g₁ ++ g₂)
  have hshaken : Shaken before.session := by
    show Shaken ((new p peer surroundings).run (g₁ ++ g₂)).session
    rw [run_append]
    have hboth := run_preserves (P := fun l => Sound p l ∧ Shaken l.session)
      (fun l y hy hl => ⟨hl.1.step y, shaken_step hl.1 hl.2 hy⟩)
      (fun y hy => once y (List.mem_append_left _ hy)) ⟨hfirst, initialized.2⟩
    exact hboth.2
  have hlater : ∀ y ∈ h, y ≠ .call .handshake :=
    fun y hy => once y (List.mem_append_right _ (List.mem_cons_of_mem _ hy))
  have hover := over_of_endsAt hs hshaken ends
  have hoverLater := run_preserves (P := fun l => Sound p l ∧ Over l.session)
    (fun l y hy hl => ⟨hl.1.step y, over_step hl.1 hl.2 hy⟩) hlater ⟨hs.step x, hover⟩
  -- a request that could not be written fails as what no channel carries
  have hrun : later = (new p peer surroundings).run (g₁ ++ g₂ ++ x :: h) :=
    (run_append (new p peer surroundings) (g₁ ++ g₂) (x :: h)).symm
  have hunwritten {t : Nat} {q : Query} {line character : Json}
      (hj : later.session.jobOf t = some (.call (.ask q line character))) (f : Failure)
      (hf : WriteFails p later.taken t f) :
      IsClosed (.error f) ∧ ∀ o, .completed t o ∈ later.effects ↔ o = .error f := by
    have hq := isQuestion_of_ask hj
    rw [hrun] at hf hq ⊢
    obtain ⟨rfl, hknown⟩ := completed_of_writeFails p peer surroundings hf hq
    exact ⟨⟨_, _, rfl⟩, hknown⟩
  refine ⟨⟨hoverLater.2.pending, fun t q line character w hj hw unanswered =>
    endsWith_isClosed hs hshaken ends hlater hj hw unanswered fun f hf =>
      (hunwritten (jobOf_run hs (x :: h) hj) f hf).1⟩, ⟨fun t reason error hu => ?_,
    fun t q line character w m hj hw answered undisposed =>
      ⟨endsWith_answer hs hshaken ends hlater hj hw answered
        (unfailed_run p peer surroundings undisposed), hunwritten (jobOf_run hs (x :: h) hj),
        fun sent => ?_⟩⟩,
    fun t q line character hj hp => ?_, effects_run_of_over (hs.step x) hover hlater⟩
  · have hreceived := (sound_new p peer surroundings).received_run (g₁ ++ g₂)
    change before.taken.filterMap Turn.message? ++ before.arrived = _ at hreceived
    rw [arrived_of_streamEnded hs (hu ▸ ends.1), List.append_nil] at hreceived
    exact hreceived
  · have hbefore : ∀ f, ¬ WriteFails p before.taken t f := by
      -- a task that waits is not over
      intro f hf
      obtain ⟨-, hknown⟩ := completed_of_writeFails p peer surroundings hf (isQuestion_of_ask hj)
      obtain ⟨job, hjob, hfinished⟩ := hs.completed t _ ((hknown _).mpr rfl)
      rw [progressOf_of_waitOf hw] at hfinished
      cases hfinished (isQuestion_of_ask hj job hjob)
    refine not_writeFails hs hshaken ends hlater hj hw (∀ y ∈ g₁ ++ g₂ ++ x :: h, y ≠ .call .dispose)
      (sent.imp_right fun hnew => ?_) (fun halone y hy => halone y (List.mem_append_right _ hy)) hbefore
    exact ⟨hnew.2, unfailing_of_initialized p peer surroundings initialized.1
      (fun y hy => hnew.2 y (List.mem_append_left _ hy)) hnew.1 hj⟩
  · refine endsWith_of_bound (hs.step x) hover hlater hj ?_ fun f hf => (hunwritten hj f hf).1
    exact bound_of_unasked (hs.step x) hp
      (fun job hjob => isQuestion_of_ask hj job (jobOf_run (hs.step x) h hjob))
      fun reason => .inl (isClosed_closedFailure reason)

/-- Two hovers wait when the stream ends, and the server answered the second of them: that one ends with its
answer, though its turn comes after the end, and the other one fails. -/
theorem hovers_end_with_channel :
    let p : Profile := ⟨"/a.txt", .str "text", "/", .int 0, false, false, 1⟩
    let start := new p .streams ⟨⟨"linux", none⟩, [], none, none, false, false, false, 0⟩
    let now (place : Nat) : Occurrence := .serve place (.ok "")
    let hover : Occurrence := .call (.ask .hover (.int 1) (.int 2))
    let answer (id : Int) : Occurrence := .arrive (.obj [("id", .int id)])
    let handshake := [.call .handshake, now 0, now 0, now 0, now 0, now 0, now 0, answer 1, now 0, now 1,
      now 1, now 1]
    let hovers := [hover, hover, now 1, now 1, now 1, now 2, now 1, now 1, answer 3,
      .endStream "closed" none, now 0]
    let later := ((start.run (handshake ++ hovers)).step (now 0)).run [now 0, now 0]
    EndsWith IsClosed later [now 0, now 0] 2 ∧
      EndsWith (· = .ok (.text "")) later [now 0, now 0] 3 := by
  intro p start now hover answer handshake hovers later
  obtain ⟨⟨-, hclosed⟩, ⟨-, hanswered⟩, -⟩ := @no_question_outlives_channel p .streams
    ⟨⟨"linux", none⟩, [], none, none, false, false, false, 0⟩
    handshake hovers [now 0, now 0] (now 0) (.resume 1 (.streamEnded "closed" none))
    ⟨by decide +kernel, shaken_of_tasks (by decide +kernel)⟩ (by simp [hovers, now, hover, answer])
    ⟨by decide +kernel, by decide +kernel, .inl ⟨1, "closed", none, rfl, by decide +kernel⟩⟩
  -- what the two hovers wait for
  have hs : (start.run (handshake ++ hovers)).session
      = (Session.new p).after (start.run (handshake ++ hovers)).taken :=
    (sound_run p .streams _ (handshake ++ hovers)).session
  have hwaits : (start.run (handshake ++ hovers)).session.waitOf 2
      = some ⟨.ask .hover, 2, true, none⟩ := by decide +kernel
  have hreplied : (start.run (handshake ++ hovers)).session.waitOf 3
      = some ⟨.ask .hover, 3, true, some (.ok (.obj [("id", .int 3)]))⟩ := by decide +kernel
  have hunanswered : ∀ m, ¬ FirstAnswer p (start.run (handshake ++ hovers)).taken 2 2 m := by
    intro m hm
    rw [hs] at hwaits
    rcases reply_of_firstAnswer hwaits hm with h | ⟨f, h⟩ <;> cases h
  have hanswer : FirstAnswer p (start.run (handshake ++ hovers)).taken 3 3 (.obj [("id", .int 3)]) := by
    have hwait := hreplied
    rw [hs] at hwait
    exact (traced p _ 3 _ hwait).answered _ rfl
  have hundisposed : ∀ a ∈ (handshake ++ hovers).inits, (start.run a).session.phase ≠ .disposed := by
    decide +kernel
  have hdemands : (start.run (handshake ++ hovers)).demands
      = [.listening 1, .turn (.resume 3 .replied)] := by decide +kernel
  have hsent : ¬ Unsent (start.run (handshake ++ hovers)) 3 := by
    unfold Unsent
    rw [hdemands]
    simp
  have hfirst := hclosed 2 .hover (.int 1) (.int 2) _ (by decide +kernel) hwaits hunanswered
  obtain ⟨hkeeps, -, hwritten⟩ := hanswered 3 .hover (.int 1) (.int 2) _ (.obj [("id", .int 3)])
    (by decide +kernel) hreplied hanswer (fun a ha _ => hundisposed a ((List.mem_inits a _).mpr ha))
  have hsecond := hkeeps (hwritten (.inl hsent))
  rw [show Query.hover.answer (.obj [("id", .int 3)]) = .ok (.text "") by decide +kernel] at hsecond
  exact ⟨hfirst, hsecond⟩

/-- The server answers a hover that it was not sent yet, and the stream ends. When the request is at last to
be written, the session was disposed of and its channel is closed: the hover fails, and its answer is lost. -/
theorem hover_loses_answer_unwritten :
    let p : Profile := ⟨"/a.txt", .str "text", "/", .int 0, false, false, 1⟩
    let start := new p .streams ⟨⟨"linux", none⟩, [], none, none, false, false, false, 0⟩
    let now (place : Nat) : Occurrence := .serve place (.ok "")
    let answer (id : Int) : Occurrence := .arrive (.obj [("id", .int id)])
    let handshake := [.call .handshake, now 0, now 0, now 0, now 0, now 0, now 0, answer 1, now 0, now 1,
      now 1, now 1]
    let hover := [.call (.ask .hover (.int 1) (.int 2)), now 1, answer 2, now 0, .endStream "closed" none]
    let disposal := [.call .dispose, now 1, now 1, now 0, now 0]
    let before := start.run (handshake ++ hover)
    let later := (before.step (now 0)).run disposal
    Initialized (start.run handshake) ∧
      EndsAt before (now 0) (.resume 1 (.streamEnded "closed" none)) ∧
      before.session.waitOf 2 = some ⟨.ask .hover, 2, false, some (.ok (.obj [("id", .int 2)]))⟩ ∧
      FirstAnswer p before.taken 2 2 (.obj [("id", .int 2)]) ∧
      Query.hover.answer (.obj [("id", .int 2)]) = .ok (.text "") ∧
      later.outcome? 2 = some (.error Channel.notOpen) := by
  intro p start now answer handshake hover disposal before later
  have hs : before.session = (Session.new p).after before.taken :=
    (sound_run p .streams _ (handshake ++ hover)).session
  have hwait : before.session.waitOf 2
      = some ⟨.ask .hover, 2, false, some (.ok (.obj [("id", .int 2)]))⟩ := by decide +kernel
  refine ⟨⟨by decide +kernel, shaken_of_tasks (by decide +kernel)⟩,
    ⟨by decide +kernel, by decide +kernel, .inl ⟨1, "closed", none, rfl, by decide +kernel⟩⟩, hwait, ?_,
    by decide +kernel, by decide +kernel⟩
  rw [hs] at hwait
  exact (traced p _ 2 _ hwait).answered _ rfl

end Loop

end EditorServices.Session
