import EditorServices.Proofs.Session.Attendance
import EditorServices.Proofs.Transport.Closing

/-!
# `Proofs.Session.Opening` — the channel of a session that is ready

A session learns only from results how its channel is. A handshake comes past its first stage by a result
that says that the channel was opened, so a session that is ready has an open channel, until somebody
disposes of it: nothing else closes the channel.

## Contents
- **The handshake.** `Progress.Shaking`, the stages that need an open channel, and `shaking_of_resume`.
- **Opened.** `Opened`, kept by every occurrence.
- **Reliable.** `LeftAlone`, a session that nobody disposes of, and `Reliable`, with an open channel.
-/

namespace EditorServices

namespace Session

/-! ## The handshake -/

/-- A handshake found the channel open, and is not over. -/
def Progress.Shaking : Progress → Prop
  | .requesting .handshake _ _ _ | .announcing => True
  | _ => False

/-- These are stages of a handshake. -/
theorem Progress.Shaking.job {p : Progress} (h : p.Shaking) {job : Job} (hp : p.IsOf job) :
    job = .call .handshake := by
  cases p with
  | requesting purpose =>
    cases purpose with
    | handshake => exact hp
    | ask q => cases h
  | announcing => exact hp
  | _ => cases h

/-- A reply makes no difference. -/
theorem Progress.Shaking.ofUpToReply {p q : Progress} (h : q.Shaking) (hpq : p.UpToReply q) :
    p.Shaking := by
  rcases hpq with rfl | ⟨purpose, id, written, r, rfl, rfl⟩
  · exact h
  · cases purpose <;> exact h

/-- **A handshake comes to these stages by a result that says that the channel was opened.** -/
theorem shaking_of_resume {s : Session} (ho : Orderly s) {t : Nat} {r : Resumption} {q : Progress}
    (hq : (s.resume t r).session.progressOf t = some q) (hshaking : q.Shaking) :
    (∃ p, s.progressOf t = some p ∧ p.Shaking) ∨
      s.jobOf t = some (.call .handshake) ∧ ∃ text, r = .returned (.ok text) := by
  cases hk : s.tasks[t]? with
  | none =>
    rw [show s.resume t r = ⟨s, []⟩ by rw [resume, hk], progressOf, hk] at hq
    cases hq
  | some k =>
    obtain ⟨job, p⟩ := k
    have hj := jobOf_of_get hk
    have hp := progressOf_of_get hk
    have hafter : (s.resume t r).session.jobOf t = some job := ho.jobOf_step (.resume t r) hj
    obtain rfl : job = .call .handshake :=
      hshaking.job ((ho.step (.resume t r)) t _ _ hafter hq)
    -- a task that ends, or stays where it was, comes to none of these stages
    have hfinished (x : Session) (hx : x.progressOf t = s.progressOf t) (outcome : Except Failure Answer)
        (h : (x.finish t outcome).session.progressOf t = some q) : False := by
      rw [session_finish, progressOf_moveTask, if_pos rfl, hx, hp] at h
      cases h
      exact hshaking
    have hidle (h : s.progressOf t = some q) : ∃ p, s.progressOf t = some p ∧ p.Shaking :=
      ⟨q, h, hshaking⟩
    have hisOf := ho t _ _ hj hp
    unfold resume at hq
    rw [hk] at hq
    cases p with
    | announcing => exact .inl ⟨_, hp, trivial⟩
    | requesting purpose id written reply =>
      cases purpose with
      | handshake => exact .inl ⟨_, hp, trivial⟩
      | ask => obtain ⟨_, _, hx⟩ := hisOf; cases hx
    | created =>
      cases r with
      | begins =>
        have hopening : q = .openingChannel := by
          change (Session.moveTask _ t .openingChannel).progressOf t = some q at hq
          rw [progressOf_moveTask, if_pos rfl, show progressOf { s with phase := .initializing } t
            = some .created from hp] at hq
          exact (Option.some.inj hq).symm
        rw [hopening] at hshaking
        cases hshaking
      | cancelled => exact (hfinished s rfl _ hq).elim
      | returned x => cases x <;> exact .inl (hidle hq)
      | replied | rested | streamEnded | readerFinished => exact .inl (hidle hq)
    | openingChannel =>
      cases r with
      | returned x =>
        cases x with
        | ok text => exact .inr ⟨hj, text, rfl⟩
        | error f => exact (hfinished s rfl _ hq).elim
      | cancelled => exact (hfinished s rfl _ hq).elim
      | begins | replied | rested | streamEnded | readerFinished => exact .inl (hidle hq)
    | finished =>
      cases r with
      | returned x => cases x <;> exact .inl (hidle hq)
      | begins | cancelled | replied | rested | streamEnded | readerFinished => exact .inl (hidle hq)
    | reading | opening | settling | closing | listening | closingChannel | awaitingReader => cases hisOf
    | updating => obtain ⟨_, hx⟩ := hisOf; cases hx
    | answering => obtain ⟨_, _, _, hx⟩ := hisOf; cases hx
    | telling => obtain ⟨_, hx⟩ := hisOf; cases hx

namespace Loop

/-! ## Opened -/

section
variable {c : Channel} {text : Except Failure String} {t : Nat} {o : Operation}

/-- A channel that was opened stays so, though it may be closed. -/
theorem started_perform (h : c.started = true) (text : Except Failure String) (o : Operation) :
    (perform c text o).1.started = true := by
  cases o with
  | openChannel =>
    show c.start.channel.started = true
    rw [Channel.channel_start_of_started h, h]
  | closeChannel =>
    show c.close.1.started = true
    rw [Channel.started_close, h]
  | send m =>
    show (c.write m).channel.started = true
    rw [Channel.channel_write, h]
  | readFile path => exact h

/-- An operation of a handshake succeeds on a channel that was opened. -/
theorem started_of_perform (hof : o.IsOf (.call .handshake)) {x : String}
    (h : (perform c text o).2 = .ok x) : (perform c text o).1.started = true := by
  cases o with
  | openChannel =>
    refine Channel.started_of_start ?_
    change c.start.result.map _ = _ at h
    cases hr : c.start.result with
    | ok => rfl
    | error f =>
      rw [hr] at h
      cases h
  | send m =>
    rw [result_perform_send] at h
    split at h
    · cases h
    · next hopen =>
      show (c.write m).channel.started = true
      rw [Channel.channel_write]
      have hboth : c.closed = false ∧ c.started = true := by simpa using hopen
      exact hboth.2
  | closeChannel | readFile => cases hof

end

/-- What a session learned of the opening of its channel is true. -/
structure Opened (l : Loop) : Prop where
  ready : l.session.phase = .ready → l.channel.started = true
  shaking : ∀ t p, l.session.progressOf t = some p → p.Shaking → l.channel.started = true
  result : ∀ t text, l.session.jobOf t = some (.call .handshake) →
    .turn (.resume t (.returned (.ok text))) ∈ l.demands → l.channel.started = true

theorem opened_new (p : Profile) (peer : Channel.Peer) (surroundings : Channel.Surroundings) :
    Opened (new p peer surroundings) := by
  refine ⟨fun h => ?_, fun t q h => ?_, fun t text h => ?_⟩ <;> cases h

/-- No turn leaves a result; results are left by operations. -/
theorem returned_mem_take {l : Loop} {u : Turn} {demands : List Demand} {t : Nat}
    {x : Except Failure String} (h : .turn (.resume t (.returned x)) ∈
      demands ++ (l.session.step u).effects.filterMap Demand.of?) :
    .turn (.resume t (.returned x)) ∈ demands := by
  rcases List.mem_append.mp h with h | h
  · exact h
  · obtain ⟨e, -, he⟩ := List.mem_filterMap.mp h
    cases e <;> cases he

/-- An operation is demanded by the turn that asks for it. -/
theorem operation_mem_take {l : Loop} {u : Turn} {demands : List Demand} {t : Nat} {o : Operation}
    (h : .operation t o ∈ demands ++ (l.session.step u).effects.filterMap Demand.of?) :
    .operation t o ∈ demands ∨ .perform t o ∈ (l.session.step u).effects := by
  rcases List.mem_append.mp h with h | h
  · exact .inl h
  · obtain ⟨e, he, hed⟩ := List.mem_filterMap.mp h
    cases e with
    | perform v o' =>
      cases hed
      exact .inr he
    | listen | start | wake | pause | sleep | rejoin | cancel | account => cases hed
    | completed | told | refused | log => cases hed

/-- A result that waits to be taken has waited before, or was left by an operation just now. -/
theorem returned_mem_step {l : Loop} {x : Occurrence} {t : Nat} {r : Except Failure String}
    (h : .turn (.resume t (.returned r)) ∈ (l.step x).demands) :
    .turn (.resume t (.returned r)) ∈ l.demands ∨
      ∃ o text, .operation t o ∈ l.demands ∧ (perform l.channel text o).2 = r := by
  generalize hl : l.step x = l' at h
  have hstepped := stepped_step l x
  rw [hl] at hstepped
  cases hstepped with
  | outside => exact .inl h
  | operation place v o text here =>
    rcases List.mem_or_eq_of_mem_set h with h | heq
    · exact .inl h
    · simp only [Demand.turn.injEq, Turn.resume.injEq, Resumption.returned.injEq] at heq
      obtain ⟨rfl, hr⟩ := heq
      exact .inr ⟨o, text, List.mem_of_getElem? here, hr.symm⟩
  | turn u demands arrived _ old => exact .inl (old _ (returned_mem_take h))

/-- An operation that waits to be done has waited before, or is asked for by the turn that is taken. -/
theorem operation_mem_step {l : Loop} {x : Occurrence} {t : Nat} {o : Operation}
    (h : .operation t o ∈ (l.step x).demands) :
    .operation t o ∈ l.demands ∨ ∃ u, .perform t o ∈ (l.session.step u).effects := by
  generalize hl : l.step x = l' at h
  have hstepped := stepped_step l x
  rw [hl] at hstepped
  cases hstepped with
  | outside => exact .inl h
  | operation place v o' text here =>
    rcases List.mem_or_eq_of_mem_set h with h | heq
    · exact .inl h
    · cases heq
  | turn u demands arrived _ old =>
    rcases operation_mem_take h with h | he
    · exact .inl (old _ h)
    · exact .inr ⟨u, he⟩

namespace Opened

variable {p : Profile} {l : Loop}

theorem operation (h : Opened l) (hs : Sound p l) {place t : Nat} {o : Operation}
    (text : Except Failure String) (here : l.demands[place]? = some (.operation t o)) :
    Opened { l with
      channel := (perform l.channel text o).1
      demands := l.demands.set place (.turn (.resume t (.returned (perform l.channel text o).2))) } := by
  refine ⟨fun hp => started_perform (h.ready hp) text o,
    fun v q hq hshaking => started_perform (h.shaking v q hq hshaking) text o, fun v x hj hmem => ?_⟩
  rcases List.mem_or_eq_of_mem_set hmem with hmem | heq
  · exact started_perform (h.result v x hj hmem) text o
  · obtain ⟨job, hjob, hof⟩ := hs.fits _ (List.mem_of_getElem? here)
    simp only [Demand.turn.injEq, Turn.resume.injEq, Resumption.returned.injEq] at heq
    obtain ⟨rfl, hx⟩ := heq
    obtain rfl : job = .call .handshake := Option.some.inj (hjob.symm.trans hj)
    exact started_of_perform hof hx.symm

theorem turn (h : Opened l) (hs : Sound p l) {x : Occurrence} {u : Turn} (prompted : Prompted l x u)
    {demands : List Demand} (arrived : List Json) (old : ∀ d ∈ demands, d ∈ l.demands) :
    Opened ({ l with demands := demands, arrived := arrived }.take u) := by
  have ho := hs.orderly
  refine ⟨fun hp => ?_, fun t q hq hshaking => ?_, fun t text hj hmem => ?_⟩
  · -- a session becomes ready when its handshake is announced
    change (l.session.step u).session.phase = .ready at hp
    show l.channel.started = true
    cases course_step ho u with
    | steady same => exact h.ready (same.phase ▸ hp)
    | shaken t _ _ _ phase =>
      rcases phase with phase | ⟨-, -, phase⟩ | ⟨-, announcing, -⟩
      · exact h.ready (phase ▸ hp)
      · rw [phase] at hp
        cases hp
      · exact h.shaking t _ announcing trivial
    | disposed _ _ _ _ _ phase =>
      rw [phase] at hp
      cases hp
    | ended _ _ _ _ _ _ phase | wrappedUp _ _ _ _ phase | spawned phase | accounted phase =>
      exact h.ready (phase ▸ hp)
  · change (l.session.step u).session.progressOf t = some q at hq
    show l.channel.started = true
    by_cases hu : u.task? = some t
    · obtain ⟨r, rfl⟩ := Turn.exists_resume hu
      rcases shaking_of_resume ho hq hshaking with ⟨p', hp', hshaking'⟩ | ⟨hj, text, rfl⟩
      · exact h.shaking t p' hp' hshaking'
      · -- the result was demanded to be taken, so an operation left it
        cases prompted with
        | demanded mem => exact h.result t text hj mem
    · cases hp : l.session.progressOf t with
      | none =>
        rcases ho.progressOf_fresh u hp with hn | hc
        · rw [hn] at hq
          cases hq
        · rw [hc] at hq
          cases hq
          cases hshaking
      | some p' =>
        obtain ⟨q', hq', hpq⟩ := ho.progressOf_step hu hp
        obtain rfl : q' = q := Option.some.inj (hq'.symm.trans hq)
        exact h.shaking t p' hp (hshaking.ofUpToReply hpq)
  · have hmem := old _ (returned_mem_take hmem)
    obtain ⟨job, hjob, -⟩ := hs.fits _ hmem
    have hafter := ho.jobOf_step u hjob
    obtain rfl : job = .call .handshake := Option.some.inj (hafter.symm.trans hj)
    exact h.result t text hjob hmem

theorem step (h : Opened l) (hs : Sound p l) (x : Occurrence) : Opened (l.step x) := by
  generalize hl : l.step x = l'
  have hx := stepped_step l x
  rw [hl] at hx
  cases hx with
  | outside arrived streamEnd => exact ⟨h.ready, h.shaking, h.result⟩
  | operation place t o text here => exact h.operation hs text here
  | turn u demands arrived prompted old _ => exact h.turn hs prompted arrived old

end Opened

/-- **A session that is ready has a channel that was opened.** -/
theorem opened_run (p : Profile) (peer : Channel.Peer) (surroundings : Channel.Surroundings)
    (h : List Occurrence) : Opened ((new p peer surroundings).run h) := by
  have hboth := run_preserves (P := fun l => Sound p l ∧ Opened l) (Q := fun _ => True)
    (fun _ x _ hl => ⟨hl.1.step x, hl.2.step hl.1 x⟩) (h := h) (fun _ _ => trivial)
    ⟨sound_new p peer surroundings, opened_new p peer surroundings⟩
  exact hboth.2

/-! ## Reliable -/

/-- Nobody has asked to dispose of the session, and its channel was not closed. -/
structure LeftAlone (l : Loop) : Prop where
  unclosed : l.channel.closed = false
  undisposed : ∀ t, l.session.jobOf t ≠ some (.call .dispose)

/-- Only a disposal closes the channel. -/
theorem LeftAlone.closed_perform {l : Loop} (h : LeftAlone l) {t : Nat} {o : Operation}
    (fits : (Demand.operation t o).Fits l.session) (text : Except Failure String) :
    (perform l.channel text o).1.closed = false := by
  cases o with
  | openChannel =>
    show l.channel.start.channel.closed = false
    rw [Channel.closed_start, h.unclosed]
  | closeChannel =>
    obtain ⟨job, hj, rfl⟩ := fits
    exact absurd hj (h.undisposed t)
  | send m =>
    show (l.channel.write m).channel.closed = false
    rw [Channel.channel_write, h.unclosed]
  | readFile path => exact h.unclosed

theorem LeftAlone.step {p : Profile} {l : Loop} (h : LeftAlone l) (hs : Sound p l) {x : Occurrence}
    (hx : x ≠ .call .dispose) : LeftAlone (l.step x) := by
  generalize hl : l.step x = l'
  have hstepped := stepped_step l x
  rw [hl] at hstepped
  cases hstepped with
  | outside => exact ⟨h.unclosed, h.undisposed⟩
  | operation place t o text here =>
    exact ⟨h.closed_perform (hs.fits _ (List.mem_of_getElem? here)) text, h.undisposed⟩
  | turn u demands arrived prompted =>
    refine ⟨h.unclosed, fun t ht => ?_⟩
    change (l.session.step u).session.jobOf t = some (.call .dispose) at ht
    cases hj : l.session.jobOf t with
    | some job =>
      obtain rfl : job = .call .dispose :=
        Option.some.inj ((hs.orderly.jobOf_step u hj).symm.trans ht)
      exact h.undisposed t hj
    | none =>
      obtain ⟨rfl, -⟩ := hs.orderly.jobOf_fresh hj ht
      exact hx (prompted.eq_call hs)

theorem leftAlone_run (p : Profile) (peer : Channel.Peer) (surroundings : Channel.Surroundings)
    {h : List Occurrence} (hx : ∀ x ∈ h, x ≠ .call .dispose) :
    LeftAlone ((new p peer surroundings).run h) := by
  have hboth := run_preserves (P := fun l => Sound p l ∧ LeftAlone l)
    (fun l x hx hl => ⟨hl.1.step x, hl.2.step hl.1 hx⟩) hx
    ⟨sound_new p peer surroundings, rfl, fun t ht => by cases ht⟩
  exact hboth.2

/-- The channel is open, and nobody is going to close it. -/
structure Reliable (l : Loop) : Prop extends LeftAlone l where
  started : l.channel.started = true

/-- What is sent on it is sent. -/
theorem Reliable.sends {l : Loop} (h : Reliable l) (text : Except Failure String) (m : Json)
    (f : Failure) : (perform l.channel text (.send m)).2 ≠ .error f := by
  rw [result_perform_send, h.started, h.unclosed]
  simp

/-- **While nobody disposes of the session, its channel stays open.** -/
theorem Reliable.step {p : Profile} {l : Loop} (h : Reliable l) (hs : Sound p l) {x : Occurrence}
    (hx : x ≠ .call .dispose) : Reliable (l.step x) := by
  refine ⟨h.toLeftAlone.step hs hx, ?_⟩
  generalize hl : l.step x = l'
  have hstepped := stepped_step l x
  rw [hl] at hstepped
  cases hstepped with
  | outside => exact h.started
  | operation place t o text => exact started_perform h.started text o
  | turn => exact h.started

end Loop

end Session

end EditorServices
