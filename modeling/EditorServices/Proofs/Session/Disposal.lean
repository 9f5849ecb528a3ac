import EditorServices.Proofs.Session.Audience
import EditorServices.Proofs.Session.DocumentChanges
import EditorServices.Proofs.Session.Opening
import EditorServices.Proofs.Session.Outcomes

/-!
# `Proofs.Session.Disposal` — what a disposal leaves, and that it stays so

A disposal runs in a few turns, and others have theirs between them: the reader, answers to the server, the
telling of subscribers, messages that still arrive. None of these touches the phase, the document or the
channel, and none opens the bus again; only calls do, and a disposal that is made when all calls are over has
no call beside it. So each of its stages leaves a bit more torn down, and `TornTo` says how much.

What keeps a disposal from failing is its one operation: closing the channel gives no failure, and nobody
makes the disposal give up.

## Contents
- **Asides.** `Aside`, turns of no call under way: they leave the phase and the document as they are.
- **The bus.** `bus_step`: it stays as it is or is closed.
- **One turn.** `DisposalTurn` and `disposalTurn_resume`; `closes_of_perform` and `closed_of_resume`, also for
  disposals that give up.
- **What can be relied on.** `Coherent`, also when operations fail in ways that the channel does not know of.
- **In a loop.** `TornTo`, `Disposes` and `Disposes.step`.
- **Stopped writers.** `ClosedFirst`: the writer is stopped after its channel was closed, so an open session
  whose channel was not closed refuses nothing.
- **The end.** `TornDown`.
-/

namespace EditorServices.Session

variable {s : Session} {u : Turn} {t : Nat}

/-! ## Asides -/

/-- A turn is one of no call that is under way. -/
def Aside (s : Session) (u : Turn) : Prop := ∀ v, UnderWay s v → u.task? ≠ some v

namespace Aside

/-- A call whose turn it is, is over. -/
theorem finished (h : Aside s u) {c : Call} (turn : u.task? = some t) (job : s.jobOf t = some (.call c)) :
    s.progressOf t = some .finished := by
  by_contra hgoing
  exact h t ⟨⟨c, job⟩, hgoing⟩ turn

theorem phase (h : Aside s u) (ho : Orderly s) : (s.step u).session.phase = s.phase := by
  cases course_step ho u with
  | steady same => exact same.phase
  | shaken t turn job active => exact absurd (h.finished turn job) active
  | disposed t turn job created =>
    have hfinished := h.finished (by rw [turn]; rfl) job
    rw [created] at hfinished
    cases hfinished
  | ended _ _ _ _ _ _ phase | wrappedUp _ _ _ _ phase | spawned phase | accounted phase => exact phase

theorem document (h : Aside s u) (ho : Orderly s) : (s.step u).session.document = s.document := by
  cases documentChange_step ho u with
  | kept untouched => exact untouched.document
  | accepted t message accepts =>
    cases accepts with
    | opening _ _ _ job reading => cases reading.symm.trans (h.finished rfl job)
    | change _ _ job created => cases created.symm.trans (h.finished rfl job)
  | forgotten t forgets =>
    cases forgets with
    | closing _ _ job closing => cases closing.symm.trans (h.finished rfl job)
    | disposal _ job created => cases created.symm.trans (h.finished rfl job)

end Aside

/-- Requests without a reply belong to calls that are under way. -/
theorem underWay_of_pending (ho : Orderly s) (hcons : Consistent s) {id : Nat} (h : (id, t) ∈ s.pending) :
    UnderWay s t := by
  obtain ⟨w, hw, -, -⟩ := hcons.waiting h
  have hp := progressOf_of_waitOf hw
  obtain ⟨k, hk, -⟩ := Option.map_eq_some_iff.mp hp
  have hof := ho t _ _ (jobOf_of_get hk) hp
  refine ⟨?_, by rw [hp]; simp⟩
  rw [jobOf_of_get hk]
  cases hpurpose : w.purpose with
  | handshake =>
    rw [hpurpose] at hof
    exact ⟨_, congrArg some hof⟩
  | ask q =>
    rw [hpurpose] at hof
    obtain ⟨line, character, heq⟩ := hof
    exact ⟨_, congrArg some heq⟩

/-! ## The bus -/

/-- Telling subscribers leaves the subscriptions as they are. -/
theorem bus_tell (s : Session) (t : Nat) (n : Notification) (rs : List Bus.Subscription) :
    (s.tell t n rs).session.bus = s.bus := by
  obtain ⟨p, hp, -⟩ := session_tell s t n rs
  rw [hp, bus_moveTask]

theorem bus_wrapUp (s : Session) (t : Nat) : (s.wrapUp t).session.bus = s.bus.close := by
  rw [session_wrapUp]
  rfl

theorem bus_begin (s : Session) (t : Nat) (job : Job) : (s.begin t job).session.bus = s.bus := by
  by_cases hpublish : ∃ n, job = .publish n
  · obtain ⟨n, rfl⟩ := hpublish
    show (s.beginPublish t n).session.bus = s.bus
    unfold beginPublish
    split
    · exact (Unheard.finish s t _).bus
    · exact bus_tell s t n _
  · exact (Unheard.begin fun n heq => hpublish ⟨n, heq⟩).bus

/-- **The bus stays as it is, or it is closed.** -/
theorem bus_step (s : Session) (u : Turn) :
    (s.step u).session.bus = s.bus ∨ (s.step u).session.bus = s.bus.close := by
  cases u with
  | call c => exact .inl rfl
  | account v f => exact .inl (Unheard.account s v f).bus
  | receive m => exact .inl (Unheard.receive s m).bus
  | resume t r =>
    show (s.resume t r).session.bus = _ ∨ (s.resume t r).session.bus = _
    cases hk : s.tasks[t]? with
    | none =>
      rw [resume, hk]
      exact .inl rfl
    | some k =>
      obtain ⟨job, p⟩ := k
      have hclosed : (s.channelClosed t).session.bus = s.bus ∨
          (s.channelClosed t).session.bus = s.bus.close := by
        unfold channelClosed
        split
        · exact .inr (bus_wrapUp s t)
        · exact .inl rfl
      unfold resume
      rw [hk]
      dsimp only
      split
      · exact .inl (bus_begin s t job)
      · cases p with
        | closingChannel => exact hclosed
        | awaitingReader => exact .inl rfl
        | _ => exact .inl (Unheard.continueWith s t job _ rfl).bus
      · exact .inl (Unheard.continueWithout s t _ _).bus
      · exact .inl (Unheard.conclude s t _ _ _).bus
      · exact .inl (Unheard.finish s t _).bus
      · split
        · exact .inl (bus_tell s t _ _)
        · exact .inl rfl
      · exact .inl (Unheard.streamEnded s t _ _).bus
      · exact .inr (bus_wrapUp s t)
      · cases p with
        | awaitingReader => exact .inr (bus_wrapUp s t)
        | closingChannel => exact .inl (Unheard.finish s t _).bus
        | _ => exact .inl (Unheard.abandon s t rfl).bus
      · exact .inl rfl

/-- A bus that was closed stays closed. -/
theorem closed_bus_step (h : s.bus.closed = true) (u : Turn) : (s.step u).session.bus.closed = true := by
  rcases bus_step s u with hb | hb
  · rw [hb, h]
  · rw [hb]
    rfl

/-! ## One turn -/

/-- What is allowed to a reader in a closed session is no operation. -/
theorem not_perform_of_allowed {r : Turned} {v : Nat} (h : r.Allowed (some .cancelled) [] .listen v) (w : Nat)
    (o : Operation) : .perform w o ∉ r.effects := by
  intro he
  have hallowed := h _ he
  cases o with
  | send m => cases hallowed.2
  | openChannel | closeChannel | readFile => cases hallowed.2

/-- What a turn does with a disposal that nobody makes give up, and whose operation does not fail. -/
inductive DisposalTurn (s : Session) (t : Nat) : Progress → Resumption → Turned → Prop where
  /-- Nothing; it is not what the disposal waits for. -/
  | idle (p : Progress) (r : Resumption) : DisposalTurn s t p r ⟨s, []⟩
  /-- The session is disposed of, and its channel is to be closed. -/
  | begun {r : Turned} (phase : r.session.phase = .disposed) (document : r.session.document = none)
      (writer : r.session.writer = s.writer) (stage : r.session.progressOf t = some .closingChannel)
      (silent : endings r.effects = []) (asks : ∀ v o, .perform v o ∈ r.effects → o = .closeChannel) :
      DisposalTurn s t .created .begins r
  /-- The session was disposed of before. -/
  | again (before : s.phase = .disposed) : DisposalTurn s t .created .begins (s.succeed t)
  /-- The channel is closed, and the reader has to end. -/
  | released (text : String) (reader : Nat) {es : List Effect} (silent : endings es = [])
      (quiet : ∀ v o, .perform v o ∉ es) : DisposalTurn s t .closingChannel (.returned (.ok text))
        ⟨s.moveTask t (.awaitingReader reader), es⟩
  /-- The channel is closed, and nobody ever read from it. -/
  | unread (text : String) : DisposalTurn s t .closingChannel (.returned (.ok text)) (s.wrapUp t)
  /-- The reader has ended. -/
  | joined (reader : Nat) : DisposalTurn s t (.awaitingReader reader) .readerFinished (s.wrapUp t)

theorem disposalTurn_begins (hp : s.progressOf t = some .created) :
    DisposalTurn s t .created .begins (s.beginDispose t) := by
  unfold beginDispose
  split
  · next before => exact .again before
  · have hfailed := Kept.failPending { s with phase := .disposed } "session disposed"
    have hstill : progressOf { s with phase := .disposed } t = some .created := hp
    obtain ⟨q, hq, -⟩ := hfailed.stage hstill
    have hsteady := Steady.failPending { s with phase := .disposed } "session disposed"
    refine .begun hsteady.phase rfl hsteady.writer ?_ ?_ fun v o he => ?_
    · exact progressOf_moveTask_self hq .closingChannel
    · rw [Turned.effects_after, endings_append, Turned.effects_andThen, endings_append, endings_failPending]
      rfl
    · -- the failures of what is pending ask for nothing
      rw [Turned.effects_after, Turned.effects_andThen, List.mem_append, List.mem_append] at he
      rcases he with he | he | he
      · cases List.mem_singleton.mp he
      · exact absurd he (not_perform_of_allowed (allowed_failPending _ 0 _ _) v o)
      · cases List.mem_singleton.mp he
        rfl

theorem disposalTurn_closed (s : Session) (t : Nat) (text : String) :
    DisposalTurn s t .closingChannel (.returned (.ok text)) (s.channelClosed t) := by
  unfold channelClosed
  split
  · exact .unread text
  · next reader _ =>
    refine .released text reader ?_ fun v o he => ?_
    · split <;> rfl
    · split at he <;> cases List.mem_singleton.mp he

/-- **What a turn does with a disposal.** -/
theorem disposalTurn_resume {p : Progress} (hk : s.tasks[t]? = some ⟨.call .dispose, p⟩)
    (hof : p.IsOf (.call .dispose)) {r : Resumption} (hr : r ≠ .cancelled)
    (fine : ∀ f, r ≠ .returned (.error f)) : DisposalTurn s t p r (s.resume t r) := by
  unfold resume
  rw [hk]
  cases r with
  | cancelled => exact absurd rfl hr
  | returned x =>
    cases x with
    | error f => exact absurd rfl (fine f)
    | ok text =>
      cases p with
      | closingChannel => exact disposalTurn_closed s t text
      | created | awaitingReader | finished => exact .idle _ _
      | requesting purpose => cases purpose <;> simp [Progress.IsOf] at hof
      | _ => simp [Progress.IsOf] at hof
  | begins =>
    cases p with
    | created => exact disposalTurn_begins (progressOf_of_get hk)
    | _ => exact .idle _ _
  | readerFinished =>
    cases p with
    | awaitingReader reader => exact .joined reader
    | _ => exact .idle _ _
  | replied =>
    cases p with
    | requesting purpose => cases purpose <;> simp [Progress.IsOf] at hof
    | _ => exact .idle _ _
  | rested =>
    cases p with
    | settling => cases hof
    | telling => exact .idle _ _
    | _ => exact .idle _ _
  | streamEnded reason error =>
    cases p with
    | listening => cases hof
    | _ => exact .idle _ _

/-- A disposal that ends has succeeded. -/
theorem DisposalTurn.succeeded {p : Progress} {r : Resumption} {x : Turned} (h : DisposalTurn s t p r x)
    (hj : s.jobOf t = some (.call .dispose)) {o : Except Failure Answer}
    (ho : (t, o) ∈ endings x.effects) : o = .ok .done := by
  have hsucceed (q : Session) (hq : q.jobOf t = some (.call .dispose))
      (hmem : (t, o) ∈ endings (q.succeed t).effects) : o = .ok .done := by
    rw [succeed, finish_call hq] at hmem
    exact (Prod.mk.inj (List.mem_singleton.mp hmem)).2
  have hwrapped (hmem : (t, o) ∈ endings (s.wrapUp t).effects) : o = .ok .done := by
    rw [wrapUp, Turned.effects_after, endings_append, endings_map fun _ => rfl, List.nil_append] at hmem
    exact hsucceed s.shutDown hj hmem
  cases h with
  | idle => cases ho
  | begun _ _ _ _ silent | released _ _ silent =>
    rw [silent] at ho
    cases ho
  | again => exact hsucceed s hj ho
  | unread | joined => exact hwrapped ho

/-- The one operation that a disposal asks for is to close the channel. -/
theorem DisposalTurn.asks {p : Progress} {r : Resumption} {x : Turned} (h : DisposalTurn s t p r x)
    {v : Nat} {o : Operation} (he : .perform v o ∈ x.effects) : o = .closeChannel := by
  have hfinish (q : Session) : .perform v o ∉ (q.succeed t).effects :=
    not_perform_of_allowed (allowed_finish q t _ _) v o
  have hwrapped : .perform v o ∉ (s.wrapUp t).effects := by
    rw [wrapUp, Turned.effects_after, List.mem_append]
    rintro (hcancel | hends)
    · obtain ⟨_, -, heq⟩ := List.mem_map.mp hcancel
      cases heq
    · exact hfinish _ hends
  cases h with
  | idle => cases he
  | begun _ _ _ _ _ asks => exact asks v o he
  | again => exact absurd he (hfinish s)
  | released _ _ _ quiet => exact absurd he (quiet v o)
  | unread | joined => exact absurd he hwrapped

/-- A disposal asks for no other operation, whatever becomes of it. -/
theorem closes_of_perform (ho : Orderly s) (job : s.jobOf t = some (.call .dispose)) {o : Operation}
    (he : .perform t o ∈ (s.step u).effects) : o = .closeChannel := by
  obtain ⟨hu, job', hj, hof⟩ := operation_of_perform he
  obtain rfl : job' = .call .dispose := Option.some.inj (hj.symm.trans job)
  cases o with
  | closeChannel => rfl
  | openChannel | readFile => cases hof
  | send m =>
    obtain ⟨r, rfl⟩ := Turn.exists_resume hu
    obtain ⟨⟨_, q⟩, hk, rfl⟩ := Option.map_eq_some_iff.mp job
    have hstage := ho t _ q job (progressOf_of_get hk)
    by_cases hbegins : r = .begins
    · subst hbegins
      exact (disposalTurn_resume hk hstage (by simp) (by simp)).asks he
    · -- its later stages are none that send
      have hallowed := allowed_resume_of_stage s t (some .cancelled) hk r (fun h => ?_) fun _ => rfl
      · exact absurd (hallowed _ he).2 (by simp)
      · rcases h with h | h
        · exact absurd h hbegins
        · cases q with
          | openingChannel | reading => cases hstage
          | requesting purpose => cases purpose <;> simp [Progress.IsOf] at hstage h
          | _ => cases h

/-- **A disposal stops the writer, or waits for a reader, after a result that says that the channel was
closed.** -/
theorem closed_of_resume (ho : Orderly s) (job : s.jobOf t = some (.call .dispose)) {r : Resumption}
    (h : (s.resume t r).session.writer ≠ s.writer ∨
      ∃ v, (s.resume t r).session.progressOf t = some (.awaitingReader v)) :
    (∃ v, s.progressOf t = some (.awaitingReader v)) ∨ ∃ text, r = .returned (.ok text) := by
  obtain ⟨⟨_, q⟩, hk, rfl⟩ := Option.map_eq_some_iff.mp job
  have hq := progressOf_of_get hk
  have hof := ho t _ q job hq
  by_cases hawaiting : ∃ v, q = .awaitingReader v
  · obtain ⟨v, rfl⟩ := hawaiting
    exact .inl ⟨v, hq⟩
  by_cases hresult : ∃ text, r = .returned (.ok text)
  · exact .inr hresult
  -- otherwise the writer stays, and no reader is waited for
  exfalso
  have hstays (heq : (s.resume t r).session = s) : False := by
    rw [heq] at h
    rcases h with h | ⟨v, h⟩
    · exact h rfl
    · exact hawaiting ⟨v, Option.some.inj (hq.symm.trans h)⟩
  have hends (heq : (s.resume t r).session = s.moveTask t .finished) : False := by
    rw [heq, progressOf_moveTask_self hq] at h
    rcases h with h | ⟨v, h⟩
    · exact h rfl
    · cases h
  by_cases hgivesUp : r = .cancelled ∨ ∃ f, r = .returned (.error f)
  · have heq : (s.resume t r).session = s ∨ (s.resume t r).session = s.moveTask t .finished := by
      unfold resume
      rw [hk]
      rcases hgivesUp with rfl | ⟨f, rfl⟩
      · cases q with
        | finished => exact .inl rfl
        | created | closingChannel => exact .inr (session_giveUp s t _)
        | awaitingReader v => exact absurd ⟨v, rfl⟩ hawaiting
        | requesting purpose => cases purpose <;> simp [Progress.IsOf] at hof
        | _ => simp [Progress.IsOf] at hof
      · cases q with
        | created | finished => exact .inl rfl
        | closingChannel => exact .inr (session_giveUp s t _)
        | awaitingReader v => exact absurd ⟨v, rfl⟩ hawaiting
        | requesting purpose => cases purpose <;> simp [Progress.IsOf] at hof
        | _ => simp [Progress.IsOf] at hof
    exact heq.elim hstays hends
  · rw [not_or, not_exists] at hgivesUp
    have hturn := disposalTurn_resume hk hof hgivesUp.1 hgivesUp.2
    generalize hx : s.resume t r = x at hturn h hstays hends
    cases hturn with
    | idle => exact hstays rfl
    | begun _ _ writer stage =>
      rcases h with h | ⟨v, h⟩
      · exact h writer
      · cases stage.symm.trans h
    | again => exact hends (session_succeed s t)
    | released text | unread text => exact hresult ⟨text, rfl⟩
    | joined v => exact hawaiting ⟨v, rfl⟩

/-! ## What can be relied on -/

/-- What a turn leaves under way was under way before it. -/
theorem UnderWay.before (ho : Orderly s) (hu : ∀ c, u ≠ .call c) (h : UnderWay (s.step u).session t) :
    UnderWay s t := by
  obtain ⟨⟨c, hj⟩, hgoing⟩ := h
  cases hjob : s.jobOf t with
  | none => exact absurd (ho.jobOf_fresh hjob hj).1 (hu c)
  | some job =>
    obtain rfl : job = .call c := Option.some.inj ((ho.jobOf_step u hjob).symm.trans hj)
    exact ⟨⟨c, hjob⟩, fun hp => hgoing (ho.finished_step u hp)⟩

/-- A call that is made is under way, besides those that were. -/
theorem UnderWay.before_call {c : Call} (h : UnderWay (s.step (.call c)).session t) :
    t = s.tasks.length ∨ UnderWay s t := by
  change UnderWay (s.addTask (.call c)).1 t at h
  by_cases ht : t = s.tasks.length
  · exact .inl ht
  · refine .inr ?_
    unfold UnderWay at h ⊢
    rwa [jobOf_addTask, if_neg ht, progressOf_addTask, if_neg ht] at h

/-- A demand is about a task that is there. No call is demanded, nor that one gives up. -/
def Demand.Concerns (s : Session) : Demand → Prop
  | .turn (.resume t (.returned _)) => ∃ job, s.jobOf t = some job
  | .turn (.resume t .cancelled) => ∃ job, s.jobOf t = some job ∧ ∀ c, job ≠ .call c
  | .turn (.call _) => False
  | .operation t o => ∃ job, s.jobOf t = some job ∧ o.IsOf job
  | _ => True

theorem Demand.Fits.concerns {d : Demand} (h : d.Fits s) : d.Concerns s := by
  cases d with
  | listening => trivial
  | operation => exact h
  | turn u =>
    cases u with
    | call => exact h
    | receive | account => trivial
    | resume t r =>
      cases r with
      | returned =>
        obtain ⟨job, hj, -⟩ := h
        exact ⟨job, hj⟩
      | cancelled => exact h
      | begins | replied | rested | streamEnded | readerFinished => trivial

theorem Demand.Concerns.keep {d : Demand} (h : d.Concerns s) {s' : Session}
    (hj : ∀ {v job}, s.jobOf v = some job → s'.jobOf v = some job) : d.Concerns s' := by
  cases d with
  | listening => trivial
  | operation =>
    obtain ⟨job, hjob, hof⟩ := h
    exact ⟨job, hj hjob, hof⟩
  | turn u =>
    cases u with
    | call => exact h
    | receive | account => trivial
    | resume t r =>
      cases r with
      | returned =>
        obtain ⟨job, hjob⟩ := h
        exact ⟨job, hj hjob⟩
      | cancelled =>
        obtain ⟨job, hjob, hno⟩ := h
        exact ⟨job, hj hjob, hno⟩
      | begins | replied | rested | streamEnded | readerFinished => trivial

namespace Loop

/-- What can be relied on in every order of events, also when operations fail in ways of their own. -/
structure Coherent (p : Profile) (l : Loop) : Prop where
  session : l.session = (Session.new p).after l.taken
  concerns : ∀ d ∈ l.demands, d.Concerns l.session
  completed : ∀ t o, .completed t o ∈ l.effects → ∃ job, l.session.jobOf t = some job

theorem coherent_new (p : Profile) (peer : Channel.Peer) (surroundings : Channel.Surroundings) :
    Coherent p (new p peer surroundings) := by
  refine ⟨rfl, fun d hd => ?_, fun t o ho => ?_⟩
  · cases hd
  · cases ho

namespace Coherent

variable {p : Profile} {l : Loop} (h : Coherent p l)
include h

theorem orderly : Orderly l.session := h.session ▸ orderly_after p l.taken

theorem consistent : Consistent l.session := h.session ▸ consistent_after p l.taken

/-- A demand may give way to a result that its task waits for. -/
theorem set {place t : Nat} {o : Operation} (here : l.demands[place]? = some (.operation t o))
    (channel : Channel) (r : Except Failure String) : Coherent p { l with
      channel := channel
      demands := l.demands.set place (.turn (.resume t (.returned r))) } := by
  refine ⟨h.session, fun d hd => ?_, h.completed⟩
  rcases List.mem_or_eq_of_mem_set hd with hd | rfl
  · exact h.concerns d hd
  · obtain ⟨job, hj, -⟩ := h.concerns _ (List.mem_of_getElem? here)
    exact ⟨job, hj⟩

theorem take (u : Turn) {demands : List Demand} (arrived : List Json)
    (old : ∀ d ∈ demands, d ∈ l.demands) :
    Coherent p ({ l with demands := demands, arrived := arrived }.take u) := by
  have ho := h.orderly
  refine ⟨?_, fun d hd => ?_, fun t o hmem => ?_⟩
  · show (l.session.step u).session = (Session.new p).after (l.taken ++ [u])
    rw [after_append, ← h.session]
    rfl
  · rcases List.mem_append.mp hd with hd | hd
    · exact (h.concerns d (old d hd)).keep (ho.jobOf_step u)
    · obtain ⟨e, he, hed⟩ := List.mem_filterMap.mp hd
      exact (fits_of_effect (h.session ▸ dependable_after p l.taken) ho he hed).concerns
  · rcases List.mem_append.mp hmem with hmem | hmem
    · obtain ⟨job, hj⟩ := h.completed t o hmem
      exact ⟨job, ho.jobOf_step u hj⟩
    · -- only a call that was under way is over now
      rw [← mem_endings] at hmem
      cases concluded_step ho u with
      | none silent =>
        rw [silent] at hmem
        cases hmem
      | one v r _ underWay known =>
        rw [known] at hmem
        obtain ⟨rfl, rfl⟩ := Prod.mk.inj (List.mem_singleton.mp hmem)
        obtain ⟨⟨c, hj⟩, -⟩ := underWay
        exact ⟨_, ho.jobOf_step u hj⟩

/-- Every occurrence keeps it. -/
theorem step (x : Occurrence) : Coherent p (l.step x) := by
  generalize hl : l.step x = l'
  have hx := stepped_step l x
  rw [hl] at hx
  cases hx with
  | outside arrived streamEnd => exact ⟨h.session, h.concerns, h.completed⟩
  | operation place t o text here => exact h.set here _ _
  | turn u demands arrived _ old => exact h.take u arrived old

/-- Calls are made by occurrences only. -/
theorem eq_call {x : Occurrence} {c : Call} (prompted : Prompted l x (.call c)) : x = .call c := by
  cases prompted with
  | called => rfl
  | demanded mem => exact (h.concerns _ mem).elim

/-- Nothing is demanded or known of a task that is not there yet. -/
theorem unknown {t : Nat} (hnone : l.session.jobOf t = none) :
    (∀ o, .operation t o ∉ l.demands) ∧ (∀ x, .turn (.resume t (.returned x)) ∉ l.demands) ∧
      ∀ o, .completed t o ∉ l.effects := by
  refine ⟨fun o ho => ?_, fun x hx => ?_, fun o ho => ?_⟩
  · obtain ⟨job, hj, -⟩ := h.concerns _ ho
    cases hnone.symm.trans hj
  · obtain ⟨job, hj⟩ := h.concerns _ hx
    cases hnone.symm.trans hj
  · obtain ⟨job, hj⟩ := h.completed _ _ ho
    cases hnone.symm.trans hj

end Coherent

/-- A task that is added next is not there yet. -/
theorem jobOf_length (s : Session) : s.jobOf s.tasks.length = none := by simp [jobOf]

/-! ## In a loop -/

/-- A channel that was closed stays closed, and closing it closes it. -/
theorem closed_perform {c : Channel} (text : Except Failure String) {o : Operation}
    (h : c.closed = true ∨ o = .closeChannel) : (perform c text o).1.closed = true := by
  have hclose : c.close.1.closed = true := Channel.closed_close c
  rcases h with h | rfl
  · cases o with
    | openChannel =>
      show c.start.channel.closed = true
      rw [Channel.closed_start, h]
    | closeChannel => exact hclose
    | send m =>
      show (c.write m).channel.closed = true
      rw [Channel.channel_write, h]
    | readFile path => exact h
  · exact hclose

/-- How much is torn down at a stage of a disposal. -/
def TornTo (l : Loop) : Progress → Prop
  | .created => l.session.phase ≠ .disposed
  | .closingChannel => l.session.phase = .disposed ∧ l.session.document = none
  | .awaitingReader _ => l.session.phase = .disposed ∧ l.session.document = none ∧ l.channel.closed = true
  | .finished => l.session.phase = .disposed ∧ l.session.document = none ∧ l.channel.closed = true ∧
      l.session.bus.closed = true
  | _ => True

/-- It stays torn down when nothing changes but that the channel or the bus are closed. -/
theorem TornTo.keep {l l' : Loop} {p : Progress} (h : TornTo l p) (phase : l'.session.phase = l.session.phase)
    (document : l'.session.document = l.session.document)
    (channel : l.channel.closed = true → l'.channel.closed = true)
    (bus : l.session.bus.closed = true → l'.session.bus.closed = true) : TornTo l' p := by
  cases p with
  | created =>
    show l'.session.phase ≠ .disposed
    rw [phase]
    exact h
  | closingChannel => exact ⟨phase.trans h.1, document.trans h.2⟩
  | awaitingReader => exact ⟨phase.trans h.1, document.trans h.2.1, channel h.2.2⟩
  | finished => exact ⟨phase.trans h.1, document.trans h.2.1, channel h.2.2.1, bus h.2.2.2⟩
  | _ => trivial

/-- A task disposes of the session, and no other call is under way. -/
structure Disposes (l : Loop) (t : Nat) : Prop where
  job : l.session.jobOf t = some (.call .dispose)
  alone : ∀ v, UnderWay l.session v → v = t
  torn : ∀ p, l.session.progressOf t = some p → TornTo l p
  /-- Its operation is to close the channel. -/
  operation : ∀ o, .operation t o ∈ l.demands → o = .closeChannel
  /-- A result that it has not seen yet says that the channel was closed. -/
  result : ∀ x, .turn (.resume t (.returned x)) ∈ l.demands →
    (∃ text, x = .ok text) ∧ l.channel.closed = true
  outcome : ∀ o, .completed t o ∈ l.effects → o = .ok .done

namespace Disposes

variable {p : Profile} {l : Loop} {t : Nat}

/-- A disposal that is made of a session when no call is under way. -/
theorem made (hs : Coherent p l) (phase : l.session.phase ≠ .disposed)
    (alone : ∀ v, ¬ UnderWay l.session v) :
    Disposes (l.step (.call .dispose)) l.session.tasks.length := by
  obtain ⟨hoperation, hresult, hcompleted⟩ := hs.unknown (jobOf_length l.session)
  have hdemands : (l.step (.call .dispose)).demands =
      l.demands ++ [.turn (.resume l.session.tasks.length .begins)] := rfl
  refine ⟨?_, fun v hv => ?_, fun q hq => ?_, fun o ho => ?_, fun x hx => ?_, fun o ho => ?_⟩
  · exact (jobOf_addTask l.session _ _).trans (if_pos rfl)
  · exact hv.before_call.resolve_right (alone v)
  · have hcreated : (l.step (.call .dispose)).session.progressOf l.session.tasks.length = some .created :=
      (progressOf_addTask l.session _ _).trans (if_pos rfl)
    obtain rfl : .created = q := Option.some.inj (hcreated.symm.trans hq)
    exact phase
  · rw [hdemands] at ho
    rcases List.mem_append.mp ho with ho | ho
    · exact absurd ho (hoperation o)
    · cases List.mem_singleton.mp ho
  · rw [hdemands] at hx
    rcases List.mem_append.mp hx with hx | hx
    · exact absurd hx (hresult x)
    · cases List.mem_singleton.mp hx
  · rcases List.mem_append.mp ho with ho | ho
    · exact absurd ho (hcompleted o)
    · cases List.mem_singleton.mp ho

variable (h : Disposes l t)
include h

/-- A disposal is at one of its stages. -/
theorem exists_stage (hs : Coherent p l) :
    ∃ q, l.session.progressOf t = some q ∧ q.IsOf (.call .dispose) := by
  obtain ⟨k, hk, -⟩ := Option.map_eq_some_iff.mp h.job
  exact ⟨k.progress, progressOf_of_get hk, hs.orderly t _ _ h.job (progressOf_of_get hk)⟩

/-- A stage of a disposal does not change when a reply is given. -/
theorem progressOf_elsewhere (hs : Coherent p l) {u : Turn} (hu : u.task? ≠ some t) :
    (l.session.step u).session.progressOf t = l.session.progressOf t := by
  obtain ⟨q, hq, hof⟩ := h.exists_stage hs
  obtain ⟨q', hq', hqq⟩ := hs.orderly.progressOf_step hu hq
  rw [hq, hq', hqq.eq_of_wait?]
  cases q with
  | requesting purpose => cases purpose <;> simp [Progress.IsOf] at hof
  | _ => rfl

/-- The result of an operation takes its place. Only that of closing the channel goes to the disposal. -/
theorem set {place v : Nat} {o : Operation} (here : l.demands[place]? = some (.operation v o))
    {channel : Channel} (stays : l.channel.closed = true → channel.closed = true) {r : Except Failure String}
    (done : o = .closeChannel → (∃ text, r = .ok text) ∧ channel.closed = true) : Disposes { l with
      channel := channel
      demands := l.demands.set place (.turn (.resume v (.returned r))) } t := by
  refine ⟨h.job, h.alone, fun q hq => ?_, fun o' ho' => ?_, fun x hx => ?_, h.outcome⟩
  · exact (h.torn q hq).keep rfl rfl stays id
  · rcases List.mem_or_eq_of_mem_set ho' with hmem | heq
    · exact h.operation o' hmem
    · cases heq
  · rcases List.mem_or_eq_of_mem_set hx with hmem | heq
    · exact ⟨(h.result x hmem).1, stays (h.result x hmem).2⟩
    · simp only [Demand.turn.injEq, Turn.resume.injEq, Resumption.returned.injEq] at heq
      obtain ⟨rfl, rfl⟩ := heq
      exact done (h.operation o (List.mem_of_getElem? here))

/-- What is kept in a turn, whosever it is. -/
theorem step_turn (hs : Coherent p l) {u : Turn} (hcall : ∀ c, u ≠ .call c) {demands : List Demand}
    (arrived : List Json) (old : ∀ d ∈ demands, d ∈ l.demands)
    (torn : ∀ q, (l.session.step u).session.progressOf t = some q →
      TornTo { l with session := (l.session.step u).session } q)
    (asks : ∀ o, .perform t o ∈ (l.session.step u).effects → o = .closeChannel)
    (outcome : ∀ o, .completed t o ∈ (l.session.step u).effects → o = .ok .done) :
    Disposes ({ l with demands := demands, arrived := arrived }.take u) t := by
  refine ⟨hs.orderly.jobOf_step u h.job, fun v hv => ?_, fun q hq => ?_, fun o ho => ?_, fun x hx => ?_,
    fun o ho => ?_⟩
  · exact h.alone v (hv.before hs.orderly hcall)
  · exact (torn q hq).keep rfl rfl id id
  · rcases operation_mem_take ho with ho | ho
    · exact h.operation o (old _ ho)
    · exact asks o ho
  · exact h.result x (old _ (returned_mem_take hx))
  · rcases List.mem_append.mp ho with ho | ho
    · exact h.outcome o ho
    · exact outcome o ho

/-- A turn of another task. -/
theorem torn_elsewhere (hs : Coherent p l) {u : Turn} (hu : u.task? ≠ some t) (q : Progress)
    (hq : (l.session.step u).session.progressOf t = some q) :
    TornTo { l with session := (l.session.step u).session } q := by
  have haside : Aside l.session u := by
    intro v hv
    rw [h.alone v hv]
    exact hu
  rw [h.progressOf_elsewhere hs hu] at hq
  exact (h.torn q hq).keep (haside.phase hs.orderly) (haside.document hs.orderly) id
    fun hclosed => closed_bus_step hclosed u

/-- A turn of the disposal itself. -/
theorem torn_own {q : Progress} (hq : l.session.progressOf t = some q) {r : Resumption}
    (hr : ∀ x, r = .returned x → l.channel.closed = true) {x : Turned}
    (hturn : DisposalTurn l.session t q r x) (q' : Progress) (hq' : x.session.progressOf t = some q') :
    TornTo { l with session := x.session } q' := by
  have htorn := h.torn q hq
  have hwrapped (hphase : l.session.phase = .disposed) (hdocument : l.session.document = none)
      (hclosed : l.channel.closed = true)
      (hq' : (l.session.wrapUp t).session.progressOf t = some q') :
      TornTo { l with session := (l.session.wrapUp t).session } q' := by
    rw [session_wrapUp] at hq' ⊢
    obtain rfl : .finished = q' := Option.some.inj ((progressOf_moveTask_self
      (show l.session.shutDown.progressOf t = some q from hq) _).symm.trans hq')
    exact ⟨hphase, hdocument, hclosed, rfl⟩
  cases hturn with
  | idle =>
    obtain rfl : q = q' := Option.some.inj (hq.symm.trans hq')
    exact htorn
  | begun phase document _ stage =>
    obtain rfl : .closingChannel = q' := Option.some.inj (stage.symm.trans hq')
    exact ⟨phase, document⟩
  | again before => exact absurd before htorn
  | released text reader =>
    obtain rfl : .awaitingReader reader = q' :=
      Option.some.inj ((progressOf_moveTask_self hq _).symm.trans hq')
    exact ⟨htorn.1, htorn.2, hr _ rfl⟩
  | unread text => exact hwrapped htorn.1 htorn.2 (hr _ rfl) hq'
  | joined reader => exact hwrapped htorn.1 htorn.2.1 htorn.2.2 hq'

/-- **A disposal goes on** whatever happens, as long as no call is made and nobody gives up. -/
theorem step (hs : Coherent p l) {x : Occurrence} (hcall : ∀ c, x ≠ .call c)
    (hkeeps : ∀ v, x ≠ .giveUp v) : Disposes (l.step x) t := by
  generalize hl : l.step x = l'
  have hx := stepped_step l x
  rw [hl] at hx
  cases hx with
  | outside arrived streamEnd =>
    exact ⟨h.job, h.alone, fun q hq => (h.torn q hq).keep rfl rfl id id, h.operation, h.result, h.outcome⟩
  | operation place v o text here =>
    refine h.set here (fun hclosed => closed_perform text (.inl hclosed)) ?_
    rintro rfl
    exact ⟨⟨"", rfl⟩, closed_perform text (.inr rfl)⟩
  | turn u demands arrived prompted old =>
    have hnocall (c : Call) : u ≠ .call c := by
      rintro rfl
      exact hcall c (hs.eq_call prompted)
    by_cases hu : u.task? = some t
    · obtain ⟨r, rfl⟩ := Turn.exists_resume hu
      -- its results are those that operations left, and nobody makes it give up
      have hresult (y : Except Failure String) (hr : r = .returned y) :
          (∃ text, y = .ok text) ∧ l.channel.closed = true := by
        subst hr
        cases prompted with
        | demanded mem => exact h.result y mem
      have hgoes : r ≠ .cancelled := by
        rintro rfl
        cases prompted with
        | demanded mem =>
          obtain ⟨job, hj, hno⟩ := hs.concerns _ mem
          exact hno _ (Option.some.inj (hj.symm.trans h.job))
        | gaveUp => exact hkeeps t rfl
      obtain ⟨q, hq, hof⟩ := h.exists_stage hs
      have hturn : DisposalTurn l.session t q r (l.session.step (.resume t r)) := by
        refine disposalTurn_resume (task_of_views h.job hq) hof hgoes fun f hr => ?_
        obtain ⟨⟨text, heq⟩, -⟩ := hresult _ hr
        cases heq
      refine h.step_turn hs hnocall arrived old ?_ (fun o ho => hturn.asks ho) fun o ho => ?_
      · exact h.torn_own hq (fun y hr => (hresult y hr).2) hturn
      · exact hturn.succeeded h.job (mem_endings.mpr ho)
    · refine h.step_turn hs hnocall arrived old (h.torn_elsewhere hs hu) (fun o ho => ?_) fun o ho => ?_
      · exact absurd (operation_of_perform ho).1 hu
      · exact absurd (task?_of_completed ho) hu

end Disposes

/-! ## Stopped writers -/

/-- What a session learned of the closing of its channel is true. -/
structure ClosedFirst (l : Loop) : Prop where
  writer : l.session.writer = .stopped → l.channel.closed = true
  awaiting : ∀ t v, l.session.progressOf t = some (.awaitingReader v) → l.channel.closed = true
  operation : ∀ t o, l.session.jobOf t = some (.call .dispose) → .operation t o ∈ l.demands → o = .closeChannel
  result : ∀ t text, l.session.jobOf t = some (.call .dispose) →
    .turn (.resume t (.returned (.ok text))) ∈ l.demands → l.channel.closed = true

theorem closedFirst_new (p : Profile) (peer : Channel.Peer) (surroundings : Channel.Surroundings) :
    ClosedFirst (new p peer surroundings) := by
  refine ⟨fun h => ?_, fun t v h => ?_, fun t o h => ?_, fun t text h => ?_⟩ <;> cases h

namespace ClosedFirst

variable {p : Profile} {l : Loop} (h : ClosedFirst l) (hs : Sound p l)
include h hs

omit hs in
theorem operate {place t : Nat} {o : Operation} (text : Except Failure String)
    (here : l.demands[place]? = some (.operation t o)) : ClosedFirst { l with
      channel := (perform l.channel text o).1
      demands := l.demands.set place (.turn (.resume t (.returned (perform l.channel text o).2))) } := by
  have hstays (hclosed : l.channel.closed = true) := closed_perform text (o := o) (.inl hclosed)
  refine ⟨fun hw => hstays (h.writer hw), fun v w hv => hstays (h.awaiting v w hv), fun v o' hj hmem => ?_,
    fun v x hj hmem => ?_⟩
  · rcases List.mem_or_eq_of_mem_set hmem with hmem | heq
    · exact h.operation v o' hj hmem
    · cases heq
  · rcases List.mem_or_eq_of_mem_set hmem with hmem | heq
    · exact hstays (h.result v x hj hmem)
    · simp only [Demand.turn.injEq, Turn.resume.injEq] at heq
      obtain ⟨rfl, -⟩ := heq
      exact closed_perform text (.inr (h.operation v o hj (List.mem_of_getElem? here)))

theorem turn {x : Occurrence} {u : Turn} (prompted : Prompted l x u) {demands : List Demand}
    (arrived : List Json) (old : ∀ d ∈ demands, d ∈ l.demands) :
    ClosedFirst ({ l with demands := demands, arrived := arrived }.take u) := by
  have ho := hs.orderly
  have hown {t : Nat} (job : l.session.jobOf t = some (.call .dispose)) (hu : u.task? = some t)
      (learned : (l.session.step u).session.writer ≠ l.session.writer ∨
        ∃ v, (l.session.step u).session.progressOf t = some (.awaitingReader v)) :
      l.channel.closed = true := by
    obtain ⟨r, rfl⟩ := Turn.exists_resume hu
    rcases closed_of_resume ho job learned with ⟨v, hv⟩ | ⟨text, rfl⟩
    · exact h.awaiting t v hv
    · cases prompted with
      | demanded mem => exact h.result t text job mem
  have hbefore {t : Nat} {job : Job} (hjob : l.session.jobOf t = some job)
      (hj : (l.session.step u).session.jobOf t = some (.call .dispose)) :
      l.session.jobOf t = some (.call .dispose) := by
    rw [hjob, ← hj, ho.jobOf_step u hjob]
  refine ⟨fun hw => ?_, fun t v hv => ?_, fun t o hj hmem => ?_, fun t text hj hmem => ?_⟩
  · by_cases hsame : (l.session.step u).session.writer = l.session.writer
    · exact h.writer (hsame ▸ hw)
    · cases course_step ho u with
      | wrappedUp t turn job => exact hown job turn (.inl hsame)
      | steady same => exact absurd same.writer hsame
      | shaken _ _ _ _ _ _ _ _ writer | disposed _ _ _ _ _ _ _ _ _ _ writer
      | ended _ _ _ _ _ _ _ _ _ _ _ writer | spawned _ _ _ _ writer | accounted _ _ _ _ writer =>
        exact absurd writer hsame
  · change (l.session.step u).session.progressOf t = some (.awaitingReader v) at hv
    have hj := Disposing.job (.inr ⟨v, hv⟩) (ho.step u)
    cases hp : l.session.progressOf t with
    | none =>
      rcases ho.progressOf_fresh u hp with hfresh | hfresh <;> cases hfresh.symm.trans hv
    | some q =>
      obtain ⟨_, hk, rfl⟩ := Option.map_eq_some_iff.mp hp
      by_cases hu : u.task? = some t
      · exact hown (hbefore (jobOf_of_get hk) hj) hu (.inr ⟨v, hv⟩)
      · obtain ⟨q', hq', hqq⟩ := ho.progressOf_step hu hp
        obtain rfl := Option.some.inj (hq'.symm.trans hv)
        rcases hqq with hsame | ⟨_, _, _, _, _, heq⟩
        · exact h.awaiting t v (hsame ▸ hp)
        · cases heq
  · rcases operation_mem_take hmem with hmem | he
    · obtain ⟨job, hjob, -⟩ := hs.fits _ (old _ hmem)
      exact h.operation t o (hbefore hjob hj) (old _ hmem)
    · obtain ⟨-, job, hjob, -⟩ := operation_of_perform he
      exact closes_of_perform ho (hbefore hjob hj) he
  · have hmem := old _ (returned_mem_take hmem)
    obtain ⟨job, hjob, -⟩ := hs.fits _ hmem
    exact h.result t text (hbefore hjob hj) hmem

theorem step (x : Occurrence) : ClosedFirst (l.step x) := by
  generalize hl : l.step x = l'
  have hx := stepped_step l x
  rw [hl] at hx
  cases hx with
  | outside arrived streamEnd => exact ⟨h.writer, h.awaiting, h.operation, h.result⟩
  | operation place t o text here => exact h.operate text here
  | turn u demands arrived prompted old _ => exact h.turn hs prompted arrived old

end ClosedFirst

/-- **A writer is stopped after its channel was closed.** -/
theorem closedFirst_run (p : Profile) (peer : Channel.Peer) (surroundings : Channel.Surroundings)
    (h : List Occurrence) : ClosedFirst ((new p peer surroundings).run h) := by
  have hboth := run_preserves (P := fun l => Sound p l ∧ ClosedFirst l) (Q := fun _ => True)
    (fun _ x _ hl => ⟨hl.1.step x, hl.2.step hl.1 x⟩) (h := h) (fun _ _ => trivial)
    ⟨sound_new p peer surroundings, closedFirst_new p peer surroundings⟩
  exact hboth.2

/-- While a session is open and its channel was not closed, no message is refused. -/
theorem refusal?_of_unclosed (p : Profile) (peer : Channel.Peer) (surroundings : Channel.Surroundings)
    {h : List Occurrence} (opened : ((new p peer surroundings).run h).session.whyClosed? = none)
    (unclosed : ((new p peer surroundings).run h).channel.closed = false) :
    ((new p peer surroundings).run h).session.refusal? = none := by
  refine refusal?_eq_none.mpr ⟨opened, fun stopped => ?_⟩
  rw [(closedFirst_run p peer surroundings h).writer stopped] at unclosed
  cases unclosed

/-! ## The end -/

/-- A session is disposed of, and its channel is closed: nothing is pending, no document is listed, nobody
can subscribe. -/
structure TornDown (l : Loop) : Prop where
  channel : l.channel.closed = true
  phase : l.session.phase = .disposed
  pending : l.session.pending = []
  document : l.session.document = none
  bus : l.session.bus.closed = true

/-- **A disposal that is over has torn the session down.** -/
theorem Disposes.tornDown {p : Profile} {l : Loop} {t : Nat} (h : Disposes l t) (hs : Coherent p l)
    (finished : l.session.progressOf t = some .finished) : TornDown l := by
  obtain ⟨hphase, hdocument, hchannel, hbus⟩ := h.torn _ finished
  refine ⟨hchannel, hphase, ?_, hdocument, hbus⟩
  apply List.eq_nil_iff_forall_not_mem.mpr
  rintro ⟨id, v⟩ hpending
  have hv := underWay_of_pending hs.orderly hs.consistent hpending
  obtain rfl := h.alone v hv
  exact hv.2 finished

end Loop

end EditorServices.Session
