import EditorServices.Proofs.Session.Asking
import EditorServices.Proofs.Session.Dealing

/-!
# `Proofs.Session.Ending` — how a session ends, and that it stays ended

Two turns end a session: the one in which its reader sees the end of the inbound stream, and the first
turn of a disposal. Both fail all that is pending. Only a new handshake could undo this, which callers
must not begin; without one, nothing is pending and nothing is sent from then on.

## Contents
- **The course of a session.** `Course`, what a turn does to the phase, the end, and the tasks that end
  with the session; `course_step`.
- **Ends.** `EndTurn`, `Over`, `over_of_endTurn` and `Over.step`.
- **Failed requests.** Replies that are failures come from the end of the session.
- **Stopped writers.** `Disposing`, for disposals that go on; nothing else stops a writer, by `writer_step`.
- **Dependents.** The tasks that end with a session are no calls.
-/

namespace EditorServices.Session

/-! ## The course of a session -/

/-- Nothing that tells how far a session has come is different. -/
structure Steady (s s' : Session) : Prop where
  phase : s'.phase = s.phase
  ended : s'.ended = s.ended
  background : s'.background = s.background
  reader : s'.reader = s.reader
  writer : s'.writer = s.writer

namespace Steady

variable {s s' : Session} {t : Nat}

theorem refl (s : Session) : Steady s s := ⟨rfl, rfl, rfl, rfl, rfl⟩

theorem finish (s : Session) (t : Nat) (o : Except Failure Answer) :
    Steady s (s.finish t o).session := by
  rw [session_finish]
  exact ⟨rfl, rfl, rfl, rfl, rfl⟩

theorem transmit (s : Session) (t : Nat) (m : Json) (next : Progress) :
    Steady s (s.transmit t m next).session := by
  rw [session_transmit]
  exact ⟨rfl, rfl, rfl, rfl, rfl⟩

theorem ask (s : Session) (t : Nat) (purpose : Purpose) (method : String) (params : Json) :
    Steady s (s.ask t purpose method params).session := by
  rw [session_ask]
  split <;> exact ⟨rfl, rfl, rfl, rfl, rfl⟩

theorem tell (s : Session) (t : Nat) (n : Notification) (rs : List Bus.Subscription) :
    Steady s (s.tell t n rs).session := by
  obtain ⟨p, hp, -⟩ := session_tell s t n rs
  rw [hp]
  exact ⟨rfl, rfl, rfl, rfl, rfl⟩

theorem conclude (s : Session) (t : Nat) (purpose : Purpose) (id : Nat) (r : Reply) :
    Steady s (s.conclude t purpose id r).session := by
  obtain ⟨p, hp, -⟩ := session_conclude s t purpose id r
  rw [hp]
  exact ⟨rfl, rfl, rfl, rfl, rfl⟩

theorem reply (s : Session) (t : Nat) (r : Reply) : Steady s (s.reply t r).session := by
  unfold Session.reply
  split <;> exact ⟨rfl, rfl, rfl, rfl, rfl⟩

theorem trans {q : Session} (h : Steady s q) (g : Steady q s') : Steady s s' :=
  ⟨g.phase.trans h.phase, g.ended.trans h.ended, g.background.trans h.background,
    g.reader.trans h.reader, g.writer.trans h.writer⟩

theorem failPending (s : Session) (reason : String) : Steady s (s.failPending reason).session :=
  replyAll_preserves (P := fun x => Steady s x) (fun x t h => h.trans (reply x t _)) _
    ⟨rfl, rfl, rfl, rfl, rfl⟩

theorem whyClosed? (h : Steady s s') : s'.whyClosed? = s.whyClosed? := by
  unfold Session.whyClosed?
  rw [h.phase, h.ended]

end Steady

theorem jobOf_ask (s : Session) (t : Nat) (purpose : Purpose) (method : String) (params : Json)
    (v : Nat) : (s.ask t purpose method params).session.jobOf v = s.jobOf v := by
  rw [session_ask]
  split
  · exact jobOf_moveTask s t v _
  · exact jobOf_moveTask _ t v _

/-- What a turn does to the course of a session. -/
inductive Course (s : Session) (u : Turn) (s' : Session) : Prop where
  /-- Nothing. -/
  | steady (same : Steady s s')
  /-- A handshake goes on: it begins, finds the channel open and starts the reader, or is over. -/
  | shaken (t : Nat) (turn : u.task? = some t) (job : s.jobOf t = some (.call .handshake))
      (active : s.progressOf t ≠ some .finished)
      (phase : s'.phase = s.phase ∨
        u = .resume t .begins ∧ s.progressOf t = some .created ∧ s'.phase = .initializing ∨
        (∃ text, u = .resume t (.returned (.ok text))) ∧ s.progressOf t = some .announcing ∧
          s'.phase = .ready) (ended : s'.ended = s.ended)
      (background : s'.background = s.background)
      (reader : s'.reader = s.reader ∨
        ∃ v, s'.reader = some v ∧ s'.jobOf v = some .listen) (writer : s'.writer = s.writer)
  /-- The session is disposed of. -/
  | disposed (t : Nat) (turn : u = .resume t .begins) (job : s.jobOf t = some (.call .dispose))
      (created : s.progressOf t = some .created) (before : s.phase ≠ .disposed)
      (phase : s'.phase = .disposed) (ended : s'.ended = s.ended) (pending : s'.pending = [])
      (background : s'.background = s.background) (reader : s'.reader = s.reader)
      (writer : s'.writer = s.writer)
  /-- A disposal is over, and the writer is stopped. -/
  | wrappedUp (t : Nat) (turn : u.task? = some t) (job : s.jobOf t = some (.call .dispose))
      (stage : s.progressOf t = some .closingChannel ∨ ∃ v, s.progressOf t = some (.awaitingReader v))
      (phase : s'.phase = s.phase) (ended : s'.ended = s.ended) (background : s'.background = s.background)
      (reader : s'.reader = s.reader) (writer : s'.writer = s.writer.stop)
  /-- The inbound stream is over. -/
  | ended (t : Nat) (reason : String) (error : Option String)
      (turn : u = .resume t (.streamEnded reason error)) (listening : s.progressOf t = some .listening)
      (before : s.phase ≠ .disposed) (phase : s'.phase = s.phase)
      (ended : s'.ended = some (endReason reason error)) (pending : s'.pending = [])
      (background : s'.background = s.background) (reader : s'.reader = s.reader)
      (writer : s'.writer = s.writer)
  /-- A message of the server starts tasks that nobody waits for. -/
  | spawned (phase : s'.phase = s.phase) (ended : s'.ended = s.ended) (reader : s'.reader = s.reader)
      (background : ∀ v ∈ s'.background, v ∈ s.background ∨
        ∃ job, s'.jobOf v = some job ∧ ∀ c, job ≠ .call c) (writer : s'.writer = s.writer)
  /-- Such a task is accounted for. -/
  | accounted (phase : s'.phase = s.phase) (ended : s'.ended = s.ended) (reader : s'.reader = s.reader)
      (background : ∀ v ∈ s'.background, v ∈ s.background) (writer : s'.writer = s.writer)

section
variable {s : Session} {t : Nat}

/-- A disposal is over. -/
theorem course_wrapUp {u : Turn} (hu : u.task? = some t) (hj : s.jobOf t = some (.call .dispose))
    (stage : s.progressOf t = some .closingChannel ∨ ∃ v, s.progressOf t = some (.awaitingReader v)) :
    Course s u (s.wrapUp t).session := by
  rw [session_wrapUp]
  exact .wrappedUp t hu hj stage rfl rfl rfl rfl rfl

/-- An operation that succeeded. -/
theorem course_continueWith {p : Progress} {job : Job} (hisOf : p.IsOf job) (hj : s.jobOf t = some job)
    (hp : s.progressOf t = some p) (text : String) :
    Course s (.resume t (.returned (.ok text))) (s.continueWith t job text p).session := by
  have hactive (h : p ≠ .finished) : s.progressOf t ≠ some .finished := by
    rw [hp]
    exact fun heq => h (Option.some.inj heq)
  cases p with
  | openingChannel =>
    obtain rfl : job = .call .handshake := hisOf
    -- the reader is the task that was just added
    have hask := Steady.ask { (s.addTask .listen).1 with reader := some s.tasks.length } t .handshake
      handshakeMethod (handshakeParams s.profile)
    refine .shaken t rfl hj (hactive (by simp)) (.inl hask.phase) hask.ended hask.background
      (.inr ⟨s.tasks.length, hask.reader, ?_⟩) hask.writer
    show (Session.ask { (s.addTask .listen).1 with reader := some s.tasks.length } t .handshake
      handshakeMethod (handshakeParams s.profile)).session.jobOf s.tasks.length = some .listen
    rw [jobOf_ask]
    exact (jobOf_addTask s .listen s.tasks.length).trans (if_pos rfl)
  | requesting purpose id written reply =>
    cases written with
    | true => exact .steady (.refl s)
    | false =>
      refine .steady ?_
      show Steady s (s.requestWritten t purpose id reply).session
      unfold requestWritten
      rw [Turned.session_after]
      cases reply with
      | some r => exact .conclude s t purpose id r
      | none => exact ⟨rfl, rfl, rfl, rfl, rfl⟩
  | announcing =>
    obtain rfl : job = .call .handshake := hisOf
    have hs : (s.continueWith t (.call .handshake) text .announcing).session
        = { s with phase := .ready }.moveTask t .finished := by
      show (({ s with phase := .ready }.succeed t).after _).session = _
      rw [Turned.session_after, session_succeed]
    rw [hs]
    exact .shaken t rfl hj (hactive (by simp)) (.inr (.inr ⟨⟨text, rfl⟩, hp, rfl⟩)) rfl rfl (.inl rfl) rfl
  | reading =>
    refine .steady ?_
    show Steady s (s.openWith t text).session
    unfold openWith
    dsimp only
    split
    · exact .finish s t _
    · refine .trans ?_ (.transmit _ t _ _)
      exact ⟨rfl, rfl, rfl, rfl, rfl⟩
  | opening => exact .steady ⟨rfl, rfl, rfl, rfl, rfl⟩
  | updating | answering => exact .steady (.finish s t _)
  | closing =>
    refine .steady (.trans ?_ (.finish { s with document := none } t _))
    exact ⟨rfl, rfl, rfl, rfl, rfl⟩
  | closingChannel =>
    obtain rfl : job = .call .dispose := hisOf
    show Course s _ (s.channelClosed t).session
    unfold channelClosed
    split
    · exact course_wrapUp rfl hj (.inl hp)
    · exact .steady ⟨rfl, rfl, rfl, rfl, rfl⟩
  | created | settling | telling | listening | awaitingReader | finished => exact .steady (.refl s)

/-- An operation that failed. -/
theorem steady_continueWithout (s : Session) (t : Nat) (f : Failure) (p : Progress) :
    Steady s (s.continueWithout t f p).session := by
  cases p with
  | requesting purpose id written reply =>
    cases written with
    | true => exact .refl s
    | false =>
      refine .trans ?_ (.finish (s.dropRequest id) t _)
      exact ⟨rfl, rfl, rfl, rfl, rfl⟩
  | openingChannel | announcing | reading | opening | updating | closing | answering
  | closingChannel => exact .finish s t _
  | created | settling | telling | listening | awaitingReader | finished => exact .refl s

/-- A task that has to give up. -/
theorem course_abandon {p : Progress} {job : Job} (hisOf : p.IsOf job) (hj : s.jobOf t = some job)
    (hp : s.progressOf t = some p) : Course s (.resume t .cancelled) (s.abandon t p).session := by
  cases p with
  | finished => exact .steady (.refl s)
  | requesting purpose id written reply =>
    refine .steady (.trans ?_ (.finish (s.dropRequest id) t _))
    exact ⟨rfl, rfl, rfl, rfl, rfl⟩
  | awaitingReader reader =>
    obtain rfl : job = .call .dispose := hisOf
    exact course_wrapUp rfl hj (.inr ⟨reader, hp⟩)
  | created | openingChannel | announcing | reading | opening | settling | updating | closing | answering
  | telling | listening | closingChannel => exact .steady (.finish s t _)

theorem course_beginDispose (hj : s.jobOf t = some (.call .dispose))
    (hp : s.progressOf t = some .created) :
    Course s (.resume t .begins) (s.beginDispose t).session := by
  unfold beginDispose
  split
  · exact .steady (.finish s t _)
  · next hphase =>
    have hf := Steady.failPending { s with phase := .disposed } "session disposed"
    exact .disposed t rfl hj hp hphase hf.phase hf.ended (pending_failPending _ _) hf.background hf.reader
      hf.writer

theorem course_begin {job : Job} (hj : s.jobOf t = some job) (hp : s.progressOf t = some .created) :
    Course s (.resume t .begins) (s.begin t job).session := by
  cases job with
  | call c =>
    cases c with
    | handshake =>
      refine .shaken t rfl hj ?_ (.inr (.inl ⟨rfl, hp, rfl⟩)) rfl rfl (.inl rfl) rfl
      rw [hp]
      simp
    | openDocument => exact .steady ⟨rfl, rfl, rfl, rfl, rfl⟩
    | updateDocument text =>
      refine .steady ?_
      show Steady s (s.beginUpdate t text).session
      unfold beginUpdate
      split
      · exact .finish s t _
      · refine .trans ?_ (.transmit _ t _ _)
        exact ⟨rfl, rfl, rfl, rfl, rfl⟩
    | closeDocument =>
      refine .steady ?_
      show Steady s (s.beginClose t).session
      unfold beginClose
      split
      · exact .finish s t _
      · exact .transmit s t _ _
    | ask q line character => exact .steady (.ask s t _ _ _)
    | dispose => exact course_beginDispose hj hp
  | listen => exact .steady ⟨rfl, rfl, rfl, rfl, rfl⟩
  | answer id method params =>
    refine .steady ?_
    show Steady s (s.beginAnswer t id method params).session
    unfold beginAnswer
    split
    · exact .finish s t _
    · split
      · exact .finish s t _
      · exact .transmit s t _ _
  | publish n =>
    refine .steady ?_
    show Steady s (s.beginPublish t n).session
    unfold beginPublish
    split
    · exact .finish s t _
    · exact .tell s t n _

theorem course_streamEnded (hp : s.progressOf t = some .listening) (reason : String)
    (error : Option String) : Course s (.resume t (.streamEnded reason error))
      (s.streamEnded t reason error).session := by
  unfold streamEnded
  dsimp only
  rw [Turned.session_after, Turned.session_andThen, session_succeed]
  split
  · exact .steady ⟨rfl, rfl, rfl, rfl, rfl⟩
  · next hphase =>
    have hf := Steady.failPending { s with ended := some (endReason reason error) } (endReason reason error)
    exact .ended t reason error rfl hp hphase hf.phase hf.ended (pending_failPending _ _) hf.background
      hf.reader hf.writer

theorem course_resume {job : Job} {p : Progress} (hk : s.tasks[t]? = some ⟨job, p⟩) (hisOf : p.IsOf job)
    (r : Resumption) : Course s (.resume t r) (s.resume t r).session := by
  have hj := jobOf_of_get hk
  have hp := progressOf_of_get hk
  unfold resume
  rw [hk]
  dsimp only
  split
  · exact course_begin hj hp
  · exact course_continueWith hisOf hj hp _
  · exact .steady (steady_continueWithout s t _ _)
  · exact .steady (.conclude s t _ _ _)
  · exact .steady (.finish s t _)
  · split
    · exact .steady (.tell s t _ _)
    · exact .steady (.refl s)
  · exact course_streamEnded hp _ _
  · next reader =>
    obtain rfl : job = .call .dispose := hisOf
    exact course_wrapUp rfl hj (.inr ⟨reader, hp⟩)
  · exact course_abandon hisOf hj hp
  · exact .steady (.refl s)

end

/-! ### Turns that are nobody's -/

/-- A session in which further tasks run that nobody waits for. -/
structure Joined (s s' : Session) : Prop where
  phase : s'.phase = s.phase
  ended : s'.ended = s.ended
  reader : s'.reader = s.reader
  writer : s'.writer = s.writer
  background : ∀ v ∈ s'.background, v ∈ s.background ∨
    ∃ job, s'.jobOf v = some job ∧ ∀ c, job ≠ .call c

namespace Joined

variable {s q s' : Session}

theorem ofSteady (h : Steady s s') : Joined s s' :=
  ⟨h.phase, h.ended, h.reader, h.writer, fun _ hv => .inl (h.background ▸ hv)⟩

theorem spawn (s : Session) {job : Job} (h : ∀ c, job ≠ .call c) : Joined s (s.spawn job).session := by
  refine ⟨rfl, rfl, rfl, rfl, fun v hv => ?_⟩
  rcases List.mem_append.mp hv with hv | hv
  · exact .inl hv
  · refine .inr ⟨job, ?_, h⟩
    rw [List.mem_singleton.mp hv]
    exact (jobOf_addTask s job _).trans (if_pos rfl)

/-- What joins later keeps those who joined before. -/
theorem trans (h : Joined s q) (g : Joined q s')
    (kept : ∀ v job, q.jobOf v = some job → s'.jobOf v = some job) : Joined s s' := by
  refine ⟨g.phase.trans h.phase, g.ended.trans h.ended, g.reader.trans h.reader, g.writer.trans h.writer,
    fun v hv => ?_⟩
  rcases g.background v hv with hv | hv
  · rcases h.background v hv with hv | ⟨job, hj, hc⟩
    · exact .inl hv
    · exact .inr ⟨job, kept v job hj, hc⟩
  · exact .inr hv

theorem noticeDiagnostics {method params : Json} {r : Turned}
    (h : s.noticeDiagnostics method params = some r) : Joined s r.session := by
  have hsame : ∀ {r : Turned}, some (⟨s, []⟩ : Turned) = some r → Joined s r.session := by
    rintro r ⟨⟩
    exact ofSteady (.refl s)
  unfold Session.noticeDiagnostics at h
  split at h
  · split at h
    · unfold receiveDiagnostics at h
      split at h
      · split at h
        · cases h
        · cases h
          exact ofSteady ⟨rfl, rfl, rfl, rfl, rfl⟩
      · exact hsame h
    · exact hsame h
  · exact hsame h

theorem answerRequest (s : Session) (id : Option Json) (method params : Json) :
    Joined s (s.answerRequest id method params).session := by
  cases id with
  | none => exact ofSteady (.refl s)
  | some id => exact spawn s (by simp)

theorem tellOf (s : Session) (id : Option Json) (method params : Json) :
    Joined s (s.tellOf id method params).session ∧ Kept s (s.tellOf id method params).session := by
  unfold Session.tellOf
  split
  · exact ⟨spawn s (by simp), .ofGrown (.spawn s (by simp))⟩
  · exact ⟨ofSteady (.refl s), .refl s⟩

theorem receive (s : Session) (m : Json) : Joined s (s.receive m).session := by
  unfold Session.receive
  split
  · split
    · next ms _ method _ =>
      unfold receiveMethod
      dsimp only
      split
      · exact ofSteady (.refl s)
      · next noticed hn =>
        rw [Turned.session_andThen, Turned.session_andThen]
        have hanswer := Kept.ofGrown (s := noticed.session)
          (q := (noticed.session.answerRequest (Named.get? ms "id") method
            (Json.field (.obj ms) "params")).session) (by
              cases Named.get? ms "id" with
              | none => exact .refl _
              | some id => exact .spawn _ (by simp))
        refine (noticeDiagnostics hn).trans ((answerRequest _ _ _ _).trans (tellOf _ _ _ _).1
          fun v job hj => (tellOf _ _ _ _).2.job hj) fun v job hj => ?_
        exact (tellOf _ _ _ _).2.job (hanswer.job hj)
    · unfold receiveResponse
      dsimp only
      split
      · split
        · refine ofSteady (.trans ?_ (.reply _ _ _))
          exact ⟨rfl, rfl, rfl, rfl, rfl⟩
        · exact ofSteady (.refl s)
      · exact ofSteady (.refl s)
  · exact ofSteady (.refl s)

end Joined

/-- **What a turn does to the course of a session.** -/
theorem course_step {s : Session} (ho : Orderly s) (u : Turn) : Course s u (s.step u).session := by
  cases u with
  | call c => exact .steady ⟨rfl, rfl, rfl, rfl, rfl⟩
  | account t f =>
    exact .accounted rfl rfl rfl (fun v hv => List.mem_of_mem_erase hv) rfl
  | receive m =>
    have h := Joined.receive s m
    exact .spawned h.phase h.ended h.reader h.background h.writer
  | resume t r =>
    show Course s (.resume t r) (s.resume t r).session
    cases hk : s.tasks[t]? with
    | none =>
      rw [show s.resume t r = ⟨s, []⟩ by rw [resume, hk]]
      exact .steady (.refl s)
    | some k => exact course_resume hk (ho t _ _ (jobOf_of_get hk) (progressOf_of_get hk)) r

/-! ## Ends -/

/-- Every handshake that was begun is over. -/
def Shaken (s : Session) : Prop :=
  ∀ t, s.jobOf t = some (.call .handshake) → s.progressOf t = some .finished

/-- A look at the tasks tells whether every handshake is over. -/
theorem shaken_of_tasks {s : Session} (h : ∀ k ∈ s.tasks, k.job = .call .handshake → k.progress = .finished) :
    Shaken s := by
  intro t ht
  obtain ⟨k, hk, hjob⟩ := Option.map_eq_some_iff.mp ht
  rw [progressOf_of_get hk, h k (List.mem_of_getElem? hk) hjob]

/-- A turn that ends an open session: its reader sees the end of the inbound stream, or a disposal
begins. -/
def EndTurn (s : Session) (u : Turn) : Prop :=
  s.whyClosed? = none ∧
  ((∃ t reason error, u = .resume t (.streamEnded reason error) ∧ s.progressOf t = some .listening) ∨
    ∃ t, u = .resume t .begins ∧ s.jobOf t = some (.call .dispose) ∧ s.progressOf t = some .created)

/-- A session that has ended for good: it is closed, nothing is pending, and no handshake is on its
way. -/
structure Over (s : Session) : Prop where
  closed : s.whyClosed?.isSome = true
  pending : s.pending = []
  shaken : Shaken s

/-- Every handshake stays over while none is begun. -/
theorem Shaken.step {s : Session} (hs : Shaken s) (ho : Orderly s) {u : Turn}
    (hu : u ≠ .call .handshake) : Shaken (s.step u).session := by
  intro t hj
  cases hjob : s.jobOf t with
  | none => exact absurd (ho.jobOf_fresh hjob hj).1 hu
  | some job =>
    obtain rfl : job = .call .handshake := Option.some.inj ((ho.jobOf_step u hjob).symm.trans hj)
    exact ho.finished_step u (hs t hjob)

/-- No handshake that is over goes on. -/
theorem Shaken.not_active {s : Session} (hs : Shaken s) {t : Nat}
    (hj : s.jobOf t = some (.call .handshake)) (hp : s.progressOf t ≠ some .finished) : False :=
  hp (hs t hj)

/-- **A closed session stays closed** while no handshake is begun. -/
theorem isSome_whyClosed?_step {s : Session} (hs : Shaken s) (ho : Orderly s)
    (hc : s.whyClosed?.isSome = true) (u : Turn) : (s.step u).session.whyClosed?.isSome = true := by
  have hsame (phase : (s.step u).session.phase = s.phase) (ended : (s.step u).session.ended = s.ended) :
      (s.step u).session.whyClosed?.isSome = true := by
    simpa only [whyClosed?, phase, ended] using hc
  cases course_step ho u with
  | steady same => rw [same.whyClosed?]; exact hc
  | shaken t _ job active => exact (hs.not_active job active).elim
  | disposed t _ _ _ _ phase => rw [whyClosed?_of_disposed phase]; rfl
  | ended t reason error _ _ _ _ ended => exact isSome_whyClosed?_of_ended ended
  | wrappedUp _ _ _ _ phase ended | spawned phase ended | accounted phase ended => exact hsame phase ended

/-- **What has ended has ended for good.** -/
theorem Over.step {s : Session} (h : Over s) (ho : Orderly s) {u : Turn} (hu : u ≠ .call .handshake) :
    Over (s.step u).session := by
  refine ⟨isSome_whyClosed?_step h.shaken ho h.closed u, ?_, h.shaken.step ho hu⟩
  cases dealing_step s u with
  | still pending | written _ _ _ _ pending => rw [pending, h.pending]
  | registered _ _ isOpen =>
    have := h.closed
    rw [isOpen] at this
    cases this
  | resolved _ _ _ _ listed =>
    rw [h.pending] at listed
    cases listed
  | left _ _ _ pending => rw [pending, h.pending]; rfl
  | failed _ _ pending => exact pending

/-- **The end of a session.** -/
theorem over_of_endTurn {s : Session} (ho : Orderly s) (hs : Shaken s) {u : Turn} (hu : EndTurn s u) :
    Over (s.step u).session := by
  obtain ⟨hopen, hend⟩ := hu
  have hphase := (whyClosed?_eq_none.mp hopen).1
  have hshaken : Shaken (s.step u).session := by
    refine hs.step ho ?_
    rcases hend with ⟨t, reason, error, rfl, -⟩ | ⟨t, rfl, -⟩ <;> simp
  rcases hend with ⟨t, reason, error, rfl, hp⟩ | ⟨t, rfl, hj, hp⟩
  · obtain ⟨⟨job, p⟩, hk, rfl⟩ := Option.map_eq_some_iff.mp hp
    have hs' : (s.step (.resume t (.streamEnded reason error))).session
        = (s.noteEnd (endReason reason error)).session.moveTask t .finished := by
      show (s.resume t _).session = _
      rw [resume, hk]
      show (s.streamEnded t reason error).session = _
      unfold streamEnded
      rw [Turned.session_after, Turned.session_andThen, session_succeed, if_neg hphase]
    have hended : (s.noteEnd (endReason reason error)).session.ended = some (endReason reason error) := by
      simp [noteEnd]
    refine ⟨?_, ?_, hshaken⟩
    · rw [hs', whyClosed?_moveTask]
      exact isSome_whyClosed?_of_ended hended
    · rw [hs', pending_moveTask]
      simp [noteEnd]
  · have hk := task_of_views hj hp
    have hs' : (s.step (.resume t .begins)).session = (s.beginDispose t).session := by
      show (s.resume t .begins).session = _
      rw [resume, hk]
      rfl
    refine ⟨?_, ?_, hshaken⟩
    · rw [hs', beginDispose, if_neg hphase, whyClosed?_of_disposed (by simp)]
      rfl
    · rw [hs', beginDispose, if_neg hphase]
      simp

/-! ## Failed requests -/

section
variable {s : Session} {u : Turn} {v : Nat} {w x : Wait}

/-- A reply that is given in a turn in which no message is received is a failure: the session ended. -/
theorem reply_of_inside (hw : s.waitOf v = some w) (waiting : w.reply = none)
    (inside : ∀ m, u ≠ .receive m) (hx : (s.step u).session.waitOf v = some x) {r : Reply}
    (hr : x.reply = some r) : ∃ reason, r = .error (closedFailure reason) := by
  have hsame (h : s.waitOf v = some x) : False := by
    rw [hw] at h
    cases h
    rw [waiting] at hr
    cases hr
  cases dealing_step s u with
  | still _ _ waits _ => exact (hsame (waits v ▸ hx)).elim
  | registered t _ _ free _ _ waits _ =>
    rw [waits v] at hx
    split at hx
    · next hv => rw [hv, free] at hw; cases hw
    · exact (hsame hx).elim
  | resolved m _ _ message => exact absurd message (inside m)
  | left t _ _ _ _ waits _ =>
    rw [waits v] at hx
    split at hx
    · cases hx
    · exact (hsame hx).elim
  | written t y wait hy _ _ waits _ =>
    rw [waits v] at hx
    split at hx
    · cases hx
      rw [hy] at hr
      cases hr
    · exact (hsame hx).elim
  | failed reason _ _ _ waits _ _ =>
    rw [waits v] at hx
    split at hx
    · rw [hw, Option.map_some] at hx
      obtain rfl := Option.some.inj hx
      rw [w.reply_answered, waiting] at hr
      exact ⟨reason, (Option.some.inj hr).symm⟩
    · exact (hsame hx).elim

/-- **A reply to a written request wakes its task.** -/
theorem wake_of_reply (hs : Consistent s) (hw : s.waitOf v = some w) (written : w.written = true)
    (waiting : w.reply = none) (hx : (s.step u).session.waitOf v = some x) (hr : x.reply ≠ none) :
    .wake v ∈ (s.step u).effects := by
  have hsame (h : s.waitOf v = some x) : .wake v ∈ (s.step u).effects := by
    rw [hw] at h
    cases h
    exact absurd waiting hr
  cases dealing_step s u with
  | still _ _ waits _ => exact hsame (waits v ▸ hx)
  | registered t _ _ free _ _ waits _ =>
    rw [waits v] at hx
    split at hx
    · next hv => rw [hv, free] at hw; cases hw
    · exact hsame hx
  | resolved m _ t _ _ _ _ _ waits wakes =>
    by_cases hv : v = t
    · exact hv ▸ wakes w (hv ▸ hw) written waiting
    · rw [waits v, if_neg hv] at hx
      exact hsame hx
  | left t _ _ _ _ waits _ =>
    rw [waits v] at hx
    split at hx
    · cases hx
    · exact hsame hx
  | written t y wait hy _ _ waits _ =>
    rw [waits v] at hx
    split at hx
    · cases hx
      exact absurd hy hr
    · exact hsame hx
  | failed reason _ _ _ waits _ wakes =>
    exact wakes v (List.mem_map.mpr ⟨_, hs.mem_pending hw waiting, rfl⟩) w hw written waiting

/-- A failure that a wait has as its reply was there before, or comes from the end of the session. -/
theorem failure_step (hx : (s.step u).session.waitOf v = some x) {f : Failure}
    (hf : x.reply = some (.error f)) :
    (∃ w, s.waitOf v = some w ∧ w.reply = some (.error f)) ∨
      (s.step u).session.whyClosed?.isSome = true ∧ ∃ reason, f = closedFailure reason := by
  cases dealing_step s u with
  | still _ _ waits _ => exact .inl ⟨x, waits v ▸ hx, hf⟩
  | registered t _ _ _ _ _ waits _ =>
    rw [waits v] at hx
    split at hx
    · cases hx
      cases hf
    · exact .inl ⟨x, hx, hf⟩
  | resolved m _ t _ _ _ _ _ waits _ =>
    rw [waits v] at hx
    split at hx
    · next hv =>
      obtain ⟨w, hw, rfl⟩ := Option.map_eq_some_iff.mp hx
      rw [w.reply_answered] at hf
      cases hr : w.reply with
      | none => rw [hr] at hf; cases hf
      | some r => exact .inl ⟨w, hv ▸ hw, by rw [hr] at hf; rw [hr]; exact hf⟩
    · exact .inl ⟨x, hx, hf⟩
  | left t _ _ _ _ waits _ =>
    rw [waits v] at hx
    split at hx
    · cases hx
    · exact .inl ⟨x, hx, hf⟩
  | written t y wait _ _ _ waits _ =>
    rw [waits v] at hx
    split at hx
    · next hv =>
      cases hx
      exact .inl ⟨y, hv ▸ wait, hf⟩
    · exact .inl ⟨x, hx, hf⟩
  | failed reason closed _ _ waits _ _ =>
    rw [waits v] at hx
    split at hx
    · obtain ⟨w, hw, rfl⟩ := Option.map_eq_some_iff.mp hx
      rw [w.reply_answered] at hf
      cases hr : w.reply with
      | none =>
        rw [hr] at hf
        cases hf
        exact .inr ⟨closed, reason, rfl⟩
      | some r => exact .inl ⟨w, hw, by rw [hr] at hf; rw [hr]; exact hf⟩
    · exact .inl ⟨x, hx, hf⟩

end

/-- Every failure that a wait has as its reply tells of the end of the session. -/
def Blamed (s : Session) : Prop :=
  ∀ t w f, s.waitOf t = some w → w.reply = some (.error f) → ∃ reason, f = closedFailure reason

theorem blamed_after (p : Profile) (h : List Turn) : Blamed ((new p).after h) := by
  refine after_preserves (P := Blamed) (fun s u hs t x f hx hf => ?_) (fun t w f hw => by cases hw) h
  rcases failure_step hx hf with ⟨w, hw, hwf⟩ | ⟨-, hreason⟩
  · exact hs t w f hw hwf
  · exact hreason

/-- While the stream of a session goes on, the request of a task has not failed. -/
def Unfailed (s : Session) (t : Nat) : Prop :=
  s.ended = none → ∀ w f, s.waitOf t = some w → w.reply ≠ some (.error f)

/-- A stream that has ended does not go on. -/
theorem ended_of_step {s : Session} (ho : Orderly s) {u : Turn} (h : (s.step u).session.ended = none) :
    s.ended = none := by
  cases course_step ho u with
  | steady same => exact same.ended ▸ h
  | shaken _ _ _ _ _ ended | disposed _ _ _ _ _ _ ended | wrappedUp _ _ _ _ _ ended | spawned _ ended
  | accounted _ ended => exact ended ▸ h
  | ended _ _ _ _ _ _ _ ended =>
    rw [ended] at h
    cases h

theorem Unfailed.step {s : Session} {t : Nat} (h : Unfailed s t) (ho : Orderly s) {u : Turn}
    (undisposed : (s.step u).session.waitOf t ≠ none → (s.step u).session.phase ≠ .disposed) :
    Unfailed (s.step u).session t := by
  intro he x f hx hf
  rcases failure_step hx hf with ⟨w, hw, hwf⟩ | ⟨hclosed, -⟩
  · exact h (ended_of_step ho he) w f hw hwf
  · -- a session that is not disposed of and whose stream goes on is open
    rw [whyClosed?_eq_none.mpr ⟨undisposed (by rw [hx]; simp), he⟩] at hclosed
    cases hclosed

/-! ## Stopped writers -/

/-- A disposal goes on: the channel is being closed, or the end of a reader is awaited. -/
def Disposing (s : Session) (t : Nat) : Prop :=
  s.progressOf t = some .closingChannel ∨ ∃ v, s.progressOf t = some (.awaitingReader v)

/-- What disposes of a session was called for that. -/
theorem Disposing.job {s : Session} {t : Nat} (h : s.Disposing t) (ho : Orderly s) :
    s.jobOf t = some (.call .dispose) := by
  have hof {p : Progress} (hp : s.progressOf t = some p) (hjob : ∀ job, p.IsOf job → job = .call .dispose) :
      s.jobOf t = some (.call .dispose) := by
    obtain ⟨⟨job, _⟩, hk, -⟩ := Option.map_eq_some_iff.mp hp
    have hj := jobOf_of_get hk
    rw [hj, hjob job (ho t job p hj hp)]
  rcases h with hp | ⟨v, hp⟩ <;> exact hof hp fun _ hjob => hjob

/-- A disposal that goes on did so before, or has just begun. -/
theorem Disposing.before {s : Session} (ho : Orderly s) {u : Turn} {t : Nat}
    (h : (s.step u).session.Disposing t) : s.Disposing t ∨ (s.step u).session.phase = .disposed := by
  have hnot {p : Progress} (hp : (s.step u).session.progressOf t = some p) (hc : p ≠ .closingChannel)
      (hr : ∀ v, p ≠ .awaitingReader v) : False := by
    rcases h with h | ⟨v, h⟩
    · exact hc (Option.some.inj (hp.symm.trans h))
    · exact hr v (Option.some.inj (hp.symm.trans h))
  have hj := h.job (ho.step u)
  cases hp : s.progressOf t with
  | none =>
    rcases ho.progressOf_fresh u hp with hnone | hcreated
    · rcases h with h | ⟨v, h⟩ <;> rw [hnone] at h <;> cases h
    · exact (hnot hcreated (by simp) (by simp)).elim
  | some p =>
    obtain ⟨⟨job, _⟩, hk, -⟩ := Option.map_eq_some_iff.mp hp
    obtain rfl : job = .call .dispose :=
      Option.some.inj ((ho.jobOf_step u (jobOf_of_get hk)).symm.trans hj)
    have hof := ho t _ p (jobOf_of_get hk) hp
    -- the stages of a disposal: to be begun, the channel being closed, a reader awaited, over
    cases p with
    | closingChannel => exact .inl (.inl hp)
    | awaitingReader v => exact .inl (.inr ⟨v, hp⟩)
    | finished => exact (hnot (ho.finished_step u hp) (by simp) (by simp)).elim
    | created =>
      by_cases hu : u.task? = some t
      · obtain ⟨r, rfl⟩ := Turn.exists_resume hu
        have hk := task_of_views (jobOf_of_get hk) hp
        by_cases hbegins : r = .begins
        · exact .inr (hbegins ▸ phase_dispose (jobOf_of_get hk) hp)
        by_cases hcancelled : r = .cancelled
        · subst hcancelled
          refine (hnot (p := .finished) ?_ (by simp) (by simp)).elim
          show (s.resume t .cancelled).session.progressOf t = some .finished
          rw [resume, hk]
          exact (congrArg (progressOf · t) (session_giveUp s t _)).trans (progressOf_moveTask_self hp _)
        · refine (hnot (p := .created) ?_ (by simp) (by simp)).elim
          show (s.resume t r).session.progressOf t = some .created
          rw [resume_created hk hbegins hcancelled]
          exact hp
      · obtain ⟨q, hq, hpq⟩ := ho.progressOf_step hu hp
        rw [hpq.eq_of_wait? rfl] at hq
        exact (hnot hq (by simp) (by simp)).elim
    | openingChannel | announcing | reading | opening | settling | closing | listening => cases hof
    | requesting purpose id written reply =>
      cases purpose with
      | handshake => cases hof
      | ask q => obtain ⟨_, _, hx⟩ := hof; cases hx
    | updating => obtain ⟨_, hx⟩ := hof; cases hx
    | answering => obtain ⟨_, _, _, hx⟩ := hof; cases hx
    | telling => obtain ⟨_, hx⟩ := hof; cases hx

/-- Only a disposal that goes on stops the writer. -/
theorem writer_step {s : Session} (ho : Orderly s) (u : Turn) :
    (s.step u).session.writer = s.writer ∨ ∃ t, s.Disposing t := by
  cases course_step ho u with
  | steady same => exact .inl same.writer
  | wrappedUp t _ _ stage => exact .inr ⟨t, stage⟩
  | shaken _ _ _ _ _ _ _ _ writer | disposed _ _ _ _ _ _ _ _ _ _ writer
  | ended _ _ _ _ _ _ _ _ _ _ _ writer | spawned _ _ _ _ writer | accounted _ _ _ _ writer =>
    exact .inl writer

/-! ## Dependents -/

/-- The tasks that end with the session are there, and none of them is a call. -/
def Dependable (s : Session) : Prop :=
  ∀ v ∈ s.dependents, ∃ job, s.jobOf v = some job ∧ ∀ c, job ≠ .call c

theorem Dependable.step {s : Session} (h : Dependable s) (ho : Orderly s) (u : Turn) :
    Dependable (s.step u).session := by
  have hkept : ∀ v ∈ s.dependents, ∃ job, (s.step u).session.jobOf v = some job ∧ ∀ c, job ≠ .call c := by
    intro v hv
    obtain ⟨job, hj, hc⟩ := h v hv
    exact ⟨job, ho.jobOf_step u hj, hc⟩
  have hsame (background : (s.step u).session.background = s.background)
      (reader : (s.step u).session.reader = s.reader) : Dependable (s.step u).session := by
    intro v hv
    rw [dependents, background, reader] at hv
    exact hkept v hv
  intro v hv
  cases course_step ho u with
  | steady same => exact hsame same.background same.reader v hv
  | disposed _ _ _ _ _ _ _ _ background reader => exact hsame background reader v hv
  | wrappedUp _ _ _ _ _ _ background reader => exact hsame background reader v hv
  | ended _ _ _ _ _ _ _ _ _ background reader => exact hsame background reader v hv
  | shaken _ _ _ _ _ _ background reader =>
    rcases reader with reader | ⟨w, reader, listens⟩
    · exact hsame background reader v hv
    · rw [dependents, background, reader] at hv
      rcases List.mem_append.mp hv with hv | hv
      · exact hkept v (List.mem_append_left _ hv)
      · rw [Option.toList_some, List.mem_singleton] at hv
        exact ⟨.listen, hv ▸ listens, by simp⟩
  | spawned _ _ reader background =>
    rcases List.mem_append.mp hv with hv | hv
    · rcases background v hv with hv | hnew
      · exact hkept v (List.mem_append_left _ hv)
      · exact hnew
    · exact hkept v (List.mem_append_right _ (reader ▸ hv))
  | accounted _ _ reader background =>
    rcases List.mem_append.mp hv with hv | hv
    · exact hkept v (List.mem_append_left _ (background v hv))
    · exact hkept v (List.mem_append_right _ (reader ▸ hv))

theorem dependable_after (p : Profile) (h : List Turn) : Dependable ((new p).after h) := by
  have hboth : Orderly ((new p).after h) ∧ Dependable ((new p).after h) := by
    refine after_preserves (P := fun s => Orderly s ∧ Dependable s)
      (fun s u hs => ⟨hs.1.step u, hs.2.step hs.1 u⟩) ⟨orderly_new p, fun v hv => ?_⟩ h
    cases hv
  exact hboth.2

end EditorServices.Session
