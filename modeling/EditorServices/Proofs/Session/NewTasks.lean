import EditorServices.Proofs.Session.Stages

/-!
# `Proofs.Session.NewTasks` — a turn starts the tasks that it adds

Tasks are added in a few places only: for a call, for an answer, for the telling of subscribers, and for
the reader of a channel that was opened. Each time the effects ask for the first turn of the new task.
`spawns_step` says so of every turn: the tasks that it adds are those that it starts, in the order of
their places.

## Contents
- **Spawning.** `Spawns`, with the number of tasks that are added, and how it goes along a turn.
- **Parts of turns.** One lemma for each part; most add no task.
- **Turns.** `spawns_resume`, `spawns_receive` and `spawns_step`.
-/

namespace EditorServices.Session

/-! ## Spawning -/

/-- The task that an effect gives its first turn. -/
def Effect.started? : Effect → Option Nat
  | .start t => some t
  | _ => none

/-- A turn adds so many tasks and starts them in their order. -/
structure Spawns (s : Session) (k : Nat) (r : Turned) : Prop where
  length : r.session.tasks.length = s.tasks.length + k
  starts : r.effects.filterMap Effect.started? = List.range' s.tasks.length k

namespace Spawns

variable {s q : Session} {r : Turned} {k : Nat} {t : Nat}

theorem idle (s : Session) : Spawns s 0 ⟨s, []⟩ := ⟨rfl, rfl⟩

/-- A task is moved, and nothing is started. -/
theorem move (s : Session) (t : Nat) (p : Progress) {es : List Effect}
    (hes : es.filterMap Effect.started? = []) : Spawns s 0 ⟨s.moveTask t p, es⟩ :=
  ⟨length_moveTask s t p, hes⟩

/-- What is done first starts nothing. -/
theorem after (h : Spawns s k r) {es : List Effect} (hes : es.filterMap Effect.started? = []) :
    Spawns s k (r.after es) := by
  refine ⟨h.length, ?_⟩
  rw [Turned.effects_after, List.filterMap_append, hes, List.nil_append]
  exact h.starts

theorem andThen (h : Spawns s k r) (f : Session → Turned) {j : Nat} (hf : Spawns r.session j (f r.session)) :
    Spawns s (k + j) (r.andThen f) := by
  refine ⟨?_, ?_⟩
  · rw [Turned.session_andThen, hf.length, h.length, Nat.add_assoc]
  · rw [Turned.effects_andThen, List.filterMap_append, h.starts, hf.starts, h.length]
    exact List.range'_append_1

/-- Only the number of the tasks matters before a turn. -/
theorem congr (h : Spawns q k r) (s : Session) (same : q.tasks.length = s.tasks.length) : Spawns s k r :=
  ⟨same ▸ h.length, same ▸ h.starts⟩

theorem spawn (s : Session) (job : Job) : Spawns s 1 (s.spawn job) := by
  refine ⟨?_, rfl⟩
  exact List.length_append

/-- What is new is started. -/
theorem start_of_le (h : Spawns s k r) (hle : s.tasks.length ≤ t) (hlt : t < r.session.tasks.length) :
    .start t ∈ r.effects := by
  rw [h.length] at hlt
  have hmem : t ∈ r.effects.filterMap Effect.started? := by
    rw [h.starts]
    exact List.mem_range'_1.mpr ⟨hle, hlt⟩
  obtain ⟨e, he, het⟩ := List.mem_filterMap.mp hmem
  cases e with
  | start v =>
    cases het
    exact he
  | _ => cases het

end Spawns

/-! ## Parts of turns -/

section

variable (s : Session) (t : Nat)

theorem spawns_finish (o : Except Failure Answer) : Spawns s 0 (s.finish t o) := by
  refine ⟨by rw [session_finish, length_moveTask]; rfl, ?_⟩
  unfold finish
  split
  · rfl
  · rfl
  · show ((s.waitingFor t).map Effect.rejoin).filterMap Effect.started? = []
    rw [List.filterMap_map]
    exact List.filterMap_eq_nil_iff.mpr fun _ _ => rfl
  · rfl
  · rfl

theorem spawns_transmit (m : Json) (next : Progress) : Spawns s 0 (s.transmit t m next) := by
  unfold transmit
  split
  · exact spawns_finish s t _
  · exact .move s t next rfl

theorem spawns_ask (purpose : Purpose) (method : String) (params : Json) :
    Spawns s 0 (s.ask t purpose method params) := by
  unfold ask
  split
  · exact spawns_finish s t _
  · exact ⟨length_moveTask _ _ _, rfl⟩

theorem spawns_tell (n : Notification) (rs : List Bus.Subscription) : Spawns s 0 (s.tell t n rs) := by
  induction rs with
  | nil => exact spawns_finish s t _
  | cons r rest ih =>
    unfold tell
    split
    · exact ih
    · split
      · exact ih.after rfl
      · exact ih.after rfl
      · exact .move s t _ rfl

theorem spawns_reply (r : Reply) : Spawns s 0 (s.reply t r) := by
  unfold reply
  split
  · refine .move s t _ ?_
    split <;> rfl
  · exact .idle s

theorem spawns_failPending (reason : String) : Spawns s 0 (s.failPending reason) := by
  have hall : ∀ (r : Reply) (ts : List Nat) (x : Session), Spawns x 0 (replyAll r ts x) := by
    intro r ts
    induction ts with
    | nil => exact fun x => .idle x
    | cons v ts ih => exact fun x => (spawns_reply x v r).andThen _ (ih _)
  exact (hall _ _ { s with pending := [] }).congr s rfl

theorem spawns_begin (job : Job) : Spawns s 0 (s.begin t job) := by
  cases job with
  | listen => exact .move s t _ rfl
  | answer id method params =>
    show Spawns s 0 (s.beginAnswer t id method params)
    unfold beginAnswer
    split
    · exact spawns_finish s t _
    · split
      · exact spawns_finish s t _
      · exact spawns_transmit s t _ _
  | publish n =>
    show Spawns s 0 (s.beginPublish t n)
    unfold beginPublish
    split
    · exact spawns_finish s t _
    · exact spawns_tell s t n _
  | call c =>
    cases c with
    | handshake | openDocument => exact ⟨length_moveTask _ _ _, rfl⟩
    | updateDocument text =>
      show Spawns s 0 (s.beginUpdate t text)
      unfold beginUpdate
      split
      · exact spawns_finish s t _
      · exact (spawns_transmit { s with document := _ } t _ _).congr s rfl
    | closeDocument =>
      show Spawns s 0 (s.beginClose t)
      unfold beginClose
      split
      · exact spawns_finish s t _
      · exact spawns_transmit s t _ _
    | ask q line character => exact spawns_ask s t _ _ _
    | dispose =>
      show Spawns s 0 (s.beginDispose t)
      unfold beginDispose
      split
      · exact spawns_finish s t _
      · have hfailed := (spawns_failPending { s with phase := .disposed } "session disposed").congr s rfl
        refine Spawns.after ?_ rfl
        refine hfailed.andThen (j := 0) _ ?_
        exact ⟨length_moveTask _ _ _, rfl⟩

theorem spawns_conclude (purpose : Purpose) (id : Nat) (r : Reply) :
    Spawns s 0 (s.conclude t purpose id r) := by
  refine Spawns.congr (q := s.dropRequest id) ?_ s rfl
  unfold conclude
  dsimp only
  split
  · exact spawns_finish _ t _
  · split
    · exact (spawns_finish _ t _).after rfl
    · exact spawns_transmit _ t _ _
  · refine (spawns_finish _ t _).after ?_
    split <;> rfl

theorem spawns_wrapUp : Spawns s 0 (s.wrapUp t) := by
  refine Spawns.after ((spawns_finish s.shutDown t _).congr s rfl) ?_
  rw [List.filterMap_map]
  exact List.filterMap_eq_nil_iff.mpr fun _ _ => rfl

theorem spawns_channelClosed : Spawns s 0 (s.channelClosed t) := by
  unfold channelClosed
  split
  · exact spawns_wrapUp s t
  · refine .move s t _ ?_
    split <;> rfl

/-- The reader of a channel that was opened is a new task. -/
theorem spawns_channelOpened : Spawns s 1 (s.channelOpened t) := by
  have hasked := spawns_ask { (s.addTask .listen).1 with reader := some s.tasks.length } t .handshake
    handshakeMethod (handshakeParams s.profile)
  have hadded : (s.addTask .listen).1.tasks.length = s.tasks.length + 1 := List.length_append
  refine ⟨hasked.length.trans hadded, ?_⟩
  show s.tasks.length :: _ = [s.tasks.length]
  exact congrArg _ hasked.starts

theorem spawns_continueWith (job : Job) (text : String) {p : Progress} (hp : p ≠ .openingChannel) :
    Spawns s 0 (s.continueWith t job text p) := by
  cases p with
  | openingChannel => exact absurd rfl hp
  | requesting purpose id written reply =>
    cases written with
    | true => exact .idle s
    | false =>
      cases reply with
      | some r => exact (spawns_conclude s t purpose id r).after rfl
      | none => exact .move s t _ rfl
  | announcing => exact ((spawns_finish { s with phase := .ready } t _).congr s rfl).after rfl
  | reading =>
    show Spawns s 0 (s.openWith t text)
    unfold openWith
    dsimp only
    split
    · exact spawns_finish s t _
    · exact (spawns_transmit { s with document := _ } t _ _).congr s rfl
  | opening => exact .move s t _ rfl
  | updating | answering => exact (spawns_finish s t _).after rfl
  | closing => exact ((spawns_finish { s with document := none } t _).congr s rfl).after rfl
  | closingChannel => exact spawns_channelClosed s t
  | created | settling | telling | listening | awaitingReader | finished => exact .idle s

theorem spawns_continueWithout (f : Failure) (p : Progress) : Spawns s 0 (s.continueWithout t f p) := by
  cases p with
  | requesting purpose id written reply =>
    cases written with
    | true => exact .idle s
    | false => exact (spawns_finish (s.dropRequest id) t _).congr s rfl
  | openingChannel | announcing | reading | opening | updating | closing | answering
  | closingChannel => exact spawns_finish s t _
  | created | settling | telling | listening | awaitingReader | finished => exact .idle s

theorem spawns_abandon (p : Progress) : Spawns s 0 (s.abandon t p) := by
  cases p with
  | finished => exact .idle s
  | requesting purpose id written reply => exact (spawns_finish (s.dropRequest id) t _).congr s rfl
  | awaitingReader reader => exact spawns_wrapUp s t
  | created | openingChannel | announcing | reading | opening | settling | updating | closing | answering
  | telling | listening | closingChannel => exact spawns_finish s t _

theorem spawns_streamEnded (reason : String) (error : Option String) :
    Spawns s 0 (s.streamEnded t reason error) := by
  unfold streamEnded
  dsimp only
  refine Spawns.after (Spawns.andThen (k := 0) (j := 0) ?_ _ (spawns_finish _ t _)) ?_
  · split
    · exact .idle s
    · refine Spawns.after ?_ rfl
      exact (spawns_failPending { s with ended := _ } _).congr s rfl
  · split <;> rfl

end

/-! ## Turns -/

variable {s : Session} {t : Nat} {job : Job}

/-- A turn of a task adds no task, unless it opens the channel. -/
theorem spawns_resume {q : Progress} (hk : s.tasks[t]? = some ⟨job, q⟩) (hq : q ≠ .openingChannel)
    (r : Resumption) : Spawns s 0 (s.resume t r) := by
  unfold resume
  rw [hk]
  dsimp only
  split
  · exact spawns_begin s t job
  · exact spawns_continueWith s t job _ hq
  · exact spawns_continueWithout s t _ _
  · exact spawns_conclude s t _ _ _
  · exact spawns_finish s t _
  · split
    · exact (spawns_tell s t _ _).after rfl
    · exact .idle s
  · exact spawns_streamEnded s t _ _
  · exact spawns_wrapUp s t
  · exact spawns_abandon s t _
  · exact .idle s

/-- What a report says makes no task. -/
theorem spawns_noticeDiagnostics {method params : Json} {r : Turned}
    (h : s.noticeDiagnostics method params = some r) : Spawns s 0 r := by
  have hsame : ∀ {r : Turned}, some (⟨s, []⟩ : Turned) = some r → Spawns s 0 r := by
    rintro r ⟨⟩
    exact .idle s
  unfold noticeDiagnostics at h
  split at h
  · split at h
    · unfold receiveDiagnostics at h
      split at h
      · split at h
        · cases h
        · next entries _ =>
          cases h
          refine ⟨rfl, ?_⟩
          show (malformedLines entries ++ [_]).filterMap Effect.started? = []
          rw [List.filterMap_append, malformedLines, List.filterMap_filterMap]
          refine List.append_eq_nil_iff.mpr ⟨List.filterMap_eq_nil_iff.mpr fun x _ => ?_, rfl⟩
          split <;> rfl
      · exact hsame h
    · exact hsame h
  · exact hsame h

/-- A message adds a task for its answer and one for the subscribers. -/
theorem spawns_receive (s : Session) (m : Json) : ∃ k, Spawns s k (s.receive m) := by
  have hrefused : ∀ x : Session, Spawns x 0 ⟨x, [.refused]⟩ := fun _ => ⟨rfl, rfl⟩
  unfold receive
  split
  · split
    · next ms _ method _ =>
      unfold receiveMethod
      dsimp only
      split
      · exact ⟨0, hrefused s⟩
      · next noticed hnoticed =>
        have hanswer : ∀ (q : Session) (id : Option Json) (params : Json),
            ∃ k, Spawns q k (q.answerRequest id method params) := by
          intro q id params
          cases id with
          | none => exact ⟨0, .idle q⟩
          | some id => exact ⟨1, .spawn q _⟩
        have htell : ∀ (q : Session) (id : Option Json) (params : Json),
            ∃ k, Spawns q k (q.tellOf id method params) := by
          intro q id params
          unfold tellOf
          split
          · exact ⟨1, .spawn q _⟩
          · exact ⟨0, hrefused q⟩
        obtain ⟨j, hj⟩ := hanswer noticed.session (Named.get? ms "id") (Json.field (.obj ms) "params")
        have hanswered := (spawns_noticeDiagnostics hnoticed).andThen
          (fun q => q.answerRequest (Named.get? ms "id") method (Json.field (.obj ms) "params")) hj
        obtain ⟨k, hk⟩ := htell _ (Named.get? ms "id") (Json.field (.obj ms) "params")
        exact ⟨_, hanswered.andThen _ hk⟩
    · unfold receiveResponse
      dsimp only
      split
      · split
        · exact ⟨0, (spawns_reply (s.dropRequest _) _ _).congr s rfl⟩
        · exact ⟨0, rfl, rfl⟩
      · exact ⟨0, hrefused s⟩
  · exact ⟨0, hrefused s⟩

/-- **A turn starts the tasks that it adds**, and no others. -/
theorem spawns_step (s : Session) (u : Turn) : ∃ k, Spawns s k (s.step u) := by
  cases u with
  | call c => exact ⟨1, List.length_append, rfl⟩
  | receive m => exact spawns_receive s m
  | account t f =>
    refine ⟨0, rfl, ?_⟩
    cases f with
    | none => rfl
    | some f => cases f <;> rfl
  | resume t r =>
    show ∃ k, Spawns s k (s.resume t r)
    cases hk : s.tasks[t]? with
    | none =>
      rw [resume, hk]
      exact ⟨0, .idle s⟩
    | some k =>
      obtain ⟨job, q⟩ := k
      by_cases hq : q = .openingChannel
      · subst hq
        rw [resume, hk]
        cases r with
        | returned x =>
          cases x with
          | ok text => exact ⟨1, spawns_channelOpened s t⟩
          | error f => exact ⟨0, spawns_finish s t _⟩
        | cancelled => exact ⟨0, spawns_finish s t _⟩
        | begins | replied | rested | streamEnded | readerFinished => exact ⟨0, .idle s⟩
      · exact ⟨0, spawns_resume hk hq r⟩

end EditorServices.Session
