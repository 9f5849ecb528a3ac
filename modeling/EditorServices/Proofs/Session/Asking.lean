import EditorServices.Proofs.Session.Stages

/-!
# `Proofs.Session.Asking` — what a turn asks the outside for

A turn of a task asks for operations, pauses and the like for that task only, and ends no other call.
It asks for a message to be sent only in an open session; this is the one gate that everything on its
way to the server goes through.

Questions about a position are the calls that wait for the server. `QuestionTurn` lists what a turn
does with one, and `QuestionEnds` every way in which one can end.

## Contents
- **Effects.** `Effect.Allowed`, `allowed_step`, and `refusal?_of_sends`, the gate.
- **Questions.** `Concludes`, by which a request has its reply; `questionTurn_resume`, what a turn does
  with a question, and `completed_question`, how one ends.
-/

namespace EditorServices.Session

/-! ## Effects -/

/-- An operation is one that a job asks for; messages are sent for jobs of all kinds. -/
def Operation.IsOf : Operation → Job → Prop
  | .openChannel, j => j = .call .handshake
  | .closeChannel, j => j = .call .dispose
  | .readFile _, j => j = .call .openDocument
  | .send _, _ => True

/-- The tasks that are ended with the session: those that nobody waits for, and the reader. -/
def dependents (s : Session) : List Nat := s.background ++ s.reader.toList

/-- An effect that a turn of a task with a job may have, in a session that refuses messages with a failure
or takes them, and that may end some other tasks. -/
def Effect.Allowed (closed : Option Failure) (others : List Nat) (job : Job) (t : Nat) : Effect → Prop
  | .perform u (.send _) => u = t ∧ closed = none
  | .perform u o => u = t ∧ o.IsOf job
  | .listen u | .pause u | .sleep u _ | .completed u _ => u = t
  | .cancel u => u ∈ others
  | _ => True

/-- All effects of a turn are allowed. -/
def Turned.Allowed (closed : Option Failure) (others : List Nat) (job : Job) (t : Nat) (r : Turned) :
    Prop :=
  ∀ e ∈ r.effects, e.Allowed closed others job t

section
variable {closed : Option Failure} {others : List Nat} {job : Job} {t : Nat} {s : Session}

theorem Turned.Allowed.nil : Turned.Allowed closed others job t ⟨s, []⟩ := fun e he => by cases he

theorem Turned.Allowed.single {e : Effect} (h : e.Allowed closed others job t) :
    Turned.Allowed closed others job t ⟨s, [e]⟩ := by
  intro f hf
  rw [List.mem_singleton.mp hf]
  exact h

/-- Effects that belong to no task in particular may come first. -/
theorem Turned.Allowed.after {r : Turned} (h : r.Allowed closed others job t) {es : List Effect}
    (hes : ∀ e ∈ es, e.Allowed closed others job t) : (r.after es).Allowed closed others job t := by
  intro e he
  rcases List.mem_append.mp he with he | he
  · exact hes e he
  · exact h e he

theorem Turned.Allowed.andThen {r : Turned} (h : r.Allowed closed others job t) {f : Session → Turned}
    (hf : (f r.session).Allowed closed others job t) : (r.andThen f).Allowed closed others job t := hf.after h

end

section
variable (s : Session) (t : Nat) (closed : Option Failure) {others : List Nat} {job : Job}

theorem allowed_finish (outcome : Except Failure Answer) : (s.finish t outcome).Allowed closed others job t := by
  unfold finish
  cases (s.tasks[t]?).map Task.job with
  | none => exact .nil
  | some job =>
    cases job with
    | call c => exact .single rfl
    | listen =>
      intro e he
      obtain ⟨u, -, rfl⟩ := List.mem_map.mp he
      trivial
    | answer id method params => exact .single trivial
    | publish n => exact .single trivial

theorem allowed_transmit (m : Json) (next : Progress) :
    (s.transmit t m next).Allowed s.refusal? others job t := by
  unfold transmit
  cases hc : s.refusal? with
  | some f => exact allowed_finish s t _ _
  | none => exact .single ⟨rfl, rfl⟩

theorem allowed_ask (purpose : Purpose) (method : String) (params : Json) :
    (s.ask t purpose method params).Allowed s.refusal? others job t := by
  unfold ask
  cases hc : s.refusal? with
  | some f => exact allowed_finish s t _ _
  | none => exact .single ⟨rfl, rfl⟩

theorem allowed_tell (n : Notification) (rs : List Bus.Subscription) :
    (s.tell t n rs).Allowed closed others job t := by
  induction rs with
  | nil => exact allowed_finish s t closed _
  | cons r rest ih =>
    simp only [tell]
    split
    · exact ih
    · next who _ =>
      split
      · exact ih.after (by simp [Effect.Allowed])
      · exact ih.after (by simp [Effect.Allowed, subscriberFailed])
      · intro e he
        rcases List.mem_cons.mp he with rfl | he
        · trivial
        · rw [List.mem_singleton.mp he]
          rfl

theorem allowed_reply (v : Nat) (r : Reply) : (s.reply v r).Allowed closed others job t := by
  unfold reply
  split
  · split
    · exact .single trivial
    · exact .nil
  · exact .nil

theorem allowed_failPending (reason : String) : (s.failPending reason).Allowed closed others job t := by
  have hall : ∀ (ts : List Nat) (r : Reply) (x : Session), (replyAll r ts x).Allowed closed others job t := by
    intro ts r
    induction ts with
    | nil => exact fun x => .nil
    | cons v ts ih => exact fun x => (allowed_reply x t closed v r).andThen (ih _)
  exact hall _ _ _

theorem allowed_beginCall (c : Call) : (s.beginCall t c).Allowed s.refusal? others (.call c) t := by
  cases c with
  | handshake | openDocument => exact .single ⟨rfl, rfl⟩
  | updateDocument text =>
    show (s.beginUpdate t text).Allowed s.refusal? others _ t
    unfold beginUpdate
    split
    · exact allowed_finish s t _ _
    · exact allowed_transmit { s with document := _ } t _ _
  | closeDocument =>
    show (s.beginClose t).Allowed s.refusal? others _ t
    unfold beginClose
    split
    · exact allowed_finish s t _ _
    · exact allowed_transmit s t _ _
  | ask q line character => exact allowed_ask s t _ _ _
  | dispose =>
    show (s.beginDispose t).Allowed s.refusal? others _ t
    unfold beginDispose
    split
    · exact allowed_finish s t _ _
    · refine Turned.Allowed.after ?_ (by simp [Effect.Allowed, aboutDocument, logged])
      exact (allowed_failPending _ t _ _).andThen (.single ⟨rfl, rfl⟩)

theorem allowed_begin (job : Job) : (s.begin t job).Allowed s.refusal? others job t := by
  cases job with
  | call c => exact allowed_beginCall s t c
  | listen => exact .single rfl
  | answer id method params =>
    show (s.beginAnswer t id method params).Allowed s.refusal? others _ t
    unfold beginAnswer
    cases s.whyClosed? with
    | some reason => exact allowed_finish s t _ _
    | none =>
      dsimp only
      split
      · exact allowed_finish s t _ _
      · exact allowed_transmit s t _ _
  | publish n =>
    show (s.beginPublish t n).Allowed s.refusal? others _ t
    unfold beginPublish
    split
    · exact allowed_finish s t _ _
    · exact allowed_tell s t _ _ _

theorem allowed_conclude (purpose : Purpose) (id : Nat) (r : Reply) :
    (s.conclude t purpose id r).Allowed s.refusal? others job t := by
  unfold conclude
  dsimp only
  split
  · exact allowed_finish _ t _ _
  · split
    · exact (allowed_finish _ t _ _).after (by simp [Effect.Allowed, logged])
    · exact allowed_transmit (s.dropRequest id) t _ _
  · refine (allowed_finish _ t _ _).after ?_
    split <;> simp [Effect.Allowed, logged]

/-- Going on with the reply to a question sends nothing. -/
theorem allowed_conclude_question (q : Query) (id : Nat) (r : Reply) :
    (s.conclude t (.ask q) id r).Allowed closed others job t := by
  cases r with
  | error f => exact allowed_finish _ t _ _
  | ok response =>
    refine (allowed_finish _ t _ _).after ?_
    cases errorOf? response <;> simp [Effect.Allowed, logged]

theorem allowed_wrapUp : (s.wrapUp t).Allowed closed s.dependents job t := by
  refine (allowed_finish _ t _ _).after fun e he => ?_
  obtain ⟨u, hu, rfl⟩ := List.mem_map.mp he
  exact List.mem_append_left _ hu

/-- What a task waits for that sends another message after that. -/
def Progress.sendsNext : Progress → Bool
  | .openingChannel | .reading | .requesting .handshake _ _ _ => true
  | _ => false

/-- What a task waits for that ends others after that. -/
def Progress.endsOthers : Progress → Bool
  | .closingChannel | .awaitingReader _ => true
  | _ => false

/-- Going on after an operation, with nothing sent and nobody ended unless the stage is one for that. -/
theorem allowed_continueWith (text : String) {p : Progress}
    (sends : p.sendsNext = true → closed = s.refusal?) (ends : p.endsOthers = true → others = s.dependents) :
    (s.continueWith t job text p).Allowed closed others job t := by
  cases p with
  | openingChannel =>
    rw [sends rfl]
    show (s.channelOpened t).Allowed s.refusal? others job t
    exact (allowed_ask { (s.addTask .listen).1 with reader := some s.tasks.length } t _ _ _).after
      (by simp [Effect.Allowed])
  | requesting purpose id written reply =>
    cases written with
    | true => exact .nil
    | false =>
      show (s.requestWritten t purpose id reply).Allowed closed others job t
      refine Turned.Allowed.after ?_ (by simp [Effect.Allowed, Session.written, logged])
      cases reply with
      | none => exact .nil
      | some r =>
        cases purpose with
        | handshake =>
          rw [sends rfl]
          exact allowed_conclude s t _ _ _
        | ask q => exact allowed_conclude_question s t closed q id r
  | announcing =>
    exact (allowed_finish _ t _ _).after
      (by simp [Effect.Allowed, Session.written, aboutDocument, logged])
  | reading =>
    rw [sends rfl]
    show (s.openWith t text).Allowed s.refusal? others job t
    unfold openWith
    dsimp only
    split
    · exact allowed_finish s t _ _
    · exact allowed_transmit { s with document := _ } t _ _
  | opening =>
    show Turned.Allowed closed others job t ⟨_, [_, _]⟩
    simp [Turned.Allowed, Effect.Allowed, Session.written, logged]
  | updating | closing | answering =>
    exact (allowed_finish _ t _ _).after (by simp [Effect.Allowed, Session.written, logged])
  | closingChannel =>
    rw [ends rfl]
    show (s.channelClosed t).Allowed closed s.dependents job t
    unfold channelClosed
    split
    · exact allowed_wrapUp s t _
    · next reader _ =>
      show Turned.Allowed closed s.dependents job t ⟨_, if s.isFinished reader then _ else _⟩
      split
      · exact .single trivial
      · exact .single (List.mem_append_right _ (by simp [*]))
  | created | settling | telling | listening | awaitingReader | finished => exact .nil

theorem allowed_continueWithout (f : Failure) (p : Progress) :
    (s.continueWithout t f p).Allowed closed others job t := by
  cases p with
  | requesting purpose id written reply =>
    cases written with
    | true => exact .nil
    | false => exact allowed_finish _ t _ _
  | openingChannel | announcing | reading | opening | updating | closing | answering
  | closingChannel => exact allowed_finish s t _ _
  | created | settling | telling | listening | awaitingReader | finished => exact .nil

theorem allowed_abandon {p : Progress} (ends : p.endsOthers = true → others = s.dependents) :
    (s.abandon t p).Allowed closed others job t := by
  cases p with
  | finished => exact .nil
  | requesting purpose id written reply => exact allowed_finish _ t _ _
  | awaitingReader reader =>
    rw [ends rfl]
    exact allowed_wrapUp s t _
  | created | openingChannel | announcing | reading | opening | settling | updating | closing | answering
  | telling | listening | closingChannel => exact allowed_finish s t _ _

theorem allowed_streamEnded (reason : String) (error : Option String) :
    (s.streamEnded t reason error).Allowed closed others job t := by
  unfold streamEnded
  dsimp only
  refine Turned.Allowed.after (Turned.Allowed.andThen ?_ (allowed_finish _ t _ _)) ?_
  · split
    · exact .nil
    · exact (allowed_failPending _ t _ _).after (by simp [Effect.Allowed, logged])
  · split <;> simp [Effect.Allowed, logged]

/-- A turn of a task sends only if it is its first or its stage is one for that, and ends others only if
its stage is one for that. -/
theorem allowed_resume_of_stage {p : Progress} (hk : s.tasks[t]? = some ⟨job, p⟩) (r : Resumption)
    (sends : r = .begins ∨ p.sendsNext = true → closed = s.refusal?)
    (ends : p.endsOthers = true → others = s.dependents) : (s.resume t r).Allowed closed others job t := by
  unfold resume
  rw [hk]
  dsimp only
  split
  · rw [sends (.inl rfl)]
    exact allowed_begin s t _
  · exact allowed_continueWith s t _ _ (fun h => sends (.inr h)) ends
  · exact allowed_continueWithout s t _ _ _
  · next purpose id reply =>
    cases purpose with
    | handshake =>
      rw [sends (.inr rfl)]
      exact allowed_conclude s t _ _ _
    | ask q => exact allowed_conclude_question s t closed q id reply
  · exact allowed_finish s t _ _
  · split
    · exact (allowed_tell s t _ _ _).after (by simp [Effect.Allowed])
    · exact .nil
  · exact allowed_streamEnded s t _ _ _
  · rw [ends rfl]
    exact allowed_wrapUp s t _
  · exact allowed_abandon s t _ ends
  · exact .nil

/-- **A turn of a task asks for that task only, and sends only while the session is open.** -/
theorem allowed_resume (hj : s.jobOf t = some job) (r : Resumption) :
    (s.resume t r).Allowed s.refusal? s.dependents job t := by
  obtain ⟨⟨j, p⟩, hk, hkj⟩ := Option.map_eq_some_iff.mp hj
  obtain rfl : j = job := hkj
  exact allowed_resume_of_stage s t _ hk r (fun _ => rfl) fun _ => rfl

theorem allowed_noticeDiagnostics {method params : Json} {r : Turned}
    (h : s.noticeDiagnostics method params = some r) : r.Allowed closed others job t := by
  have hnil : ∀ {r : Turned}, some (⟨s, []⟩ : Turned) = some r → r.Allowed closed others job t := by
    rintro r ⟨⟩
    exact .nil
  unfold noticeDiagnostics at h
  split at h
  · split at h
    · unfold receiveDiagnostics at h
      split at h
      · split at h
        · cases h
        · next entries _ =>
          cases h
          intro e he
          rcases List.mem_append.mp he with he | he
          · -- a line about a malformed diagnostic
            obtain ⟨x, -, hx⟩ := List.mem_filterMap.mp he
            split at hx
            · cases hx
            · cases hx
              trivial
          · rw [List.mem_singleton.mp he]
            trivial
      · exact hnil h
    · exact hnil h
  · exact hnil h

/-- A message of the server asks for nothing but new tasks and woken ones. -/
theorem allowed_receive (m : Json) : (s.receive m).Allowed closed others job t := by
  have hanswer : ∀ (x : Session) (id : Option Json) (method params : Json),
      (x.answerRequest id method params).Allowed closed others job t := by
    intro x id method params
    cases id with
    | none => exact .nil
    | some id => exact .single trivial
  have htell : ∀ (x : Session) (id : Option Json) (method params : Json),
      (x.tellOf id method params).Allowed closed others job t := by
    intro x id method params
    unfold tellOf
    split <;> exact .single trivial
  unfold receive
  split
  · split
    · unfold receiveMethod
      dsimp only
      split
      · exact .single trivial
      · next noticed hn =>
        exact ((allowed_noticeDiagnostics s t closed hn).andThen (hanswer _ _ _ _)).andThen
          (htell _ _ _ _)
    · unfold receiveResponse
      dsimp only
      split
      · split
        · exact allowed_reply _ t _ _ _
        · exact .single trivial
      · exact .single trivial
  · exact .single trivial

end

/-- Of the turns that are nobody's, none asks for an operation, and none ends a call. -/
theorem allowed_step_of_task?_none (s : Session) {u : Turn} (hu : u.task? = none)
    (closed : Option Failure) (others : List Nat) (job : Job) (t : Nat) :
    (s.step u).Allowed closed others job t := by
  cases u with
  | call c => exact .single trivial
  | receive m => exact allowed_receive s t closed m
  | account v f =>
    show Turned.Allowed closed others job t ⟨_, _⟩
    intro e he
    dsimp only at he
    split at he
    · cases he
    · cases he
    · cases he
    · rw [List.mem_singleton.mp he]
      trivial
  | resume v r => cases hu

/-- **What the effects of a turn say of it**: they belong to the task whose turn it is. -/
theorem allowed_step (s : Session) (u : Turn) {e : Effect} (he : e ∈ (s.step u).effects) :
    (∀ closed others job t, e.Allowed closed others job t) ∨
      ∃ t job, u.task? = some t ∧ s.jobOf t = some job ∧
        e.Allowed s.refusal? s.dependents job t := by
  cases hu : u.task? with
  | none => exact .inl fun closed others job t => allowed_step_of_task?_none s hu closed others job t e he
  | some t =>
    obtain ⟨r, rfl⟩ := Turn.exists_resume hu
    cases hj : s.jobOf t with
    | some job => exact .inr ⟨t, job, rfl, hj, allowed_resume s t hj r e he⟩
    | none =>
      -- a task that is not there has no turn
      have hk : s.tasks[t]? = none := by simpa [jobOf] using hj
      have hr : s.resume t r = ⟨s, []⟩ := by rw [resume, hk]
      change e ∈ (s.resume t r).effects at he
      rw [hr] at he
      cases he

/-- A call ends in a turn of its task. -/
theorem task?_of_completed {s : Session} {u : Turn} {t : Nat} {o : Except Failure Answer}
    (h : .completed t o ∈ (s.step u).effects) : u.task? = some t := by
  rcases allowed_step s u h with hall | ⟨v, job, hu, -, rfl⟩
  · exact absurd (show t = t + 1 from hall none [] .listen (t + 1)) (by omega)
  · exact hu

/-- What is over does not end again. -/
theorem not_completed_of_finished {s : Session} {t : Nat} (hp : s.progressOf t = some .finished) (u : Turn)
    (o : Except Failure Answer) : .completed t o ∉ (s.step u).effects := by
  intro h
  have hu := task?_of_completed h
  obtain ⟨r, rfl⟩ := Turn.exists_resume hu
  change .completed t o ∈ (s.resume t r).effects at h
  rw [resume_finished hp] at h
  cases h

/-- An operation is asked for in a turn of its task, and fits the job of that. -/
theorem operation_of_perform {s : Session} {u : Turn} {t : Nat} {o : Operation}
    (h : .perform t o ∈ (s.step u).effects) :
    u.task? = some t ∧ ∃ job, s.jobOf t = some job ∧ o.IsOf job := by
  rcases allowed_step s u h with hall | ⟨v, job, hu, hj, he⟩
  · have := hall (some .cancelled) [] .listen (t + 1)
    cases o with
    | send m => exact absurd this.2 (by simp)
    | openChannel | closeChannel | readFile => exact absurd this.1 (by omega)
  · cases o with
    | send m =>
      obtain ⟨rfl, -⟩ := he
      exact ⟨hu, job, hj, trivial⟩
    | openChannel | closeChannel | readFile =>
      obtain ⟨rfl, hof⟩ := he
      exact ⟨hu, job, hj, hof⟩

/-- No call is made to give up by a turn, unless it ends with the session. -/
theorem mem_dependents_of_cancel {s : Session} {u : Turn} {v : Nat}
    (h : .cancel v ∈ (s.step u).effects) : v ∈ s.dependents := by
  rcases allowed_step s u h with hall | ⟨t, job, -, -, he⟩
  · cases hall none [] .listen v
  · exact he

/-- **Messages are sent in an open session whose writer runs, and in no other.** -/
theorem refusal?_of_sends {s : Session} {u : Turn} {t : Nat} {m : Json}
    (h : .perform t (.send m) ∈ (s.step u).effects) : s.refusal? = none := by
  rcases allowed_step s u h with hall | ⟨v, job, -, -, he⟩
  · exact absurd (hall (some .cancelled) [] .listen t).2 (by simp)
  · exact he.2

theorem whyClosed?_of_sends {s : Session} {u : Turn} {t : Nat} {m : Json}
    (h : .perform t (.send m) ∈ (s.step u).effects) : s.whyClosed? = none :=
  (refusal?_eq_none.mp (refusal?_of_sends h)).1

/-! ## Questions -/

/-- A turn that hands a task the reply to its request: the task was waiting for it, or it finds the
reply there when the request is written. -/
inductive Concludes (s : Session) : Turn → Nat → Nat → Reply → Prop where
  | replied {t id : Nat} {purpose : Purpose} {r : Reply}
      (waits : s.progressOf t = some (.requesting purpose id true (some r))) :
      Concludes s (.resume t .replied) t id r
  | found {t id : Nat} {purpose : Purpose} {r : Reply} {text : String}
      (waits : s.progressOf t = some (.requesting purpose id false (some r))) :
      Concludes s (.resume t (.returned (.ok text))) t id r

/-- What a reply means as the end of a question. -/
def Query.outcome (q : Query) : Reply → Except Failure Answer
  | .ok m => q.answer m
  | .error f => .error f

/-- The ways in which a question ends in a turn. -/
inductive QuestionEnds (s : Session) (t : Nat) (q : Query) : Resumption → Except Failure Answer → Prop
    where
  /-- Its request is refused. -/
  | refused {f : Failure} (created : s.progressOf t = some .created) (why : s.refusal? = some f) :
      QuestionEnds s t q .begins (.error f)
  /-- Its caller gives up. -/
  | cancelled : QuestionEnds s t q .cancelled (.error .cancelled)
  /-- Its request could not be written. -/
  | unwritten {id : Nat} {reply : Option Reply} {f : Failure}
      (waits : s.progressOf t = some (.requesting (.ask q) id false reply)) :
      QuestionEnds s t q (.returned (.error f)) (.error f)
  /-- Its request failed. -/
  | failed {r : Resumption} {id : Nat} {f : Failure}
      (concludes : Concludes s (.resume t r) t id (.error f)) : QuestionEnds s t q r (.error f)
  /-- The server answered. -/
  | answered {r : Resumption} {id : Nat} {m : Json}
      (concludes : Concludes s (.resume t r) t id (.ok m)) : QuestionEnds s t q r (q.answer m)

/-- A stage of a question goes on in this way. -/
def Progress.awaits (p : Progress) : Resumption → Bool
  | .begins =>
    match p with
    | .created => true
    | _ => false
  | .returned _ =>
    match p with
    | .requesting _ _ false _ => true
    | _ => false
  | .replied =>
    match p with
    | .requesting _ _ true (some _) => true
    | _ => false
  | _ => false

/-- What a turn does with a question: how it leaves its stage, with which effects. -/
inductive QuestionTurn (s : Session) (t : Nat) (q : Query) :
    Progress → Resumption → Progress → List Effect → Prop where
  /-- Nothing; it is not what the question waits for. -/
  | idle {p : Progress} {r : Resumption} (passed : p.awaits r = false) : QuestionTurn s t q p r p []
  /-- The request is sent. -/
  | asked {id : Nat} {m : Json} : QuestionTurn s t q .created .begins
      (.requesting (.ask q) id false none) [.perform t (.send m)]
  /-- The request was written before it has a reply. -/
  | written {id : Nat} {text : String} {e : Effect} (other : ∀ o, e ≠ .completed t o)
      (quiet : ∀ v x, e ≠ .perform v x) :
      QuestionTurn s t q (.requesting (.ask q) id false none) (.returned (.ok text))
        (.requesting (.ask q) id true none) [e]
  /-- The question ends, once, and asks for nothing. -/
  | ended {p : Progress} {r : Resumption} {o : Except Failure Answer} {es : List Effect}
      (ends : QuestionEnds s t q r o) (done : ∀ x, .completed t x ∈ es ↔ x = o)
      (quiet : ∀ v x, .perform v x ∉ es) : QuestionTurn s t q p r .finished es

section
variable {s : Session} {t : Nat} {q : Query} {line character : Json}
  (job : s.jobOf t = some (.call (.ask q line character)))
include job

/-- Ending the task of a question ends the call. -/
theorem effects_finish_question (outcome : Except Failure Answer) :
    (s.finish t outcome).effects = [.completed t outcome] := by
  rw [finish_call job]

/-- Dealing with the reply to a question ends the call with what the reply means. -/
theorem completed_conclude_question (id : Nat) (r : Reply) (o : Except Failure Answer) :
    .completed t o ∈ (s.conclude t (.ask q) id r).effects ↔ o = q.outcome r := by
  have hdrop : (s.dropRequest id).jobOf t = some (.call (.ask q line character)) := job
  unfold conclude
  cases r with
  | error f =>
    dsimp only [giveUp]
    rw [effects_finish_question hdrop]
    simp [Query.outcome]
  | ok m =>
    dsimp only
    rw [Turned.effects_after, effects_finish_question hdrop]
    cases errorOf? m <;> simp [logged, Query.outcome]

/-- Nor does it ask for an operation. -/
theorem not_perform_conclude_question (id : Nat) (r : Reply) (v : Nat) (x : Operation) :
    .perform v x ∉ (s.conclude t (.ask q) id r).effects := by
  have hdrop : (s.dropRequest id).jobOf t = some (.call (.ask q line character)) := job
  unfold conclude
  cases r with
  | error f =>
    dsimp only [giveUp]
    rw [effects_finish_question hdrop]
    simp
  | ok m =>
    dsimp only
    rw [Turned.effects_after, effects_finish_question hdrop]
    cases errorOf? m <;> simp [logged]

/-- A question gives up or fails. -/
theorem questionTurn_giveUp {p : Progress} {r : Resumption} {f : Failure}
    (ends : QuestionEnds s t q r (.error f)) : QuestionTurn s t q p r .finished (s.giveUp t f).effects := by
  rw [giveUp, effects_finish_question job]
  exact .ended ends (fun x => by simp) fun v x => by simp

/-- The turns of a question that was not asked yet. -/
theorem questionTurn_created (hp : s.progressOf t = some .created) (r : Resumption) :
    ∃ p', (s.resume t r).session.progressOf t = some p' ∧
      QuestionTurn s t q .created r p' (s.resume t r).effects := by
  have hk := task_of_views job hp
  unfold resume
  rw [hk]
  cases r with
  | begins =>
    show ∃ p', (s.ask t (.ask q) q.method _).session.progressOf t = some p' ∧
      QuestionTurn s t q .created .begins p' (s.ask t (.ask q) q.method _).effects
    unfold ask
    cases hc : s.refusal? with
    | none =>
      refine ⟨.requesting (.ask q) (s.lastRequest + 1) false none, ?_, .asked⟩
      dsimp only
      rw [progressOf_moveTask, if_pos rfl]
      show (s.progressOf t).map _ = _
      rw [hp]
      rfl
    | some f =>
      refine ⟨.finished, ?_, questionTurn_giveUp job (.refused hp hc)⟩
      rw [session_giveUp, progressOf_moveTask, if_pos rfl, hp]
      rfl
  | cancelled =>
    refine ⟨.finished, ?_, questionTurn_giveUp job .cancelled⟩
    show (s.giveUp t .cancelled).session.progressOf t = _
    rw [session_giveUp, progressOf_moveTask, if_pos rfl, hp]
    rfl
  | returned x => cases x <;> exact ⟨_, hp, .idle rfl⟩
  | replied | rested | streamEnded | readerFinished => exact ⟨_, hp, .idle rfl⟩

/-- The turn in which a question has its reply. -/
theorem questionTurn_conclude {p : Progress} {r : Resumption} {id : Nat} {rep : Reply}
    (es : List Effect) (here : s.progressOf t ≠ none) (hes : ∀ x, .completed t x ∉ es)
    (quiet : ∀ v x, .perform v x ∉ es) (concludes : Concludes s (.resume t r) t id rep) :
    ∃ p', ((s.conclude t (.ask q) id rep).after es).session.progressOf t = some p' ∧
      QuestionTurn s t q p r p' ((s.conclude t (.ask q) id rep).after es).effects := by
  have hover : (s.conclude t (.ask q) id rep).session.progressOf t = some .finished := by
    have hdrop : (s.dropRequest id).progressOf t = s.progressOf t := rfl
    obtain ⟨x, hx⟩ := Option.ne_none_iff_exists'.mp here
    unfold conclude
    cases rep <;> simp [hdrop, hx]
  refine ⟨.finished, hover, ?_⟩
  have hdone : ∀ x, .completed t x ∈ ((s.conclude t (.ask q) id rep).after es).effects ↔
      x = q.outcome rep := by
    intro x
    rw [Turned.effects_after, List.mem_append, completed_conclude_question job]
    exact ⟨fun h => h.resolve_left (hes x), .inr⟩
  have hquiet : ∀ v x, .perform v x ∉ ((s.conclude t (.ask q) id rep).after es).effects := by
    intro v x h
    rcases List.mem_append.mp h with h | h
    · exact quiet v x h
    · exact not_perform_conclude_question job id rep v x h
  cases rep with
  | ok m => exact .ended (.answered concludes) hdone hquiet
  | error f => exact .ended (.failed concludes) hdone hquiet

/-- The turns of a question that was asked. -/
theorem questionTurn_requesting {id : Nat} {written : Bool} {reply : Option Reply}
    (hp : s.progressOf t = some (.requesting (.ask q) id written reply)) (r : Resumption) :
    ∃ p', (s.resume t r).session.progressOf t = some p' ∧
      QuestionTurn s t q (.requesting (.ask q) id written reply) r p' (s.resume t r).effects := by
  have hk := task_of_views job hp
  have hdrop : (s.dropRequest id).jobOf t = some (.call (.ask q line character)) := job
  have hover (f : Failure) : ((s.dropRequest id).giveUp t f).session.progressOf t = some .finished := by
    rw [session_giveUp, progressOf_moveTask, if_pos rfl]
    show (s.progressOf t).map _ = _
    rw [hp]
    rfl
  have here : s.progressOf t ≠ none := by rw [hp]; simp
  have hends (f : Failure) (ends : QuestionEnds s t q r (.error f)) :
      QuestionTurn s t q (.requesting (.ask q) id written reply) r .finished
        ((s.dropRequest id).giveUp t f).effects := by
    rw [giveUp, effects_finish_question hdrop]
    exact .ended ends (fun x => by simp) fun v x => by simp
  unfold resume
  rw [hk]
  cases r with
  | cancelled => exact ⟨.finished, hover _, hends _ .cancelled⟩
  | returned x =>
    cases written with
    | true => cases x <;> exact ⟨_, hp, .idle rfl⟩
    | false =>
      cases x with
      | error f => exact ⟨.finished, hover f, hends f (.unwritten hp)⟩
      | ok text =>
        cases reply with
        | none =>
          refine ⟨.requesting (.ask q) id true none, ?_, .written (fun o h => ?_) fun v x h => ?_⟩
          · show (s.moveTask t _).progressOf t = _
            rw [progressOf_moveTask, if_pos rfl, hp]
            rfl
          · cases h
          · cases h
        | some rep =>
          exact questionTurn_conclude job _ here (by simp [Session.written, logged])
            (by simp [Session.written, logged]) (.found hp)
  | replied =>
    cases written with
    | false => exact ⟨_, hp, .idle rfl⟩
    | true =>
      cases reply with
      | none => exact ⟨_, hp, .idle rfl⟩
      | some rep => exact questionTurn_conclude job [] here (by simp) (by simp) (.replied hp)
  | begins | rested | streamEnded | readerFinished => exact ⟨_, hp, .idle rfl⟩

/-- **Every turn of a question.** -/
theorem questionTurn_resume (h : Orderly s) {p : Progress} (hp : s.progressOf t = some p)
    (r : Resumption) : ∃ p', (s.resume t r).session.progressOf t = some p' ∧
      QuestionTurn s t q p r p' (s.resume t r).effects := by
  have hisOf := h t _ p job hp
  -- the stages of a question: to be asked, waiting, over
  cases p with
  | created => exact questionTurn_created job hp r
  | requesting purpose id written reply =>
    cases purpose with
    | handshake => cases hisOf
    | ask q' =>
      obtain ⟨l, c, hlc⟩ := hisOf
      cases hlc
      exact questionTurn_requesting job hp r
  | finished =>
    rw [resume_finished hp]
    exact ⟨_, hp, .idle (by cases r <;> rfl)⟩
  | openingChannel | announcing | reading | opening | settling | closing | listening | closingChannel
  | awaitingReader => cases hisOf
  | updating => obtain ⟨_, hx⟩ := hisOf; cases hx
  | answering => obtain ⟨_, _, _, hx⟩ := hisOf; cases hx
  | telling => obtain ⟨_, hx⟩ := hisOf; cases hx

/-- **Every way in which a question ends.** -/
theorem completed_question (h : Orderly s) {r : Resumption} {o : Except Failure Answer}
    (ho : .completed t o ∈ (s.resume t r).effects) : QuestionEnds s t q r o := by
  obtain ⟨⟨_, p⟩, hk, -⟩ := Option.map_eq_some_iff.mp job
  have hp : s.progressOf t = some p := progressOf_of_get hk
  obtain ⟨p', -, hturn⟩ := questionTurn_resume job h hp r
  generalize (s.resume t r).effects = es at ho hturn
  cases hturn with
  | idle => cases ho
  | asked => simp at ho
  | written other => exact absurd (List.mem_singleton.mp ho).symm (other o)
  | ended ends done =>
    obtain rfl := (done o).mp ho
    exact ends

/-- A question that ends is over. -/
theorem finished_of_completed (h : Orderly s) {r : Resumption} {o : Except Failure Answer}
    (ho : .completed t o ∈ (s.resume t r).effects) :
    (s.resume t r).session.progressOf t = some .finished := by
  obtain ⟨⟨_, p⟩, hk, -⟩ := Option.map_eq_some_iff.mp job
  obtain ⟨p', hp', hturn⟩ := questionTurn_resume job h (progressOf_of_get hk) r
  generalize (s.resume t r).effects = es at ho hturn
  cases hturn with
  | idle => cases ho
  | asked => simp at ho
  | written other => exact absurd (List.mem_singleton.mp ho).symm (other o)
  | ended => exact hp'

end

end EditorServices.Session
