import EditorServices.Proofs.Session.Outcomes
import EditorServices.Proofs.Session.Phases
import EditorServices.Proofs.Session.Requests

/-!
# `Proofs.Session.Handshake` — how far a handshake has come, and what it says of the server

A handshake opens the channel, sends its request, waits for the answer, and confirms the answer by a last
message if it has no error. Four times it waits for something outside, and at each of these places the
server, the end of the stream, a disposal or its caller may come between. `HandshakeTurn` lists what a
turn of it can do at each place.

What matters of a history is then the answer that the request has, if any, and how often the confirmation
was handed over. `Standing` ties both to the place where the handshake is, and every turn of any task
keeps it: the confirmation is handed over by the handshake alone, once, after an answer without an error;
the session is ready only after that; and what comes of the call depends on the answer.

## Contents
- **Orders.** `orders`, the operations that effects ask for, and `confirmations`.
- **One turn.** `HandshakeFails`, `HandshakeTurn` and `handshakeTurn_resume`.
- **Confirming.** Only a handshake confirms: `jobOf_of_confirms`.
- **Answers.** `Answered`, and the reply that an answer is.
- **Histories.** `Reached`, `Verdict`, `Standing`, and `exists_standing`.
- **Refused messages.** `Refused.completed`: a handshake fails by the refusal of what it has to send.
- **Disposal.** `Barred`: a handshake that has begun revives no session in which it goes on. It finds the
  writer running, by `not_refused_of_fresh`.
-/

namespace EditorServices.Session

/-! ## Orders -/

/-- The operation that an effect asks for, with its task. -/
def Effect.asked? : Effect → Option (Nat × Operation)
  | .perform t o => some (t, o)
  | _ => none

/-- The operations that effects ask for, in their order. -/
def orders (es : List Effect) : List (Nat × Operation) := es.filterMap Effect.asked?

@[simp] theorem orders_append (es fs : List Effect) : orders (es ++ fs) = orders es ++ orders fs :=
  List.filterMap_append

theorem mem_orders {es : List Effect} {t : Nat} {o : Operation} :
    (t, o) ∈ orders es ↔ .perform t o ∈ es := by
  unfold orders
  rw [List.mem_filterMap]
  constructor
  · rintro ⟨e, he, heq⟩
    cases e <;> cases heq
    exact he
  · intro h
    exact ⟨_, h, rfl⟩

/-- The message that is handed over by an order, with its task. -/
def orderedMessage? : Nat × Operation → Option (Nat × Json)
  | (t, .send m) => some (t, m)
  | _ => none

theorem sent_eq_orders (es : List Effect) :
    es.filterMap Effect.sent? = (orders es).filterMap orderedMessage? := by
  unfold orders
  rw [List.filterMap_filterMap]
  congr 1
  funext e
  cases e with
  | perform t o => cases o <;> rfl
  | _ => rfl

/-- Those of some messages that confirm a handshake, with the tasks that send them. -/
def confirmations (messages : List (Nat × Json)) : List (Nat × Json) :=
  messages.filter fun x => x.2 = handshakeDone

@[simp] theorem confirmations_append (xs ys : List (Nat × Json)) :
    confirmations (xs ++ ys) = confirmations xs ++ confirmations ys := List.filter_append ..

theorem mem_confirmations {xs : List (Nat × Json)} {x : Nat × Json} :
    x ∈ confirmations xs ↔ x ∈ xs ∧ x.2 = handshakeDone := by
  unfold confirmations
  rw [List.mem_filter, decide_eq_true_eq]

/-- The confirmations that effects hand over. -/
def confirmed (es : List Effect) : List (Nat × Json) := confirmations (es.filterMap Effect.sent?)

@[simp] theorem confirmed_append (es fs : List Effect) :
    confirmed (es ++ fs) = confirmed es ++ confirmed fs := by
  unfold confirmed
  rw [List.filterMap_append, confirmations_append]

theorem confirmed_of_orders {es : List Effect} {xs : List (Nat × Operation)} (h : orders es = xs) :
    confirmed es = confirmations (xs.filterMap orderedMessage?) := by
  rw [confirmed, sent_eq_orders, h]

theorem confirmed_eq_nil {es : List Effect} (h : ∀ t, .perform t (.send handshakeDone) ∉ es) :
    confirmed es = [] := by
  refine List.filter_eq_nil_iff.mpr fun x hx hdone => ?_
  have hsent := mem_sent.mp hx
  rw [of_decide_eq_true hdone] at hsent
  exact h _ hsent

theorem request_ne_handshakeDone (id : Nat) (method : String) (params : Json) :
    request id method params ≠ handshakeDone := by
  simp [request, handshakeDone, notification]

/-! ## One turn -/

/-- In a turn a handshake has a message to send: its channel is open, or its answer has no error and is to be
confirmed. -/
inductive HasToSend (s : Session) (t : Nat) : Turn → Prop where
  | request (text : String) (opening : s.progressOf t = some .openingChannel) :
      HasToSend s t (.resume t (.returned (.ok text)))
  | confirmation {r : Resumption} {id : Nat} {m : Json} (concludes : Concludes s (.resume t r) t id (.ok m))
      (accepted : errorOf? m = none) : HasToSend s t (.resume t r)

/-- Why a handshake fails in a turn, and with what. -/
inductive HandshakeFails (s : Session) (t : Nat) : Progress → Resumption → Failure → Prop where
  /-- Its caller gives up. -/
  | cancelled {p : Progress} : HandshakeFails s t p .cancelled .cancelled
  /-- An operation failed. -/
  | operation {p : Progress} {f : Failure} : HandshakeFails s t p (.returned (.error f)) f
  /-- What it has to send is refused. -/
  | refused {p : Progress} {r : Resumption} {f : Failure} (sends : HasToSend s t (.resume t r))
      (why : s.refusal? = some f) : HandshakeFails s t p r f
  /-- Its request failed. -/
  | lost {p : Progress} {r : Resumption} {id : Nat} {f : Failure}
      (concludes : Concludes s (.resume t r) t id (.error f)) : HandshakeFails s t p r f
  /-- The server answered with an error. -/
  | rejected {p : Progress} {r : Resumption} {id : Nat} {m e : Json}
      (concludes : Concludes s (.resume t r) t id (.ok m)) (error : errorOf? m = some e) :
      HandshakeFails s t p r (.handshakeRejected e)

/-- A stage waits for an operation. -/
def Progress.isOwed : Progress → Bool
  | .openingChannel | .requesting _ _ false _ | .announcing => true
  | _ => false

/-- What a turn does with a handshake: how it leaves its stage, with which effects. -/
inductive HandshakeTurn (s : Session) (t : Nat) :
    Progress → Resumption → Progress → List Effect → Prop where
  /-- Nothing; it is not what the handshake waits for. -/
  | idle {p : Progress} {r : Resumption} (passed : p.awaits r = false)
      (unowed : p.isOwed = true → ∀ x, r ≠ .returned x) : HandshakeTurn s t p r p []
  /-- The channel is to be opened. -/
  | begins {es : List Effect} (own : orders es = [(t, .openChannel)]) (silent : endings es = []) :
      HandshakeTurn s t .created .begins .openingChannel es
  /-- The channel is open, and the request is sent. -/
  | asks {text : String} {id : Nat} {m : Json} {es : List Effect} (own : orders es = [(t, .send m)])
      (request : m ≠ handshakeDone) (silent : endings es = []) :
      HandshakeTurn s t .openingChannel (.returned (.ok text)) (.requesting .handshake id false none) es
  /-- The request was written before it has an answer. -/
  | written {id : Nat} {text : String} {es : List Effect} (quiet : orders es = [])
      (silent : endings es = []) :
      HandshakeTurn s t (.requesting .handshake id false none) (.returned (.ok text))
        (.requesting .handshake id true none) es
  /-- The answer has no error, and is confirmed. -/
  | confirms {p : Progress} {r : Resumption} {id : Nat} {m : Json} {es : List Effect}
      (concludes : Concludes s (.resume t r) t id (.ok m)) (accepted : errorOf? m = none)
      (own : orders es = [(t, .send handshakeDone)]) (silent : endings es = []) :
      HandshakeTurn s t p r .announcing es
  /-- The confirmation was written. -/
  | succeeds {text : String} {es : List Effect} (quiet : orders es = [])
      (known : endings es = [(t, .ok .done)]) :
      HandshakeTurn s t .announcing (.returned (.ok text)) .finished es
  /-- The handshake fails. -/
  | fails {p : Progress} {r : Resumption} {f : Failure} {es : List Effect}
      (why : HandshakeFails s t p r f) (quiet : orders es = []) (known : endings es = [(t, .error f)]) :
      HandshakeTurn s t p r .finished es

section
variable {s q : Session} {t : Nat}

theorem Turned.after_after (x : Turned) (es fs : List Effect) :
    (x.after es).after fs = x.after (fs ++ es) := by
  unfold Turned.after
  rw [List.append_assoc]

/-- A handshake fails, whatever was let be known before. -/
theorem handshakeTurn_giveUp (hj : q.jobOf t = some (.call .handshake)) {p : Progress}
    (hp : q.progressOf t = some p) {p₀ : Progress} {r : Resumption} {f : Failure}
    (why : HandshakeFails s t p₀ r f) (es : List Effect) (quiet : orders es = []) (silent : endings es = []) :
    ∃ p', ((q.giveUp t f).after es).session.progressOf t = some p' ∧
      HandshakeTurn s t p₀ r p' ((q.giveUp t f).after es).effects := by
  refine ⟨.finished, ?_, .fails why ?_ ?_⟩
  · rw [Turned.session_after, session_giveUp]
    exact progressOf_moveTask_self hp .finished
  · rw [Turned.effects_after, giveUp, finish_call hj, orders_append, quiet]
    rfl
  · rw [Turned.effects_after, giveUp, finish_call hj, endings_append, silent]
    rfl

/-- An answer without an error is confirmed. -/
theorem conclude_accepted (s : Session) (t id : Nat) {m : Json} (accepted : errorOf? m = none) :
    s.conclude t .handshake id (.ok m) = (s.dropRequest id).transmit t handshakeDone .announcing := by
  unfold conclude
  dsimp only
  rw [accepted]

/-- A handshake deals with the reply to its request. -/
theorem handshakeTurn_conclude (hj : s.jobOf t = some (.call .handshake)) {p : Progress}
    (hp : s.progressOf t = some p) {r : Resumption} {id : Nat} {rep : Reply}
    (hc : Concludes s (.resume t r) t id rep) (es : List Effect) (quiet : orders es = [])
    (silent : endings es = []) :
    ∃ p', ((s.conclude t .handshake id rep).after es).session.progressOf t = some p' ∧
      HandshakeTurn s t p r p' ((s.conclude t .handshake id rep).after es).effects := by
  have hdrop : (s.dropRequest id).jobOf t = some (.call .handshake) := hj
  have hdropped : (s.dropRequest id).progressOf t = some p := hp
  cases rep with
  | error f => exact handshakeTurn_giveUp hdrop hdropped (.lost hc) es quiet silent
  | ok m =>
    cases herror : errorOf? m with
    | some e =>
      have hconclude : s.conclude t .handshake id (.ok m) =
          ((s.dropRequest id).giveUp t (.handshakeRejected e)).after
            [logged .error "LSP initialize rejected" [("error", e)]] := by
        unfold conclude
        dsimp only
        rw [herror]
      rw [hconclude, Turned.after_after]
      refine handshakeTurn_giveUp hdrop hdropped (.rejected hc herror) _ ?_ ?_
      · rw [orders_append, quiet]
        rfl
      · rw [endings_append, silent]
        rfl
    | none =>
      -- confirming it is one more message, which the session may refuse by now
      rw [conclude_accepted s t id herror]
      cases hrefusal : s.refusal? with
      | some f =>
        have hsame : (s.dropRequest id).transmit t handshakeDone .announcing =
            (s.dropRequest id).giveUp t f := by
          rw [transmit, show (s.dropRequest id).refusal? = some f from hrefusal]
        rw [hsame]
        exact handshakeTurn_giveUp hdrop hdropped (.refused (.confirmation hc herror) hrefusal) es quiet silent
      | none =>
        rw [transmit_of_open (s := s.dropRequest id) hrefusal]
        refine ⟨.announcing, progressOf_moveTask_self hdropped .announcing, .confirms hc herror ?_ ?_⟩
        · rw [Turned.effects_after, orders_append, quiet]
          rfl
        · rw [Turned.effects_after, endings_append, silent]
          rfl

/-- A handshake finds its channel open. -/
theorem handshakeTurn_opened (hj : s.jobOf t = some (.call .handshake))
    (hp : s.progressOf t = some .openingChannel) (text : String) :
    ∃ p', (s.channelOpened t).session.progressOf t = some p' ∧
      HandshakeTurn s t .openingChannel (.returned (.ok text)) p' (s.channelOpened t).effects := by
  -- the reader is a task of its own, made before the request is sent
  let q : Session := { (s.addTask .listen).1 with reader := some s.tasks.length }
  have hne : t ≠ s.tasks.length := Nat.ne_of_lt (lt_of_progressOf hp)
  have hjq : q.jobOf t = some (.call .handshake) := (jobOf_addTask s .listen t).trans (by rw [if_neg hne, hj])
  have hpq : q.progressOf t = some .openingChannel :=
    (progressOf_addTask s .listen t).trans (by rw [if_neg hne, hp])
  show ∃ p', ((q.ask t .handshake handshakeMethod (handshakeParams s.profile)).after
      [.start s.tasks.length]).session.progressOf t = some p' ∧ HandshakeTurn s t _ _ p'
    ((q.ask t .handshake handshakeMethod (handshakeParams s.profile)).after [.start s.tasks.length]).effects
  unfold ask
  cases hrefusal : q.refusal? with
  | some f =>
    have hwhy : s.refusal? = some f := hrefusal
    exact handshakeTurn_giveUp hjq hpq (.refused (.request text hp) hwhy) [.start s.tasks.length] rfl rfl
  | none => exact ⟨_, progressOf_moveTask_self hpq _, .asks rfl (request_ne_handshakeDone _ _ _) rfl⟩

/-- The turns of a handshake that sends its request, or sent it. -/
theorem handshakeTurn_requesting (hj : s.jobOf t = some (.call .handshake)) {id : Nat} {written : Bool}
    {reply : Option Reply} (hp : s.progressOf t = some (.requesting .handshake id written reply))
    (r : Resumption) : ∃ p', (s.resume t r).session.progressOf t = some p' ∧
      HandshakeTurn s t (.requesting .handshake id written reply) r p' (s.resume t r).effects := by
  have hdrop : (s.dropRequest id).jobOf t = some (.call .handshake) := hj
  unfold resume
  rw [task_of_views hj hp]
  cases r with
  | cancelled => exact handshakeTurn_giveUp hdrop hp .cancelled [] rfl rfl
  | returned x =>
    cases written with
    | true => cases x <;> exact ⟨_, hp, .idle rfl fun h => by cases h⟩
    | false =>
      cases x with
      | error f => exact handshakeTurn_giveUp hdrop hp .operation [] rfl rfl
      | ok text =>
        -- the answer may be there before the request is known to be written
        cases reply with
        | none => exact ⟨_, progressOf_moveTask_self hp _, .written rfl rfl⟩
        | some rep => exact handshakeTurn_conclude hj hp (.found hp) _ rfl rfl
  | replied =>
    cases written with
    | false => exact ⟨_, hp, .idle rfl fun _ x h => by cases h⟩
    | true =>
      cases reply with
      | none => exact ⟨_, hp, .idle rfl fun h => by cases h⟩
      | some rep => exact handshakeTurn_conclude hj hp (.replied hp) [] rfl rfl
  | begins | rested | streamEnded | readerFinished => exact ⟨_, hp, .idle rfl fun _ x h => by cases h⟩

/-- **What a turn does with a handshake.** -/
theorem handshakeTurn_resume (ho : Orderly s) (hj : s.jobOf t = some (.call .handshake)) {p : Progress}
    (hp : s.progressOf t = some p) (r : Resumption) :
    ∃ p', (s.resume t r).session.progressOf t = some p' ∧
      HandshakeTurn s t p r p' (s.resume t r).effects := by
  have hisOf := ho t _ _ hj hp
  cases p with
  | created =>
    rw [resume, task_of_views hj hp]
    cases r with
    | begins =>
      have hlater : progressOf { s with phase := .initializing } t = some .created := hp
      exact ⟨.openingChannel, progressOf_moveTask_self hlater _, .begins rfl rfl⟩
    | cancelled => exact handshakeTurn_giveUp hj hp .cancelled [] rfl rfl
    | returned x => cases x <;> exact ⟨_, hp, .idle rfl fun h => by cases h⟩
    | replied | rested | streamEnded | readerFinished => exact ⟨_, hp, .idle rfl fun h => by cases h⟩
  | openingChannel =>
    rw [resume, task_of_views hj hp]
    cases r with
    | returned x =>
      cases x with
      | ok text => exact handshakeTurn_opened hj hp text
      | error f => exact handshakeTurn_giveUp hj hp .operation [] rfl rfl
    | cancelled => exact handshakeTurn_giveUp hj hp .cancelled [] rfl rfl
    | begins | replied | rested | streamEnded | readerFinished =>
      exact ⟨_, hp, .idle rfl fun _ x h => by cases h⟩
  | requesting purpose id written reply =>
    cases purpose with
    | handshake => exact handshakeTurn_requesting hj hp r
    | ask q => obtain ⟨_, _, heq⟩ := hisOf; cases heq
  | announcing =>
    rw [resume, task_of_views hj hp]
    cases r with
    | returned x =>
      cases x with
      | error f => exact handshakeTurn_giveUp hj hp .operation [] rfl rfl
      | ok text =>
        have hready : jobOf { s with phase := .ready } t = some (.call .handshake) := hj
        show ∃ p', (s.announced t).session.progressOf t = some p' ∧
          HandshakeTurn s t .announcing (.returned (.ok text)) p' (s.announced t).effects
        rw [announced, succeed, finish_call hready]
        refine ⟨.finished, ?_, .succeeds rfl rfl⟩
        exact progressOf_moveTask_self (s := { s with phase := .ready }) hp .finished
    | cancelled => exact handshakeTurn_giveUp hj hp .cancelled [] rfl rfl
    | begins | replied | rested | streamEnded | readerFinished =>
      exact ⟨_, hp, .idle rfl fun _ x h => by cases h⟩
  | finished =>
    rw [resume_finished hp]
    refine ⟨.finished, hp, .idle ?_ fun h => by cases h⟩
    cases r <;> rfl
  | reading | opening | settling | closing | listening | closingChannel | awaitingReader => cases hisOf
  | updating => obtain ⟨_, heq⟩ := hisOf; cases heq
  | answering => obtain ⟨_, _, _, heq⟩ := hisOf; cases heq
  | telling => obtain ⟨_, heq⟩ := hisOf; cases heq

end

/-! ## Confirming -/

section
variable {s : Session} {t v : Nat} {m : Json}

/-- What is over in a part of a turn sends nothing. -/
theorem not_send_finish (s : Session) (t v : Nat) (m : Json) (o : Except Failure Answer) :
    .perform v (.send m) ∉ (s.finish t o).effects := by
  have hending : (s.finish t o).Allowed (some .cancelled) [] .listen t := allowed_finish s t _ o
  exact not_send_of_allowed hending

theorem eq_of_send_transmit {x : Json} {next : Progress}
    (h : .perform v (.send m) ∈ (s.transmit t x next).effects) : m = x := by
  unfold transmit at h
  split at h
  · exact absurd h (not_send_finish s t v m _)
  · cases List.mem_singleton.mp h
    rfl

theorem eq_request_of_send_ask {purpose : Purpose} {method : String} {params : Json}
    (h : .perform v (.send m) ∈ (s.ask t purpose method params).effects) :
    ∃ id, m = request id method params := by
  unfold ask at h
  split at h
  · exact absurd h (not_send_finish s t v m _)
  · cases List.mem_singleton.mp h
    exact ⟨_, rfl⟩

/-- A task that begins confirms nothing. -/
theorem not_confirms_begin (s : Session) (t v : Nat) (job : Job) :
    .perform v (.send handshakeDone) ∉ (s.begin t job).effects := by
  intro h
  cases job with
  | call c =>
    cases c with
    | handshake | openDocument => exact absurd h (by simp [begin, beginCall])
    | updateDocument text =>
      change _ ∈ (s.beginUpdate t text).effects at h
      unfold beginUpdate at h
      split at h
      · exact not_send_finish s t v _ _ h
      · exact absurd (eq_of_send_transmit h) (by simp [changed, handshakeDone, notification])
    | closeDocument =>
      change _ ∈ (s.beginClose t).effects at h
      unfold beginClose at h
      split at h
      · exact not_send_finish s t v _ _ h
      · exact absurd (eq_of_send_transmit h) (by simp [closed, handshakeDone, notification])
    | ask q line character =>
      obtain ⟨id, heq⟩ := eq_request_of_send_ask h
      exact request_ne_handshakeDone _ _ _ heq.symm
    | dispose =>
      change _ ∈ (s.beginDispose t).effects at h
      unfold beginDispose at h
      split at h
      · exact not_send_finish s t v _ _ h
      · have hpending : (failPending { s with phase := .disposed } "session disposed").Allowed (some .cancelled) []
            .listen t := allowed_failPending _ t _ _
        simp only [Turned.effects_after, Turned.effects_andThen, List.mem_append, List.mem_singleton] at h
        rcases h with h | h | h
        · cases h
        · exact not_send_of_allowed hpending h
        · cases h
  | listen => exact absurd h (by simp [begin])
  | answer id method params =>
    change _ ∈ (s.beginAnswer t id method params).effects at h
    unfold beginAnswer at h
    split at h
    · exact not_send_finish s t v _ _ h
    · split at h
      · exact not_send_finish s t v _ _ h
      · exact absurd (eq_of_send_transmit h) (by simp [response, handshakeDone, notification])
  | publish n =>
    change _ ∈ (s.beginPublish t n).effects at h
    unfold beginPublish at h
    split at h
    · exact not_send_finish s t v _ _ h
    · have htelling : (s.tell t n (s.bus.recipients Notification.eventType)).Allowed (some .cancelled) [] .listen t :=
        allowed_tell s t _ n _
      exact not_send_of_allowed htelling h

/-- Nor does a task that has read its file. -/
theorem not_confirms_openWith (s : Session) (t v : Nat) (text : String) :
    .perform v (.send handshakeDone) ∉ (s.openWith t text).effects := by
  intro h
  unfold openWith at h
  dsimp only at h
  split at h
  · exact not_send_finish s t v _ _ h
  · exact absurd (eq_of_send_transmit h) (by simp [opened, handshakeDone, notification])

/-- **Only a handshake confirms**, in a turn of its own. -/
theorem jobOf_of_confirms (ho : Orderly s) {u : Turn}
    (h : .perform v (.send handshakeDone) ∈ (s.step u).effects) :
    u.task? = some v ∧ s.jobOf v = some (.call .handshake) := by
  obtain ⟨hu, job, hj, -⟩ := operation_of_perform h
  refine ⟨hu, ?_⟩
  obtain ⟨r, rfl⟩ := Turn.exists_resume hu
  obtain ⟨⟨job', q⟩, hk, rfl⟩ := Option.map_eq_some_iff.mp hj
  have hof := ho v _ _ (jobOf_of_get hk) (progressOf_of_get hk)
  change _ ∈ (s.resume v r).effects at h
  -- of the stages at which something is sent, two are those of a handshake, and an opening sends its text
  rcases sendsNext_of_send hk h with rfl | hsends
  · rw [resume, hk] at h
    cases q with
    | created => exact absurd h (not_confirms_begin s v v job')
    | _ => cases h
  · cases q with
    | openingChannel => exact hj.trans (congrArg some hof)
    | requesting purpose id written reply =>
      cases purpose with
      | handshake => exact hj.trans (congrArg some hof)
      | ask q => cases hsends
    | reading =>
      rw [resume, hk] at h
      cases r with
      | returned x =>
        cases x with
        | ok text => exact absurd h (not_confirms_openWith s v v text)
        | error f => exact absurd h (not_send_finish s v v _ _)
      | cancelled => exact absurd h (not_send_finish s v v _ _)
      | begins | replied | rested | streamEnded | readerFinished => cases h
    | created | announcing | opening | settling | updating | closing | answering | telling | listening
    | closingChannel | awaitingReader | finished => cases hsends

end

/-! ## Answers -/

/-- In a history, a message answers the request of a task: it comes while the request is pending. -/
def Answered (p : Profile) (h : List Turn) (t : Nat) (m : Json) : Prop :=
  ∃ a c id, h = a ++ .receive m :: c ∧ (id, t) ∈ ((new p).after a).pending ∧ Answers m id

/-- A message is the response to one request. -/
theorem Answers.unique {m : Json} {id id' : Nat} (h : Answers m id) (h' : Answers m id') : id = id' := by
  obtain ⟨ms, rfl, -, hid⟩ := h
  obtain ⟨ms', heq, -, hid'⟩ := h'
  cases heq
  rw [sameKey_int_iff] at hid hid'
  have := Option.some.inj (hid.symm.trans hid')
  omega

theorem answered_snoc {p : Profile} {h : List Turn} {u : Turn} {t : Nat} {m : Json} :
    Answered p (h ++ [u]) t m ↔
      Answered p h t m ∨ u = .receive m ∧ ∃ id, (id, t) ∈ ((new p).after h).pending ∧ Answers m id := by
  constructor
  · rintro ⟨a, c, id, heq, hmem, hanswers⟩
    rcases List.eq_nil_or_concat c with rfl | ⟨c, x, rfl⟩
    · obtain ⟨rfl, hu⟩ := List.append_inj' heq rfl
      exact .inr ⟨List.singleton_inj.mp hu, id, hmem, hanswers⟩
    · rw [List.concat_eq_append, ← List.cons_append, ← List.append_assoc] at heq
      obtain ⟨rfl, -⟩ := List.append_inj' heq rfl
      exact .inl ⟨a, c, id, rfl, hmem, hanswers⟩
  · rintro (⟨a, c, id, rfl, hmem, hanswers⟩ | ⟨rfl, id, hmem, hanswers⟩)
    · exact ⟨a, c ++ [u], id, by simp, hmem, hanswers⟩
    · exact ⟨h, [], id, rfl, hmem, hanswers⟩

section
variable {s : Session} {u : Turn} {t : Nat} {w x : Wait}

/-- A reply that is given in a turn is a response that the turn receives, or tells that the session is at
its end. -/
theorem reply_given (hs : Consistent s) (hw : s.waitOf t = some w) (waiting : w.reply = none)
    (hx : (s.step u).session.waitOf t = some x) {r : Reply} (hr : x.reply = some r) :
    (∃ m, u = .receive m ∧ Answers m w.id ∧ r = .ok m) ∨
      (∀ m, u ≠ .receive m) ∧ ∃ reason, r = .error (closedFailure reason) := by
  by_cases hu : ∃ m, u = .receive m
  · obtain ⟨m, rfl⟩ := hu
    have hsame (h : s.waitOf t = some x) : False := by
      cases hw.symm.trans h
      rw [waiting] at hr
      cases hr
    cases dealing_step s (.receive m) with
    | still _ _ waits => exact (hsame (waits t ▸ hx)).elim
    | resolved m' id v message listed answers _ _ waits =>
      obtain rfl : m = m' := Turn.receive.inj message
      rw [waits t] at hx
      split at hx
      · next htv =>
        subst htv
        obtain ⟨w', hw', hid, -⟩ := hs.waiting listed
        cases hw.symm.trans hw'
        rw [hw, Option.map_some] at hx
        cases hx
        rw [w.reply_answered, waiting] at hr
        exact .inl ⟨m, rfl, hid ▸ answers, (Option.some.inj hr).symm⟩
      · exact (hsame hx).elim
    | registered _ _ _ _ _ _ _ inside | left _ _ _ _ _ _ inside | written _ _ _ _ _ _ _ inside
    | failed _ _ _ _ _ inside => exact absurd rfl (inside m)
  · have hinside : ∀ m, u ≠ .receive m := fun m heq => hu ⟨m, heq⟩
    exact .inr ⟨hinside, reply_of_inside hw waiting hinside hx hr⟩

/-- A response to a pending request is its reply. -/
theorem waitOf_of_answer (hs : Consistent s) {id : Nat} (listed : (id, t) ∈ s.pending) {m : Json}
    (answers : Answers m id) : ∃ w, s.waitOf t = some w ∧ w.reply = none ∧
      (s.step (.receive m)).session.waitOf t = some (w.answered (.ok m)) := by
  obtain ⟨w, hw, hid, waiting⟩ := hs.waiting listed
  refine ⟨w, hw, waiting, ?_⟩
  cases dealing_step s (.receive m) with
  | still _ _ _ unanswered => exact absurd answers (unanswered m rfl _ listed)
  | resolved m' id' v message listed' answers' _ _ waits =>
    obtain rfl : m = m' := Turn.receive.inj message
    -- the request that the message answers is this one
    obtain rfl := answers.unique answers'
    obtain ⟨w', hw', hid', -⟩ := hs.waiting listed'
    obtain rfl : t = v := hs.single t v w w' hw hw' (hid.trans hid'.symm)
    rw [waits t, if_pos rfl, hw, Option.map_some]
  | registered _ _ _ _ _ _ _ inside | left _ _ _ _ _ _ inside | written _ _ _ _ _ _ _ inside
  | failed _ _ _ _ _ inside => exact absurd rfl (inside m)

end

/-! ## Histories -/

theorem effects_run_snoc (s : Session) (h : List Turn) (u : Turn) :
    (s.run (h ++ [u])).effects = (s.run h).effects ++ ((s.after h).step u).effects := by
  rw [run_append]
  show (s.run h).effects ++ (((s.after h).step u).effects ++ []) = _
  rw [List.append_nil]

theorem after_snoc (s : Session) (h : List Turn) (u : Turn) :
    s.after (h ++ [u]) = ((s.after h).step u).session := after_append s h [u]

/-- A task is the only handshake of a session, if it is there. -/
def Sole (s : Session) (t : Nat) : Prop := ∀ v job, s.jobOf v = some job → (job = .call .handshake ↔ v = t)

/-- It was the only one before. -/
theorem Sole.before {s : Session} (ho : Orderly s) {u : Turn} {t : Nat} (h : Sole (s.step u).session t) :
    Sole s t := fun v job hj => h v job (ho.jobOf_step u hj)

/-- How far a handshake has come, by the answer that it has, and by how often it has confirmed that. -/
inductive Reached : Option Progress → Option Json → Nat → Prop where
  | uncalled : Reached none none 0
  | created : Reached (some .created) none 0
  | opening : Reached (some .openingChannel) none 0
  | asked (id : Nat) (written : Bool) : Reached (some (.requesting .handshake id written none)) none 0
  /-- The session ended before there was an answer. -/
  | lost (id : Nat) (written : Bool) (reason : String) :
      Reached (some (.requesting .handshake id written (some (.error (closedFailure reason))))) none 0
  | answered (id : Nat) (written : Bool) (m : Json) :
      Reached (some (.requesting .handshake id written (some (.ok m)))) (some m) 0
  | announcing (m : Json) (accepted : errorOf? m = none) : Reached (some .announcing) (some m) 1
  | unconfirmed (answer : Option Json) : Reached (some .finished) answer 0
  | confirmed (m : Json) (accepted : errorOf? m = none) : Reached (some .finished) (some m) 1

/-- A handshake confirms once at most. -/
theorem Reached.le_one {q : Option Progress} {answer : Option Json} {n : Nat} (h : Reached q answer n) :
    n ≤ 1 := by
  cases h <;> decide

/-- A handshake that has confirmed its answer has one, without an error. -/
theorem Reached.accepted {q : Option Progress} {answer : Option Json} {n : Nat} (h : Reached q answer n)
    (hn : n ≠ 0) : ∃ m, answer = some m ∧ errorOf? m = none := by
  cases h with
  | announcing m accepted => exact ⟨m, rfl, accepted⟩
  | confirmed m accepted => exact ⟨m, rfl, accepted⟩
  | uncalled | created | opening | asked | lost | answered | unconfirmed => exact absurd rfl hn

/-- A handshake confirms no answer with an error. -/
theorem Reached.unconfirmed_of_error {q : Option Progress} {m e : Json} {n : Nat}
    (h : Reached q (some m) n) (error : errorOf? m = some e) : n = 0 := by
  refine Decidable.not_not.mp fun hn => ?_
  obtain ⟨m', heq, haccepted⟩ := h.accepted hn
  cases heq
  cases error.symm.trans haccepted

/-- In a history a handshake has a message to send that is refused with a failure. -/
def Refused (p : Profile) (h : List Turn) (t : Nat) (f : Failure) : Prop :=
  ∃ a u b, h = a ++ u :: b ∧ HasToSend ((new p).after a) t u ∧ ((new p).after a).refusal? = some f

/-- What may come of a handshake in a history, by the answer that it has, and by how often it has confirmed
that. No answer with an error is passed over because the session ended or refuses messages. -/
inductive Verdict (p : Profile) (h : List Turn) (t : Nat) (answer : Option Json) (n : Nat) :
    Except Failure Answer → Prop where
  | succeeded (once : n = 1) : Verdict p h t answer n (.ok .done)
  | rejected (m e : Json) (here : answer = some m) (error : errorOf? m = some e) :
      Verdict p h t answer n (.error (.handshakeRejected e))
  /-- The session ended before there was an answer. -/
  | lost (reason : String) (unrejected : ∀ m, answer = some m → errorOf? m = none) :
      Verdict p h t answer n (.error (closedFailure reason))
  | refused (f : Failure) (refused : Refused p h t f) (unrejected : ∀ m, answer = some m → errorOf? m = none) :
      Verdict p h t answer n (.error f)
  | failed (f : Failure) (mem : .resume t (.returned (.error f)) ∈ h) : Verdict p h t answer n (.error f)
  | cancelled (mem : .resume t .cancelled ∈ h) : Verdict p h t answer n (.error .cancelled)

theorem Refused.snoc {p : Profile} {h : List Turn} {t : Nat} {f : Failure} (hr : Refused p h t f) (u : Turn) :
    Refused p (h ++ [u]) t f := by
  obtain ⟨a, v, b, rfl, sends, why⟩ := hr
  exact ⟨a, v, b ++ [u], by simp, sends, why⟩

theorem Verdict.snoc {p : Profile} {h : List Turn} {t : Nat} {answer : Option Json} {n : Nat}
    {o : Except Failure Answer} (hv : Verdict p h t answer n o) (u : Turn) :
    Verdict p (h ++ [u]) t answer n o := by
  cases hv with
  | succeeded once => exact .succeeded once
  | rejected m e here error => exact .rejected m e here error
  | lost reason unrejected => exact .lost reason unrejected
  | refused f refused unrejected => exact .refused f (refused.snoc u) unrejected
  | failed f mem => exact .failed f (List.mem_append_left _ mem)
  | cancelled mem => exact .cancelled (List.mem_append_left _ mem)

/-- Where a handshake stands after a history: how far it has come, which answer its request has, and how
often it has confirmed that. -/
structure Standing (p : Profile) (h : List Turn) (t : Nat) (answer : Option Json) (n : Nat) : Prop where
  reached : Reached (((new p).after h).progressOf t) answer n
  answers : ∀ m, Answered p h t m ↔ answer = some m
  /-- Nobody else confirms. -/
  count : confirmed ((new p).run h).effects = List.replicate n (t, handshakeDone)
  ready : ((new p).after h).phase = .ready → n = 1 ∧ ((new p).after h).progressOf t = some .finished
  verdict : ∀ o, .completed t o ∈ ((new p).run h).effects →
    ((new p).after h).progressOf t = some .finished ∧ Verdict p h t answer n o
  known : ((new p).after h).progressOf t = some .finished → ∃ o, .completed t o ∈ ((new p).run h).effects

/-- A handshake that is over stands where it stood. -/
theorem Reached.over {q : Option Progress} {answer : Option Json} {n : Nat} (h : Reached q answer n) :
    Reached (some .finished) answer n := by
  cases h with
  | announcing m accepted => exact .confirmed m accepted
  | confirmed m accepted => exact .confirmed m accepted
  | uncalled | created | opening | asked | lost | answered | unconfirmed => exact .unconfirmed _

/-- A session becomes ready when the confirmation of a handshake was written. -/
theorem announced_of_ready {s : Session} (ho : Orderly s) {u : Turn}
    (h : (s.step u).session.phase = .ready) :
    s.phase = .ready ∨ ∃ v text, u = .resume v (.returned (.ok text)) ∧
      s.jobOf v = some (.call .handshake) ∧ s.progressOf v = some .announcing := by
  cases course_step ho u with
  | steady same => exact .inl (same.phase ▸ h)
  | shaken v turn job _ phase =>
    rcases phase with phase | ⟨-, -, phase⟩ | ⟨⟨text, hu⟩, announcing, -⟩
    · exact .inl (phase ▸ h)
    · rw [phase] at h
      cases h
    · subst hu
      cases turn
      exact .inr ⟨v, text, rfl, job, announcing⟩
  | disposed _ _ _ _ _ phase =>
    rw [phase] at h
    cases h
  | ended _ _ _ _ _ _ phase | wrappedUp _ _ _ _ phase | spawned phase | accounted phase => exact .inl (phase ▸ h)

section
variable {p : Profile} {h : List Turn} {t : Nat} {answer : Option Json} {n : Nat} {u : Turn}

/-- A turn in which no message is received brings no answer. -/
theorem answered_inside (inside : ∀ m, u ≠ .receive m) (m : Json) :
    Answered p (h ++ [u]) t m ↔ Answered p h t m := by
  rw [answered_snoc]
  exact ⟨fun hm => hm.resolve_right fun hu => inside m hu.1, .inl⟩

/-- Nor does a turn that leaves the handshake as it is. -/
theorem answered_same
    (same : (((new p).after h).step u).session.progressOf t = ((new p).after h).progressOf t)
    (m : Json) : Answered p (h ++ [u]) t m ↔ Answered p h t m := by
  rw [answered_snoc]
  refine ⟨fun hm => hm.resolve_right ?_, .inl⟩
  rintro ⟨rfl, id, listed, answers⟩
  -- an answer is given to the task that waits, so that would be at another stage
  obtain ⟨w, hw, waiting, hx⟩ := waitOf_of_answer (consistent_after p h) listed answers
  rw [waitOf, same] at hx
  change ((new p).after h).waitOf t = _ at hx
  have heq := congrArg Wait.reply (Option.some.inj (hw.symm.trans hx))
  rw [Wait.reply_answered, waiting] at heq
  cases heq

/-- A turn of another task lets nothing be known of a handshake, confirms nothing, and does not make the
session ready. -/
theorem silent_elsewhere (sole : Sole ((new p).after h) t) (hu : u.task? ≠ some t) :
    confirmed (((new p).after h).step u).effects = [] ∧
      (∀ o, .completed t o ∉ (((new p).after h).step u).effects) ∧
      ((((new p).after h).step u).session.phase = .ready → ((new p).after h).phase = .ready) := by
  have ho := orderly_after p h
  refine ⟨confirmed_eq_nil fun v hv => ?_, fun o ho => hu (task?_of_completed ho), fun hready => ?_⟩
  · obtain ⟨hv, hj⟩ := jobOf_of_confirms ho hv
    obtain rfl := (sole v _ hj).mp rfl
    exact hu hv
  · rcases announced_of_ready ho hready with hbefore | ⟨v, text, rfl, hj, -⟩
    · exact hbefore
    · obtain rfl := (sole v _ hj).mp rfl
      exact absurd rfl hu

/-- How far a handshake has come after a turn of another task: it may have been given its reply. -/
theorem Reached.elsewhere (reached : Reached (((new p).after h).progressOf t) answer n)
    (answers : ∀ m, Answered p h t m ↔ answer = some m) (hu : u.task? ≠ some t) :
    ∃ answer', Reached ((((new p).after h).step u).session.progressOf t) answer' n ∧
      (∀ m, Answered p (h ++ [u]) t m ↔ answer' = some m) ∧
      (((new p).after h).progressOf t = some .finished → answer' = answer) := by
  have ho := orderly_after p h
  have hsame (same : (((new p).after h).step u).session.progressOf t = ((new p).after h).progressOf t) :
      ∃ answer', Reached ((((new p).after h).step u).session.progressOf t) answer' n ∧
        (∀ m, Answered p (h ++ [u]) t m ↔ answer' = some m) ∧
        (((new p).after h).progressOf t = some .finished → answer' = answer) :=
    ⟨answer, same ▸ reached, fun m => (answered_same same m).trans (answers m), fun _ => rfl⟩
  cases hq : ((new p).after h).progressOf t with
  | none =>
    rcases ho.progressOf_fresh u hq with hnone | hcreated
    · rw [hq] at hsame
      exact hsame hnone
    · rw [hq] at reached
      cases reached
      refine ⟨none, hcreated ▸ .created, fun m => ?_, fun hf => by cases hf⟩
      -- a message answers only what is pending
      rw [answered_snoc]
      refine ⟨fun hm => (answers m).mp (hm.resolve_right ?_), fun hm => by cases hm⟩
      rintro ⟨-, id, listed, -⟩
      obtain ⟨w, hw, -⟩ := (consistent_after p h).waiting listed
      rw [waitOf, hq] at hw
      cases hw
  | some q =>
    obtain ⟨q', hq', rfl | ⟨purpose, id, written, r, rfl, rfl⟩⟩ := ho.progressOf_step hu hq
    · rw [hq] at hsame
      exact hsame hq'
    · -- it is given its reply
      rw [hq] at reached
      have hw := waitOf_of_progressOf hq
      cases reached
      rcases reply_given (consistent_after p h) hw rfl (waitOf_of_progressOf hq') rfl with
        ⟨m, rfl, hanswers, rfl⟩ | ⟨inside, reason, rfl⟩
      · refine ⟨some m, hq' ▸ .answered id written m, fun m' => ?_, fun hf => by cases hf⟩
        rw [answered_snoc]
        constructor
        · rintro (hm | ⟨heq, -⟩)
          · cases (answers m').mp hm
          · cases heq
            rfl
        · intro heq
          cases heq
          exact .inr ⟨rfl, id, (consistent_after p h).mem_pending hw rfl, hanswers⟩
      · exact ⟨none, hq' ▸ .lost id written reason,
          fun m => (answered_inside inside m).trans (answers m), fun hf => by cases hf⟩

/-- A turn of another task keeps the standing of a handshake, but for the reply that it may give. -/
theorem Standing.elsewhere (hs : Standing p h t answer n) (sole : Sole ((new p).after h) t)
    (hu : u.task? ≠ some t) : ∃ answer', Standing p (h ++ [u]) t answer' n := by
  obtain ⟨answer', hreached, hanswers, hover⟩ := hs.reached.elsewhere hs.answers hu
  obtain ⟨hconfirmed, hnone, hready⟩ := silent_elsewhere sole hu
  have hfinished (hf : ((new p).after h).progressOf t = some .finished) :=
    (orderly_after p h).finished_step u hf
  refine ⟨answer', ?_, hanswers, ?_, fun hphase => ?_, fun o ho => ?_, fun hf => ?_⟩
  · rw [after_snoc]
    exact hreached
  · rw [effects_run_snoc, confirmed_append, hconfirmed, List.append_nil]
    exact hs.count
  · rw [after_snoc] at hphase ⊢
    obtain ⟨hn, hf⟩ := hs.ready (hready hphase)
    exact ⟨hn, hfinished hf⟩
  · rw [effects_run_snoc] at ho
    obtain ⟨hf, hverdict⟩ := hs.verdict o ((List.mem_append.mp ho).resolve_right (hnone o))
    rw [after_snoc, hover hf]
    exact ⟨hfinished hf, hverdict.snoc u⟩
  · rw [effects_run_snoc]
    rw [after_snoc] at hf
    -- only a turn of its own ends a task
    have hbefore : ((new p).after h).progressOf t = some .finished := by
      cases hq : ((new p).after h).progressOf t with
      | none =>
        rcases (orderly_after p h).progressOf_fresh u hq with hnew | hnew
        · rw [hnew] at hf
          cases hf
        · rw [hnew] at hf
          cases hf
      | some q =>
        obtain ⟨q', hq', rfl | ⟨_, _, _, _, -, rfl⟩⟩ := (orderly_after p h).progressOf_step hu hq
        · rw [hq'] at hf
          exact hf
        · rw [hq'] at hf
          cases hf
    obtain ⟨o, ho⟩ := hs.known hbefore
    exact ⟨o, List.mem_append_left _ ho⟩

/-- A turn that does nothing to a session keeps everything. -/
theorem Standing.idle (hs : Standing p h t answer n) {r : Resumption}
    (hidle : ((new p).after h).resume t r = ⟨(new p).after h, []⟩) :
    Standing p (h ++ [.resume t r]) t answer n := by
  have hsession : (new p).after (h ++ [.resume t r]) = (new p).after h := by
    rw [after_snoc]
    show (((new p).after h).resume t r).session = _
    rw [hidle]
  have heffects : ((new p).run (h ++ [.resume t r])).effects = ((new p).run h).effects := by
    rw [effects_run_snoc]
    show _ ++ (((new p).after h).resume t r).effects = _
    rw [hidle]
    exact List.append_nil _
  refine ⟨hsession ▸ hs.reached, fun m => ?_, heffects ▸ hs.count, hsession ▸ hs.ready, fun o ho => ?_,
    fun hf => heffects ▸ hs.known (hsession ▸ hf)⟩
  · rw [answered_inside (by simp)]
    exact hs.answers m
  · obtain ⟨hf, hverdict⟩ := hs.verdict o (heffects ▸ ho)
    exact ⟨hsession ▸ hf, hverdict.snoc _⟩

/-- A request whose reply is dealt with has it. -/
theorem Concludes.waits {s : Session} {id : Nat} {rep : Reply} (hc : Concludes s u t id rep) :
    ∃ purpose written, s.progressOf t = some (.requesting purpose id written (some rep)) := by
  cases hc with
  | replied waits => exact ⟨_, _, waits⟩
  | found waits => exact ⟨_, _, waits⟩

/-- Why a handshake fails tells what may come of it. -/
theorem HandshakeFails.verdict {q : Progress} {r : Resumption} {f : Failure}
    (why : HandshakeFails ((new p).after h) t q r f)
    (reached : Reached (((new p).after h).progressOf t) answer n) :
    Verdict p (h ++ [.resume t r]) t answer n (.error f) := by
  have hlast : .resume t r ∈ h ++ [.resume t r] := List.mem_append_right _ (List.mem_singleton_self _)
  cases why with
  | cancelled => exact .cancelled hlast
  | operation => exact .failed f hlast
  | refused sends why =>
    refine .refused _ ⟨h, .resume t r, [], rfl, sends, why⟩ fun m hm => ?_
    -- there is no answer yet, or it is the one that is confirmed
    cases sends with
    | request text opening =>
      rw [opening] at reached
      cases reached
      cases hm
    | confirmation hc accepted =>
      obtain ⟨purpose, written, hp⟩ := hc.waits
      rw [hp] at reached
      cases reached
      cases hm
      exact accepted
  | lost hc =>
    obtain ⟨purpose, written, hp⟩ := hc.waits
    rw [hp] at reached
    cases reached
    exact .lost _ fun m hm => by cases hm
  | rejected hc error =>
    obtain ⟨purpose, written, hp⟩ := hc.waits
    rw [hp] at reached
    cases reached
    exact .rejected _ _ rfl error

/-- Where a handshake stands after a turn of its own, by what the turn did. -/
theorem Standing.moved (hs : Standing p h t answer n)
    (going : ((new p).after h).progressOf t ≠ some .finished) {r : Resumption} {q' : Progress}
    (hq' : (((new p).after h).resume t r).session.progressOf t = some q') {es : List Effect}
    (hes : (((new p).after h).resume t r).effects = es) {n' : Nat} (reached : Reached (some q') answer n')
    (count : List.replicate n (t, handshakeDone) ++ confirmed es = List.replicate n' (t, handshakeDone))
    (ready : (((new p).after h).resume t r).session.phase = .ready → n' = 1 ∧ q' = .finished)
    (ends : ∀ o, (t, o) ∈ endings es → q' = .finished ∧ Verdict p (h ++ [.resume t r]) t answer n' o)
    (known : q' = .finished → ∃ o, (t, o) ∈ endings es) : Standing p (h ++ [.resume t r]) t answer n' := by
  have hafter : (new p).after (h ++ [.resume t r]) = (((new p).after h).resume t r).session :=
    after_snoc _ _ _
  have heffects : ((new p).run (h ++ [.resume t r])).effects = ((new p).run h).effects ++ es := by
    rw [effects_run_snoc, ← hes]
    rfl
  refine ⟨?_, fun m => ?_, ?_, fun hphase => ?_, fun o ho => ?_, fun hf => ?_⟩
  · rw [hafter, hq']
    exact reached
  · rw [answered_inside (by simp)]
    exact hs.answers m
  · rw [heffects, confirmed_append, hs.count]
    exact count
  · rw [hafter] at hphase
    obtain ⟨hn, hf⟩ := ready hphase
    exact ⟨hn, by rw [hafter, hq', hf]⟩
  · rw [heffects] at ho
    rcases List.mem_append.mp ho with ho | ho
    · exact absurd (hs.verdict o ho).1 going
    · obtain ⟨hf, hverdict⟩ := ends o (mem_endings.mpr ho)
      exact ⟨by rw [hafter, hq', hf], hverdict⟩
  · rw [hafter, hq'] at hf
    obtain ⟨o, ho⟩ := known (Option.some.inj hf)
    exact ⟨o, heffects ▸ List.mem_append_right _ (mem_endings.mp ho)⟩

/-- A handshake does not fail in the turn in which its confirmation was written. -/
theorem HandshakeFails.not_announced {s : Session} {q : Progress} {r : Resumption} {f : Failure}
    (why : HandshakeFails s t q r f) (hq : s.progressOf t = some q) (hannouncing : q = .announcing)
    {text : String} (hr : r = .returned (.ok text)) : False := by
  have hwaits {id : Nat} {rep : Reply} (hc : Concludes s (.resume t r) t id rep) : False := by
    obtain ⟨purpose, written, hp⟩ := hc.waits
    rw [hq, hannouncing] at hp
    cases hp
  cases why with
  | cancelled | operation => cases hr
  | refused sends =>
    cases sends with
    | request text opening =>
      rw [hq, hannouncing] at opening
      cases opening
    | confirmation hc => exact hwaits hc
  | lost hc | rejected hc => exact hwaits hc

/-- **What a turn of a handshake does to its standing.** -/
theorem Standing.own (hs : Standing p h t answer n) (hj : ((new p).after h).jobOf t = some (.call .handshake))
    {q : Progress} (hq : ((new p).after h).progressOf t = some q) (going : q ≠ .finished) (r : Resumption) :
    ∃ n', Standing p (h ++ [.resume t r]) t answer n' := by
  have ho := orderly_after p h
  obtain ⟨q', hq', hturn⟩ := handshakeTurn_resume ho hj hq r
  have hreached := hs.reached
  rw [hq] at hreached
  have hgoing : ((new p).after h).progressOf t ≠ some .finished := by
    rw [hq]
    exact fun heq => going (Option.some.inj heq)
  -- the session becomes ready in one of these turns only
  have hready (hphase : (((new p).after h).resume t r).session.phase = .ready) :
      q = .announcing ∧ ∃ text, r = .returned (.ok text) := by
    rcases announced_of_ready (u := .resume t r) ho hphase with hbefore | ⟨v, text, heq, -, hann⟩
    · exact absurd (hs.ready hbefore).2 hgoing
    · cases heq
      exact ⟨Option.some.inj (hq.symm.trans hann), text, rfl⟩
  generalize hes : (((new p).after h).resume t r).effects = es at hturn
  -- the answer stays what it is: a turn of a task receives no message
  -- the handshake goes on, from a stage before its confirmation
  have hgoesOn (before : q ≠ .announcing) (after : q' ≠ .finished) {n' : Nat}
      (reached : Reached (some q') answer n')
      (count : List.replicate n (t, handshakeDone) ++ confirmed es = List.replicate n' (t, handshakeDone))
      (silent : endings es = []) : ∃ n', Standing p (h ++ [.resume t r]) t answer n' := by
    refine ⟨n', hs.moved hgoing hq' hes reached count (fun hphase => absurd (hready hphase).1 before)
      (fun o ho => ?_) fun hf => absurd hf after⟩
    rw [silent] at ho
    cases ho
  cases hturn with
  | idle passed unowed =>
    refine ⟨n, hs.moved hgoing hq' hes hreached (List.append_nil _) (fun hphase => ?_)
      (fun o ho => by cases ho) fun hf => absurd hf going⟩
    obtain ⟨rfl, text, rfl⟩ := hready hphase
    exact absurd rfl (unowed rfl _)
  | begins own silent =>
    cases hreached
    exact hgoesOn (by simp) (by simp) .opening (by rw [confirmed_of_orders own]; rfl) silent
  | asks own request silent =>
    cases hreached
    refine hgoesOn (by simp) (by simp) (.asked _ _) ?_ silent
    rw [confirmed_of_orders own]
    simp [orderedMessage?, confirmations, request]
  | written quiet silent =>
    cases hreached
    exact hgoesOn (by simp) (by simp) (.asked _ _) (by rw [confirmed_of_orders quiet]; rfl) silent
  | confirms hc accepted own silent =>
    obtain ⟨purpose, written, hp⟩ := hc.waits
    obtain rfl := Option.some.inj (hq.symm.trans hp)
    cases hreached
    refine hgoesOn (by simp) (by simp) (.announcing _ accepted) ?_ silent
    rw [confirmed_of_orders own]
    rfl
  | succeeds quiet known =>
    cases hreached with
    | announcing m accepted =>
      refine ⟨1, hs.moved hgoing hq' hes (.confirmed m accepted) ?_ (fun _ => ⟨rfl, rfl⟩) (fun o ho => ?_)
        fun _ => ⟨_, known ▸ List.mem_singleton_self _⟩⟩
      · rw [confirmed_of_orders quiet]
        rfl
      · rw [known] at ho
        cases List.mem_singleton.mp ho
        exact ⟨rfl, .succeeded rfl⟩
  | fails why quiet known =>
    refine ⟨n, hs.moved hgoing hq' hes hreached.over ?_ (fun hphase => ?_) (fun o ho => ?_)
      fun _ => ⟨_, known ▸ List.mem_singleton_self _⟩⟩
    · rw [confirmed_of_orders quiet]
      exact List.append_nil _
    · obtain ⟨hann, text, hr⟩ := hready hphase
      exact (why.not_announced hq hann hr).elim
    · rw [known] at ho
      cases List.mem_singleton.mp ho
      exact ⟨rfl, why.verdict hs.reached⟩

/-- A turn of any task keeps the standing of a handshake that is the only one. -/
theorem Standing.step (hs : Standing p h t answer n) (sole : Sole ((new p).after (h ++ [u])) t) :
    ∃ answer' n', Standing p (h ++ [u]) t answer' n' := by
  have ho := orderly_after p h
  have hsole : Sole ((new p).after h) t := by
    rw [after_snoc] at sole
    exact sole.before ho
  by_cases hu : u.task? = some t
  · obtain ⟨r, rfl⟩ := Turn.exists_resume hu
    cases hk : ((new p).after h).tasks[t]? with
    | none => exact ⟨answer, n, hs.idle (by rw [resume, hk])⟩
    | some k =>
      obtain ⟨job, q⟩ := k
      have hj := jobOf_of_get hk
      have hq := progressOf_of_get hk
      obtain rfl : job = .call .handshake := (hsole t job hj).mpr rfl
      by_cases hfinished : q = .finished
      · exact ⟨answer, n, hs.idle (resume_finished (hfinished ▸ hq) r)⟩
      · exact ⟨answer, hs.own hj hq hfinished r⟩
  · obtain ⟨answer', h'⟩ := hs.elsewhere hsole hu
    exact ⟨answer', n, h'⟩

end

/-- **Where a handshake stands.** After every history in which it is the only one, a handshake has an answer
or none, has confirmed it so and so often, and all else agrees with that. -/
theorem exists_standing {p : Profile} {h : List Turn} {t : Nat} (sole : Sole ((new p).after h) t) :
    ∃ answer n, Standing p h t answer n := by
  -- by induction on the history, with its answer and its count as they are after each turn
  induction h using List.reverseRecOn with
  | nil =>
    refine ⟨none, 0, .uncalled, fun m => ⟨?_, fun hm => ?_⟩, rfl, fun hphase => ?_, fun o ho => ?_,
      fun hf => ?_⟩
    · rintro ⟨a, c, id, heq, -⟩
      exact absurd heq (by simp)
    · cases hm
    · cases hphase
    · cases ho
    · cases hf
  | append_singleton h u ih =>
    have hbefore : Sole ((new p).after h) t := by
      rw [after_snoc] at sole
      exact sole.before (orderly_after p h)
    obtain ⟨answer, n, hs⟩ := ih hbefore
    exact hs.step sole

/-! ## Refused messages -/

/-- A handshake whose message is refused fails for that. -/
theorem completed_refused {s : Session} (ho : Orderly s) {t : Nat} (hj : s.jobOf t = some (.call .handshake))
    {u : Turn} (sends : HasToSend s t u) {f : Failure} (why : s.refusal? = some f) :
    .completed t (.error f) ∈ (s.step u).effects := by
  have hfails {q : Session} (hq : q.jobOf t = some (.call .handshake)) :
      .completed t (.error f) ∈ (q.giveUp t f).effects := by
    rw [giveUp, finish_call hq]
    exact List.mem_singleton_self _
  cases sends with
  | request text opening =>
    -- the reader is a task of its own, made before the request is refused
    let q : Session := { (s.addTask .listen).1 with reader := some s.tasks.length }
    have hne : t ≠ s.tasks.length := Nat.ne_of_lt (lt_of_progressOf opening)
    have hjq : q.jobOf t = some (.call .handshake) := (jobOf_addTask s .listen t).trans (by rw [if_neg hne, hj])
    show _ ∈ (s.resume t (.returned (.ok text))).effects
    rw [resume, task_of_views hj opening]
    refine List.mem_append_right [Effect.start s.tasks.length] ?_
    show _ ∈ (q.ask t .handshake handshakeMethod (handshakeParams s.profile)).effects
    rw [ask, show q.refusal? = some f from why]
    exact hfails hjq
  | @confirmation r id m hc accepted =>
    have hconclude : .completed t (.error f) ∈ (s.conclude t .handshake id (.ok m)).effects := by
      rw [conclude_accepted s t id accepted, transmit, show (s.dropRequest id).refusal? = some f from why]
      exact hfails (q := s.dropRequest id) hj
    have hpurpose {purpose : Purpose} {written : Bool} {reply : Option Reply}
        (hp : s.progressOf t = some (.requesting purpose id written reply)) : purpose = .handshake := by
      cases purpose with
      | handshake => rfl
      | ask q =>
        obtain ⟨_, _, heq⟩ := ho t _ _ hj hp
        cases heq
    cases hc with
    | replied waits =>
      obtain rfl := hpurpose waits
      show _ ∈ (s.resume t .replied).effects
      rw [resume, task_of_views hj waits]
      exact hconclude
    | @found _ _ _ _ text waits =>
      obtain rfl := hpurpose waits
      show _ ∈ (s.resume t (.returned (.ok text))).effects
      rw [resume, task_of_views hj waits]
      exact List.mem_append_right _ hconclude

/-- What a handshake has to send, its task is there for. -/
theorem HasToSend.here {s : Session} {t : Nat} {u : Turn} (sends : HasToSend s t u) :
    ∃ p, s.progressOf t = some p ∧ p ≠ .finished := by
  cases sends with
  | request text opening => exact ⟨_, opening, by simp⟩
  | confirmation hc =>
    obtain ⟨purpose, written, waits⟩ := hc.waits
    exact ⟨_, waits, by simp⟩

theorem Refused.completed {p : Profile} {h : List Turn} {t : Nat} {f : Failure} (hr : Refused p h t f)
    (sole : Sole ((new p).after h) t) : .completed t (.error f) ∈ ((new p).run h).effects := by
  obtain ⟨a, u, b, rfl, sends, why⟩ := hr
  have ho := orderly_after p a
  obtain ⟨q, hq, -⟩ := sends.here
  obtain ⟨⟨job, _⟩, hk, -⟩ := Option.map_eq_some_iff.mp hq
  have hlater : ((new p).after (a ++ u :: b)).jobOf t = some job := by
    rw [after_append]
    exact ho.jobOf_after _ (jobOf_of_get hk)
  obtain rfl := (sole t job hlater).mpr rfl
  have hnow := completed_refused ho (jobOf_of_get hk) sends why
  rw [run_append]
  exact List.mem_append_right _ (List.mem_append_left _ hnow)

/-! ## Disposal -/

/-- A writer that was stopped, or is about to be, belongs to a session that was disposed of. -/
theorem disposed_of_stopped (p : Profile) {h : List Turn}
    (stopped : ((new p).after h).writer = .stopped ∨ ∃ t, ((new p).after h).Disposing t) :
    ∃ a b, h = a ++ b ∧ ((new p).after a).phase = .disposed := by
  induction h using List.reverseRecOn with
  | nil =>
    rcases stopped with hw | ⟨t, ht | ⟨v, ht⟩⟩
    · cases hw
    · cases ht
    · cases ht
  | append_singleton h u ih =>
    have ho := orderly_after p h
    rw [after_snoc] at stopped
    have hbefore (hx : ((new p).after h).writer = .stopped ∨ ∃ t, ((new p).after h).Disposing t) :
        ∃ a b, h ++ [u] = a ++ b ∧ ((new p).after a).phase = .disposed := by
      obtain ⟨a, b, rfl, disposed⟩ := ih hx
      exact ⟨a, b ++ [u], List.append_assoc a b [u], disposed⟩
    rcases stopped with hw | ⟨t, ht⟩
    · rcases writer_step ho u with hsame | hdisposing
      · exact hbefore (.inl (hsame ▸ hw))
      · exact hbefore (.inr hdisposing)
    · rcases ht.before ho with ht | disposed
      · exact hbefore (.inr ⟨t, ht⟩)
      · exact ⟨h ++ [u], [], (List.append_nil _).symm, by rw [after_snoc, disposed]⟩

/-- A session is disposed of, or its handshake is over. -/
def Barred (s : Session) (t : Nat) : Prop := s.phase = .disposed ∨ s.progressOf t = some .finished

/-- **A handshake that has begun revives no session in which it goes on.** -/
theorem Barred.step {s : Session} {t : Nat} (hb : Barred s t) (ho : Orderly s) (hbegun : Begun s)
    (sole : Sole s t) (fresh : s.progressOf t = some .created → s.phase ≠ .disposed) (u : Turn) :
    Barred (s.step u).session t := by
  rcases hb with hphase | hf
  · have hunique : ∀ v w, s.jobOf v = some (.call .handshake) → s.jobOf w = some (.call .handshake) → v = w :=
      fun v w hv hw => ((sole v _ hv).mp rfl).trans ((sole w _ hw).mp rfl).symm
    rcases rank_step ho hbegun hunique u with hle | ⟨-, hsets⟩
    · -- no other phase is as late
      refine .inl ?_
      rw [hphase] at hle
      revert hle
      cases (s.step u).session.phase <;> decide
    · cases hsets with
      | begins v job created =>
        obtain rfl := (sole v _ job).mp rfl
        exact absurd hphase (fresh created)
      | announced v text job announcing =>
        obtain rfl := (sole v _ job).mp rfl
        obtain ⟨q', hq', hturn⟩ := handshakeTurn_resume ho job announcing (.returned (.ok text))
        refine .inr (hq'.trans ?_)
        generalize (s.resume v (.returned (.ok text))).effects = es at hturn
        cases hturn with
        | idle _ unowed => exact absurd rfl (unowed rfl _)
        | confirms hc =>
          obtain ⟨purpose, written, hp⟩ := hc.waits
          cases announcing.symm.trans hp
        | succeeds | fails => rfl
  · exact .inr (ho.finished_step u hf)

/-- A handshake began in no session that was disposed of. -/
def BeganFresh (p : Profile) (h : List Turn) (t : Nat) : Prop :=
  ∀ a b, h = a ++ b → ((new p).after a).progressOf t = some .created → ((new p).after a).phase ≠ .disposed

/-- A session that was disposed of during its handshake is disposed of as long as that goes on. -/
theorem barred_after {p : Profile} {a b : List Turn} {t : Nat} (sole : Sole ((new p).after (a ++ b)) t)
    (fresh : BeganFresh p (a ++ b) t) (disposed : ((new p).after a).phase = .disposed) :
    Barred ((new p).after (a ++ b)) t := by
  induction b using List.reverseRecOn with
  | nil =>
    rw [List.append_nil]
    exact .inl disposed
  | append_singleton b u ih =>
    rw [← List.append_assoc] at sole fresh ⊢
    obtain ⟨ho, hbegun⟩ := begun_after p (a ++ b)
    rw [after_snoc] at sole ⊢
    have hbefore := sole.before ho
    have hbarred := ih hbefore fun x y heq => fresh x (y ++ [u]) (by rw [heq, List.append_assoc])
    exact hbarred.step ho hbegun hbefore (fresh (a ++ b) [u] rfl) u

/-- **A handshake that began in no session that was disposed of finds the writer running.** -/
theorem not_refused_of_fresh {p : Profile} {h : List Turn} {t : Nat} (sole : Sole ((new p).after h) t)
    (fresh : BeganFresh p h t) : ¬ Refused p h t writerStopped := by
  rintro ⟨a, u, b, rfl, sends, why⟩
  rcases refusal?_cases why with ⟨reason, -, hreason⟩ | ⟨hopen, stopped, -⟩
  · cases hreason
  obtain ⟨c, d, rfl, disposed⟩ := disposed_of_stopped p (.inl stopped)
  have hsole : Sole ((new p).after (c ++ d)) t := by
    intro v job hj
    refine sole v job ?_
    rw [after_append]
    exact (orderly_after p (c ++ d)).jobOf_after _ hj
  rcases barred_after hsole (fun x y heq => fresh x (y ++ u :: b) (by rw [heq, List.append_assoc])) disposed
    with hphase | hf
  · exact (whyClosed?_eq_none.mp hopen).1 hphase
  · obtain ⟨q, hq, going⟩ := sends.here
    exact going (Option.some.inj (hq.symm.trans hf))

end EditorServices.Session
