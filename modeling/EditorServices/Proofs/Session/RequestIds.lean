import EditorServices.Proofs.Session.Dealing
import EditorServices.Proofs.Session.DocumentChanges

/-!
# `Proofs.Session.RequestIds` — requests are handed over under the ids 1, 2, 3 and so on

A message is a request if it has a method and an id; answers to the server have no method, and
notifications have no id. Of the functions that a turn is put together from, only `ask` hands over a
request, and it counts it at the same time: every other one is `Quiet`, it counts nothing and hands over no
request. So the ids that a history hands over are the numbers that it counts.

## Contents
- **Ids.** `requestId?`, `requestIds`.
- **Quiet turns.** `Quiet`, function by function.
- **One turn.** `Asks`, `quiet_or_asks_step`.
- **Histories.** `requestIds_run`.
-/

namespace EditorServices.Session

/-! ## Ids -/

/-- The id of a message that is a request. -/
def requestId? (m : Json) : Option Json := (m.get? "method").bind fun _ => m.get? "id"

/-- The ids of the requests among messages, in their order. -/
def requestIdsIn (messages : List (Nat × Json)) : List Json := messages.filterMap fun x => requestId? x.2

/-- The ids of the requests that effects hand over, in their order. -/
def requestIds (es : List Effect) : List Json := requestIdsIn (es.filterMap Effect.sent?)

theorem requestIds_append (es fs : List Effect) : requestIds (es ++ fs) = requestIds es ++ requestIds fs := by
  unfold requestIds requestIdsIn
  rw [List.filterMap_append, List.filterMap_append]

@[simp] theorem requestId?_request (id : Nat) (method : String) (params : Json) :
    requestId? (request id method params) = some (.int id) := rfl

@[simp] theorem requestId?_notification (method : String) (params : Json) :
    requestId? (notification method params) = none := rfl

@[simp] theorem requestId?_response (id result : Json) : requestId? (response id result) = none := rfl

/-! ## Quiet turns -/

/-- A turn counts no request and hands over none. -/
structure Quiet (s : Session) (r : Turned) : Prop where
  last : r.session.lastRequest = s.lastRequest
  ids : requestIds r.effects = []

namespace Quiet

variable {s : Session} {t : Nat}

theorem idle (s : Session) : Quiet s ⟨s, []⟩ := ⟨rfl, rfl⟩

/-- A turn that may not send hands over nothing. -/
theorem ofAllowed {r : Turned} (last : r.session.lastRequest = s.lastRequest) (others : List Nat) (job : Job)
    (h : r.Allowed (some .cancelled) others job t) : Quiet s r := by
  refine ⟨last, ?_⟩
  rw [requestIds, sent_eq_nil h]
  rfl

theorem finish (s : Session) (t : Nat) (o : Except Failure Answer) : Quiet s (s.finish t o) :=
  ofAllowed (by simp) [] .listen (allowed_finish s t _ o)

theorem transmit {m : Json} (hm : requestId? m = none) (next : Progress) : Quiet s (s.transmit t m next) := by
  unfold Session.transmit
  split
  · exact finish s t _
  · exact ⟨rfl, by simp [requestIds, requestIdsIn, Effect.sent?, hm]⟩

/-- Effects that hand over no request may come first. -/
theorem after {r : Turned} (h : Quiet s r) {es : List Effect} (hes : requestIds es = []) :
    Quiet s (r.after es) := by
  refine ⟨h.last, ?_⟩
  rw [Turned.effects_after, requestIds_append, hes, h.ids, List.append_nil]

theorem andThen {r : Turned} (h : Quiet s r) {f : Session → Turned} (hf : Quiet r.session (f r.session)) :
    Quiet s (r.andThen f) := by
  refine ⟨hf.last.trans h.last, ?_⟩
  rw [Turned.effects_andThen, requestIds_append, h.ids, hf.ids, List.append_nil]

/-- What was done before, if it counted no request, makes no difference. -/
theorem congr {q : Session} {r : Turned} (h : Quiet q r) (last : q.lastRequest = s.lastRequest) : Quiet s r :=
  ⟨h.last.trans last, h.ids⟩

theorem tell (n : Notification) (rs : List Bus.Subscription) : Quiet s (s.tell t n rs) := by
  obtain ⟨p, hp, -⟩ := session_tell s t n rs
  exact ofAllowed (by rw [hp]; rfl) [] .listen (allowed_tell s t _ n rs)

theorem conclude (purpose : Purpose) (id : Nat) (r : Reply) : Quiet s (s.conclude t purpose id r) := by
  have hdrop {q : Turned} (h : Quiet (s.dropRequest id) q) : Quiet s q := h.congr rfl
  refine hdrop ?_
  unfold Session.conclude
  cases r with
  | error f => exact finish _ t _
  | ok m =>
    cases purpose with
    | handshake =>
      dsimp only
      split
      · exact (finish _ t _).after rfl
      · exact transmit (requestId?_notification _ _) _
    | ask q =>
      refine (finish _ t _).after ?_
      cases errorOf? m <;> rfl

theorem wrapUp (s : Session) (t : Nat) : Quiet s (s.wrapUp t) := by
  have hlast : (s.wrapUp t).session.lastRequest = s.lastRequest := by
    rw [session_wrapUp]
    rfl
  exact ofAllowed hlast _ .listen (allowed_wrapUp s t _)

theorem failPending (s : Session) (reason : String) : Quiet s (s.failPending reason) :=
  ofAllowed (lastRequest_failPending s reason) [] .listen (allowed_failPending s 0 _ reason)

theorem receive (s : Session) (m : Json) : Quiet s (s.receive m) := by
  have hlast : (s.receive m).session.lastRequest = s.lastRequest := by
    cases dealing_receive s m with
    | registered _ _ _ _ _ _ _ inside => exact absurd rfl (inside m)
    | still _ last | resolved _ _ _ _ _ _ _ last | left _ _ _ _ last | written _ _ _ _ _ last
    | failed _ _ _ last => exact last
  exact ofAllowed hlast [] .listen (allowed_receive s 0 (some .cancelled) m)

theorem beginDispose (s : Session) (t : Nat) : Quiet s (s.beginDispose t) := by
  unfold Session.beginDispose
  split
  · exact finish s t _
  · have hfailed : Quiet s ({ s with phase := .disposed }.failPending "session disposed") :=
      (failPending _ _).congr rfl
    exact (hfailed.andThen ⟨rfl, rfl⟩).after rfl

/-- The first turn of every task but of one that asks. -/
theorem begin {job : Job} (hask : ∀ q line character, job ≠ .call (.ask q line character)) :
    Quiet s (s.begin t job) := by
  cases job with
  | call c =>
    cases c with
    | handshake | openDocument => exact ⟨rfl, rfl⟩
    | updateDocument text =>
      show Quiet s (s.beginUpdate t text)
      unfold beginUpdate
      split
      · exact finish s t _
      · exact (transmit (requestId?_notification _ _) _).congr rfl
    | closeDocument =>
      show Quiet s (s.beginClose t)
      unfold beginClose
      split
      · exact finish s t _
      · exact transmit (requestId?_notification _ _) _
    | ask q line character => exact absurd rfl (hask q line character)
    | dispose => exact beginDispose s t
  | listen => exact ⟨rfl, rfl⟩
  | answer id method params =>
    show Quiet s (s.beginAnswer t id method params)
    unfold beginAnswer
    split
    · exact finish s t _
    · split
      · exact finish s t _
      · exact transmit (requestId?_response _ _) _
  | publish n =>
    show Quiet s (s.beginPublish t n)
    unfold beginPublish
    split
    · exact finish s t _
    · exact tell n _

theorem requestWritten (purpose : Purpose) (id : Nat) (reply : Option Reply) :
    Quiet s (s.requestWritten t purpose id reply) := by
  refine after ?_ rfl
  cases reply with
  | some r => exact conclude purpose id r
  | none => exact ⟨rfl, rfl⟩

theorem openWith (s : Session) (t : Nat) (text : String) : Quiet s (s.openWith t text) := by
  unfold Session.openWith
  dsimp only
  split
  · exact finish s t _
  · exact (transmit (requestId?_notification _ _) _).congr rfl

theorem channelClosed (s : Session) (t : Nat) : Quiet s (s.channelClosed t) := by
  unfold Session.channelClosed
  split
  · exact wrapUp s t
  · refine ⟨rfl, ?_⟩
    dsimp only
    split <;> rfl

/-- An operation that succeeded, but for the opening of the channel. -/
theorem continueWith (job : Job) (text : String) {p : Progress} (hopening : p ≠ .openingChannel) :
    Quiet s (s.continueWith t job text p) := by
  cases p with
  | openingChannel => exact absurd rfl hopening
  | requesting purpose id written reply =>
    cases written with
    | true => exact idle s
    | false => exact requestWritten purpose id reply
  | announcing =>
    have hdone : Quiet s (Session.succeed { s with phase := .ready } t) := (finish _ t _).congr rfl
    exact hdone.after rfl
  | reading => exact openWith s t text
  | opening => exact ⟨rfl, rfl⟩
  | updating | answering => exact (finish s t _).after rfl
  | closing =>
    have hdone : Quiet s (Session.succeed { s with document := none } t) := (finish _ t _).congr rfl
    exact hdone.after rfl
  | closingChannel => exact channelClosed s t
  | created | settling | telling | listening | awaitingReader | finished => exact idle s

theorem continueWithout (f : Failure) (p : Progress) : Quiet s (s.continueWithout t f p) := by
  cases p with
  | requesting purpose id written reply =>
    cases written with
    | true => exact idle s
    | false => exact (finish (s.dropRequest id) t _).congr rfl
  | openingChannel | announcing | reading | opening | updating | closing | answering
  | closingChannel => exact finish s t _
  | created | settling | telling | listening | awaitingReader | finished => exact idle s

theorem abandon (p : Progress) : Quiet s (s.abandon t p) := by
  cases p with
  | finished => exact idle s
  | requesting purpose id written reply => exact (finish (s.dropRequest id) t _).congr rfl
  | awaitingReader reader => exact wrapUp s t
  | created | openingChannel | announcing | reading | opening | settling | updating | closing | answering
  | telling | listening | closingChannel => exact finish s t _

theorem streamEnded (reason : String) (error : Option String) : Quiet s (s.streamEnded t reason error) := by
  have hends : Quiet s (s.noteEnd (endReason reason error)) := by
    have hfailed := failPending { s with ended := some (endReason reason error) } (endReason reason error)
    exact (hfailed.congr (s := s) rfl).after rfl
  unfold Session.streamEnded
  dsimp only
  refine after ?_ (by cases error <;> rfl)
  split
  · exact (idle s).andThen (finish s t _)
  · exact hends.andThen (finish _ t _)

end Quiet

/-! ## One turn -/

/-- A turn counts a request and hands over one, under the number that it has. -/
structure Asks (s : Session) (r : Turned) : Prop where
  last : r.session.lastRequest = s.lastRequest + 1
  ids : requestIds r.effects = [.int ((s.lastRequest + 1 : Nat) : Int)]

variable {s : Session} {t : Nat}

/-- Sending a request is that, unless the session is closed. -/
theorem quiet_or_asks_ask (s : Session) (t : Nat) (purpose : Purpose) (method : String) (params : Json) :
    Quiet s (s.ask t purpose method params) ∨ Asks s (s.ask t purpose method params) := by
  unfold ask
  split
  · exact .inl (Quiet.finish s t _)
  · exact .inr ⟨rfl, rfl⟩

theorem quiet_or_asks_resume (s : Session) (t : Nat) (r : Resumption) :
    Quiet s (s.resume t r) ∨ Asks s (s.resume t r) := by
  unfold resume
  split
  · exact .inl (.idle s)
  · next job progress _ =>
    split
    · by_cases hask : ∃ q line character, job = .call (.ask q line character)
      · obtain ⟨q, line, character, rfl⟩ := hask
        exact quiet_or_asks_ask s t _ _ _
      · exact .inl (.begin fun q line character heq => hask ⟨q, line, character, heq⟩)
    · by_cases hopening : progress = .openingChannel
      · -- the handshake asks when the channel is open
        subst hopening
        show Quiet s (s.channelOpened t) ∨ Asks s (s.channelOpened t)
        rcases quiet_or_asks_ask { (s.addTask .listen).1 with reader := some s.tasks.length } t .handshake
            handshakeMethod (handshakeParams s.profile) with h | h
        · exact .inl ((h.congr (s := s) rfl).after rfl)
        · exact .inr ⟨h.last, h.ids⟩
      · exact .inl (.continueWith job _ hopening)
    · exact .inl (.continueWithout _ progress)
    · exact .inl (.conclude _ _ _)
    · exact .inl (.finish s t _)
    · split
      · exact .inl ((Quiet.tell _ _).after rfl)
      · exact .inl (.idle s)
    · exact .inl (.streamEnded _ _)
    · exact .inl (.wrapUp s t)
    · exact .inl (.abandon progress)
    · exact .inl (.idle s)

/-- **A turn hands over no request, or one under the next number.** -/
theorem quiet_or_asks_step (s : Session) (u : Turn) : Quiet s (s.step u) ∨ Asks s (s.step u) := by
  cases u with
  | call c => exact .inl ⟨rfl, rfl⟩
  | resume t r => exact quiet_or_asks_resume s t r
  | receive m => exact .inl (.receive s m)
  | account t f =>
    have hsilent := sent_eq_nil (allowed_step_of_task?_none s (u := .account t f) rfl (some .cancelled) [] .listen 0)
    refine .inl ⟨rfl, ?_⟩
    rw [requestIds, hsilent]
    rfl

/-! ## Histories -/

/-- **A history hands over requests under the numbers that it counts**, in rising order and each once. -/
theorem requestIds_run (s : Session) (h : List Turn) :
    ∃ n, (s.after h).lastRequest = s.lastRequest + n ∧
      requestIds (s.run h).effects = (List.range' (s.lastRequest + 1) n).map fun k => .int (k : Nat) := by
  induction h generalizing s with
  | nil => exact ⟨0, rfl, rfl⟩
  | cons u h ih =>
    obtain ⟨n, hlast, hids⟩ := ih (s.step u).session
    have hrun : requestIds (s.run (u :: h)).effects =
        requestIds (s.step u).effects ++ requestIds ((s.step u).session.run h).effects :=
      requestIds_append _ _
    rw [hrun, after_cons, hlast, hids]
    rcases quiet_or_asks_step s u with hquiet | hasks
    · refine ⟨n, by rw [hquiet.last], ?_⟩
      rw [hquiet.ids, hquiet.last]
      rfl
    · refine ⟨n + 1, by rw [hasks.last]; omega, ?_⟩
      rw [hasks.ids, hasks.last, List.range'_succ]
      rfl

end EditorServices.Session
