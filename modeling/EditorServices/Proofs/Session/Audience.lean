import EditorServices.Proofs.Session.Asking
import Mathlib.Data.List.Nodup

/-!
# `Proofs.Session.Audience` — who is told of a message, and what tells nobody

A message of the server is told to those who are subscribed when its telling begins, in the order in which
they subscribed. One that pauses stops the telling; the others are told when the pause is over. So a telling
falls into runs, each of which reaches up to the next subscriber that pauses (`toldFirst`, `toldLater`), and
`Tells` says what one run comes to.

Every other part of a turn tells nobody and leaves the subscriptions as they are. Those parts are
`Unheard`, one lemma for each, but for the last part of a disposal, which ends all subscriptions.

## Contents
- **Subscribers.** `audience`, `hearers`, and `subscribeAll_spec`.
- **Runs.** `toldFirst` and `toldLater`; `invocations`, and `tells_tell`.
- **Turns that tell nobody.** `Unheard`, and `unheard_resume`.
-/

namespace EditorServices.Session

/-! ## Subscribers -/

/-- The subscribers that subscriptions reach, in their order. -/
def audience (s : Session) (rs : List Bus.Subscription) : List Subscriber :=
  rs.filterMap fun r => s.subscribers[r.callee.listenerId]?

/-- The subscribers who are told of a message whose telling begins now. -/
def hearers (s : Session) : List Subscriber := s.audience (s.bus.recipients Notification.eventType)

/-- A session to which some subscribe in turn. -/
def subscribeAll (s : Session) : List Subscriber → Session
  | [] => s
  | who :: rest => (s.subscribe who).1.subscribeAll rest

/-- All subscriptions are to messages of the server and reach someone, and further ones are possible. -/
structure Subscribable (s : Session) : Prop where
  opened : s.bus.closed = false
  reaching : ∀ r ∈ s.bus.subscriptions, r.key = Notification.eventType ∧
    r.callee.listenerId < s.subscribers.length

section

variable {s : Session} (h : Subscribable s) (who : Subscriber)
include h

theorem subscriptions_subscribe : (s.subscribe who).1.bus.subscriptions =
    s.bus.subscriptions ++ [⟨Notification.eventType, .listener s.subscribers.length⟩] := by
  show (s.bus.add _).1.subscriptions = _
  rw [Bus.add, h.opened]
  rfl

theorem Subscribable.subscribe : Subscribable (s.subscribe who).1 := by
  have hlength : (s.subscribe who).1.subscribers.length = s.subscribers.length + 1 := List.length_append
  refine ⟨?_, fun r hr => ?_⟩
  · show (s.bus.add _).1.closed = false
    rw [Bus.add, if_neg (by rw [h.opened]; decide)]
    exact h.opened
  · rw [subscriptions_subscribe h who] at hr
    rw [hlength]
    rcases List.mem_append.mp hr with hr | hr
    · exact ⟨(h.reaching r hr).1, Nat.lt_succ_of_lt (h.reaching r hr).2⟩
    · rw [List.mem_singleton.mp hr]
      exact ⟨rfl, Nat.lt_succ_self _⟩

omit who in
/-- All subscriptions are told of a message of the server. -/
theorem Subscribable.recipients_eq : s.bus.recipients Notification.eventType = s.bus.subscriptions := by
  have hevent : s.bus.under Notification.eventType = s.bus.subscriptions := by
    refine List.filter_eq_self.mpr fun r hr => ?_
    rw [(h.reaching r hr).1]
    exact beq_self_eq_true _
  have hall : s.bus.under Bus.allEvents = [] := by
    refine List.filter_eq_nil_iff.mpr fun r hr => ?_
    rw [(h.reaching r hr).1]
    decide
  rw [Bus.recipients, hevent, hall, List.append_nil]

/-- Who subscribes is told after all others. -/
theorem hearers_subscribe : (s.subscribe who).1.hearers = s.hearers ++ [who] := by
  have hsubscribers : (s.subscribe who).1.subscribers = s.subscribers ++ [who] := rfl
  unfold hearers
  rw [(h.subscribe who).recipients_eq, h.recipients_eq, subscriptions_subscribe h who]
  unfold audience
  rw [List.filterMap_append, hsubscribers]
  congr 1
  · refine List.filterMap_congr fun r hr => ?_
    exact List.getElem?_append_left (h.reaching r hr).2
  · show (((s.subscribers ++ [who])[s.subscribers.length]?).toList) = [who]
    rw [List.getElem?_concat_length]
    rfl

end

/-- **Subscribers are told in the order in which they subscribed**, and subscribing changes nothing else. -/
theorem subscribeAll_spec {s : Session} (h : Subscribable s) (whos : List Subscriber) :
    (s.subscribeAll whos).hearers = s.hearers ++ whos ∧ Subscribable (s.subscribeAll whos) ∧
      (s.subscribeAll whos).tasks = s.tasks ∧ (s.subscribeAll whos).profile = s.profile := by
  induction whos generalizing s with
  | nil => exact ⟨(List.append_nil _).symm, h, rfl, rfl⟩
  | cons who rest ih =>
    obtain ⟨hhearers, hsubscribable, htasks, hprofile⟩ := ih (h.subscribe who)
    refine ⟨?_, hsubscribable, htasks, hprofile⟩
    show ((s.subscribe who).1.subscribeAll rest).hearers = _
    rw [hhearers, hearers_subscribe h who, List.append_assoc]
    rfl

/-! ## Runs -/

/-- Those of some subscribers who are told in one run: up to the first that pauses. -/
def toldFirst : List Subscriber → List Subscriber
  | [] => []
  | who :: rest => who :: if who.behaviour = .pauses then [] else toldFirst rest

/-- Those who are told when that pause is over. -/
def toldLater : List Subscriber → List Subscriber
  | [] => []
  | who :: rest => if who.behaviour = .pauses then rest else toldLater rest

theorem toldFirst_append_toldLater (whos : List Subscriber) : toldFirst whos ++ toldLater whos = whos := by
  induction whos with
  | nil => rfl
  | cons who rest ih =>
    unfold toldFirst toldLater
    split
    · rfl
    · rw [List.cons_append, ih]

/-- Who comes after a subscriber that pauses is told later. -/
theorem suffix_toldLater {who : Subscriber} (hwho : who.behaviour = .pauses) {rest whos : List Subscriber}
    (h : who :: rest <:+ whos) : rest <:+ toldLater whos := by
  induction whos with
  | nil => cases List.suffix_nil.mp h
  | cons first others ih =>
    unfold toldLater
    rcases List.suffix_cons_iff.mp h with heq | hsuffix
    · cases heq
      exact ⟨[], (if_pos hwho).symm⟩
    · split
      · exact (List.suffix_cons who rest).trans hsuffix
      · exact ih hsuffix

/-- The message of which an effect tells a subscriber for the first time; a pause ends with another
telling. -/
def Effect.invoked? (who : Subscriber) : Effect → Option Notification
  | .told name beginning n =>
    if name = who.name ∧ beginning = decide (who.behaviour = .pauses) then some n else none
  | _ => none

/-- The messages of which effects tell a subscriber, in their order. -/
def invocations (who : Subscriber) (es : List Effect) : List Notification :=
  es.filterMap (Effect.invoked? who)

theorem invocations_append (who : Subscriber) (es fs : List Effect) :
    invocations who (es ++ fs) = invocations who es ++ invocations who fs := List.filterMap_append

/-- An effect tells someone of a message. -/
def Effect.isTold : Effect → Bool
  | .told _ _ _ => true
  | _ => false

theorem invocations_of_silent {es : List Effect} (h : ∀ e ∈ es, e.isTold = false) (who : Subscriber) :
    invocations who es = [] := by
  refine List.filterMap_eq_nil_iff.mpr fun e he => ?_
  cases e with
  | told name beginning n => cases h _ he
  | _ => rfl

/-- The end of a task tells nobody. -/
theorem silent_finish (s : Session) (t : Nat) (o : Except Failure Answer) :
    ∀ e ∈ (s.finish t o).effects, e.isTold = false := by
  unfold finish
  cases (s.tasks[t]?).map Task.job with
  | none => simp
  | some job =>
    cases job with
    | call | answer | publish => simp [Effect.isTold]
    | listen => simp [Effect.isTold]

/-- What one run of a telling comes to. -/
structure Tells (s : Session) (t : Nat) (n : Notification) (whos : List Subscriber) (r : Turned) : Prop where
  /-- The telling is over, or goes on after the last one who was told. -/
  moved : ∃ p, r.session = s.moveTask t p ∧
    ((p = .finished ∧ toldLater whos = []) ∨
      ∃ who rest, p = .telling who rest ∧ who.behaviour = .pauses ∧ s.audience rest = toldLater whos ∧
        who :: s.audience rest <:+ whos ∧ .pause t ∈ r.effects)
  /-- Each of those who are told is told of the message. -/
  told : ∀ who, invocations who r.effects = (toldFirst whos).filterMap fun x =>
    Effect.invoked? who (.told x.name (decide (x.behaviour = .pauses)) n)

variable {s : Session} {t : Nat} {n : Notification}

/-- Someone who does not pause is told, and the run goes on. -/
theorem Tells.cons {whos : List Subscriber} {r : Turned} (h : Tells s t n whos r) {who : Subscriber}
    (hwho : who.behaviour ≠ .pauses) {es : List Effect}
    (hes : ∀ x, invocations x es = (Effect.invoked? x (.told who.name false n)).toList) :
    Tells s t n (who :: whos) (r.after es) := by
  have hlater : toldLater (who :: whos) = toldLater whos := if_neg hwho
  have hfirst : toldFirst (who :: whos) = who :: toldFirst whos := by
    rw [toldFirst, if_neg hwho]
  constructor
  · rw [hlater]
    obtain ⟨p, hp, hover | ⟨current, rest, rfl, hpauses, haudience, hsuffix, hpause⟩⟩ := h.moved
    · exact ⟨p, hp, .inl hover⟩
    · exact ⟨_, hp, .inr ⟨current, rest, rfl, hpauses, haudience,
        hsuffix.trans (List.suffix_cons who whos), List.mem_append_right es hpause⟩⟩
  · intro x
    rw [Turned.effects_after, invocations_append, h.told x, hfirst, hes x, List.filterMap_cons,
      decide_eq_false hwho]
    cases Effect.invoked? x (.told who.name false n) <;> rfl

/-- **One run of a telling** reaches up to the first subscriber that pauses. -/
theorem tells_tell (s : Session) (t : Nat) (n : Notification) (rs : List Bus.Subscription) :
    Tells s t n (s.audience rs) (s.tell t n rs) := by
  induction rs with
  | nil =>
    refine ⟨⟨.finished, session_succeed s t, .inl ⟨rfl, rfl⟩⟩, fun who => ?_⟩
    exact invocations_of_silent (silent_finish s t _) who
  | cons r rest ih =>
    unfold tell
    cases hwho : s.subscribers[r.callee.listenerId]? with
    | none =>
      -- nobody is reached by the subscription, and the run passes over it
      have haudience : s.audience (r :: rest) = s.audience rest := List.filterMap_cons_none hwho
      rw [haudience]
      exact ih
    | some who =>
      have haudience : s.audience (r :: rest) = who :: s.audience rest := List.filterMap_cons_some hwho
      rw [haudience]
      dsimp only
      split
      · next hnotes =>
        refine ih.cons (by rw [hnotes]; decide) fun x => ?_
        rw [invocations, List.filterMap_cons]
        cases Effect.invoked? x (.told who.name false n) <;> rfl
      · next hfails =>
        refine ih.cons (by rw [hfails]; decide) fun x => ?_
        rw [invocations, List.filterMap_cons]
        cases Effect.invoked? x (.told who.name false n) <;> rfl
      · next hpauses =>
        have hlater : toldLater (who :: s.audience rest) = s.audience rest := if_pos hpauses
        refine ⟨⟨.telling who rest, rfl, .inr ⟨who, rest, rfl, hpauses, hlater.symm, List.suffix_rfl, ?_⟩⟩,
          fun x => ?_⟩
        · simp
        · rw [toldFirst, if_pos hpauses, List.filterMap_cons, decide_eq_true hpauses, invocations,
            List.filterMap_cons]
          cases Effect.invoked? x (.told who.name true n) <;> rfl

/-- Among subscribers who are told apart by their names, one is told in a run if it is one of the run. -/
theorem filterMap_invoked? {whos : List Subscriber} (distinct : (whos.map Subscriber.name).Nodup)
    {who : Subscriber} (hmem : who ∈ whos) {part : List Subscriber} (hpart : part.Sublist whos) :
    (part.filterMap fun x => Effect.invoked? who (.told x.name (decide (x.behaviour = .pauses)) n)) =
      if who ∈ part then [n] else [] := by
  have hself : Effect.invoked? who (.told who.name (decide (who.behaviour = .pauses)) n) = some n :=
    if_pos ⟨rfl, rfl⟩
  have hother {x : Subscriber} (hx : x ∈ whos) (hne : x ≠ who) :
      Effect.invoked? who (.told x.name (decide (x.behaviour = .pauses)) n) = none := by
    refine if_neg fun heq => hne ?_
    exact List.inj_on_of_nodup_map distinct hx hmem heq.1
  have hnodup : part.Nodup := (List.Nodup.of_map _ distinct).sublist hpart
  induction part with
  | nil => rfl
  | cons x rest ih =>
    have hrest := ih ((List.sublist_cons_self x rest).trans hpart) (List.nodup_cons.mp hnodup).2
    have hx : x ∈ whos := hpart.subset List.mem_cons_self
    by_cases hxw : x = who
    · subst hxw
      rw [if_neg (List.nodup_cons.mp hnodup).1] at hrest
      rw [List.filterMap_cons, hself, hrest, if_pos List.mem_cons_self]
    · rw [List.filterMap_cons, hother hx hxw, hrest]
      have hiff : who ∈ x :: rest ↔ who ∈ rest := by
        rw [List.mem_cons]
        exact or_iff_right fun heq => hxw heq.symm
      simp only [hiff]

/-! ## Turns that tell nobody -/

/-- A part of a turn tells nobody, and leaves the subscriptions as they are. -/
structure Unheard (s : Session) (r : Turned) : Prop where
  bus : r.session.bus = s.bus
  subscribers : r.session.subscribers = s.subscribers
  silent : ∀ e ∈ r.effects, e.isTold = false

namespace Unheard

theorem idle (s : Session) : Unheard s ⟨s, []⟩ := ⟨rfl, rfl, by simp⟩

/-- Effects that tell nobody may come first. -/
theorem after {r : Turned} (h : Unheard s r) {es : List Effect} (hes : ∀ e ∈ es, e.isTold = false) :
    Unheard s (r.after es) := by
  refine ⟨h.bus, h.subscribers, fun e he => ?_⟩
  rcases List.mem_append.mp he with he | he
  · exact hes e he
  · exact h.silent e he

theorem andThen {r : Turned} (h : Unheard s r) {f : Session → Turned} (hf : Unheard r.session (f r.session)) :
    Unheard s (r.andThen f) :=
  after ⟨hf.bus.trans h.bus, hf.subscribers.trans h.subscribers, hf.silent⟩ h.silent

/-- What was done before, if it left the subscriptions alone, makes no difference. -/
theorem congr {q : Session} {r : Turned} (h : Unheard q r) (bus : q.bus = s.bus)
    (subscribers : q.subscribers = s.subscribers) : Unheard s r :=
  ⟨h.bus.trans bus, h.subscribers.trans subscribers, h.silent⟩

theorem finish (s : Session) (t : Nat) (o : Except Failure Answer) : Unheard s (s.finish t o) := by
  refine ⟨?_, ?_, silent_finish s t o⟩
  · rw [session_finish, bus_moveTask]
  · rw [session_finish, subscribers_moveTask]

theorem transmit (s : Session) (t : Nat) (m : Json) (next : Progress) : Unheard s (s.transmit t m next) := by
  unfold Session.transmit
  split
  · exact finish s t _
  · exact ⟨rfl, rfl, by simp [Effect.isTold]⟩

theorem ask (s : Session) (t : Nat) (purpose : Purpose) (method : String) (params : Json) :
    Unheard s (s.ask t purpose method params) := by
  unfold Session.ask
  split
  · exact finish s t _
  · exact ⟨rfl, rfl, by simp [Effect.isTold]⟩

theorem reply (s : Session) (t : Nat) (r : Reply) : Unheard s (s.reply t r) := by
  unfold Session.reply
  split
  · refine ⟨rfl, rfl, ?_⟩
    dsimp only
    split <;> simp [Effect.isTold]
  · exact idle s

theorem failPending (s : Session) (reason : String) : Unheard s (s.failPending reason) := by
  have hall (r : Reply) (ts : List Nat) : ∀ x : Session, Unheard x (replyAll r ts x) := by
    induction ts with
    | nil => exact idle
    | cons v ts ih => exact fun x => (reply x v r).andThen (ih _)
  exact (hall _ _ { s with pending := [] }).congr rfl rfl

theorem begin {job : Job} (hpublish : ∀ n, job ≠ .publish n) : Unheard s (s.begin t job) := by
  cases job with
  | listen => exact ⟨rfl, rfl, by simp [Session.begin, Effect.isTold]⟩
  | publish n => exact absurd rfl (hpublish n)
  | answer id method params =>
    show Unheard s (s.beginAnswer t id method params)
    unfold beginAnswer
    split
    · exact finish s t _
    · split
      · exact finish s t _
      · exact transmit s t _ _
  | call c =>
    cases c with
    | handshake | openDocument => exact ⟨rfl, rfl, by simp [Session.begin, beginCall, Effect.isTold]⟩
    | updateDocument text =>
      show Unheard s (s.beginUpdate t text)
      unfold beginUpdate
      split
      · exact finish s t _
      · exact (transmit { s with document := _ } t _ _).congr rfl rfl
    | closeDocument =>
      show Unheard s (s.beginClose t)
      unfold beginClose
      split
      · exact finish s t _
      · exact transmit s t _ _
    | ask q line character => exact ask s t _ _ _
    | dispose =>
      show Unheard s (s.beginDispose t)
      unfold beginDispose
      split
      · exact finish s t _
      · refine after ?_ (by simp [aboutDocument, logged, Effect.isTold])
        have hfailed : Unheard s ({ s with phase := .disposed }.failPending "session disposed") :=
          (failPending { s with phase := .disposed } _).congr rfl rfl
        exact hfailed.andThen ⟨rfl, rfl, by simp [Effect.isTold]⟩

theorem conclude (s : Session) (t : Nat) (purpose : Purpose) (id : Nat) (r : Reply) :
    Unheard s (s.conclude t purpose id r) := by
  refine congr (q := s.dropRequest id) ?_ rfl rfl
  unfold Session.conclude
  dsimp only
  split
  · exact finish _ t _
  · split
    · exact (finish _ t _).after (by simp [logged, Effect.isTold])
    · exact transmit _ t _ _
  · refine (finish _ t _).after ?_
    split <;> simp [logged, Effect.isTold]

theorem channelOpened (s : Session) (t : Nat) : Unheard s (s.channelOpened t) := by
  have hasked := ask { (s.addTask .listen).1 with reader := some s.tasks.length } t .handshake handshakeMethod
    (handshakeParams s.profile)
  exact (hasked.congr (s := s) rfl rfl).after (by simp [Effect.isTold])

/-- An operation that succeeded, but for the closing of the channel. -/
theorem continueWith (s : Session) (t : Nat) (job : Job) (text : String) {p : Progress}
    (hp : p.endsOthers = false) : Unheard s (s.continueWith t job text p) := by
  cases p with
  | openingChannel => exact channelOpened s t
  | requesting purpose id written reply =>
    cases written with
    | true => exact idle s
    | false =>
      show Unheard s (s.requestWritten t purpose id reply)
      refine after ?_ (by simp [Session.written, logged, Effect.isTold])
      cases reply with
      | some r => exact conclude s t purpose id r
      | none => exact ⟨rfl, rfl, by simp⟩
  | announcing =>
    have hdone : Unheard s (Session.succeed { s with phase := .ready } t) := (finish _ t _).congr rfl rfl
    exact hdone.after (by simp [Session.written, aboutDocument, logged, Effect.isTold])
  | reading =>
    show Unheard s (s.openWith t text)
    unfold openWith
    dsimp only
    split
    · exact finish s t _
    · exact (transmit { s with document := _ } t _ _).congr rfl rfl
  | opening => exact ⟨rfl, rfl, by simp [Session.continueWith, Session.written, logged, Effect.isTold]⟩
  | updating | answering => exact (finish s t _).after (by simp [Session.written, logged, Effect.isTold])
  | closing =>
    have hdone : Unheard s (Session.succeed { s with document := none } t) := (finish _ t _).congr rfl rfl
    exact hdone.after (by simp [Session.written, logged, Effect.isTold])
  | closingChannel => cases hp
  | created | settling | telling | listening | awaitingReader | finished => exact idle s

theorem continueWithout (s : Session) (t : Nat) (f : Failure) (p : Progress) :
    Unheard s (s.continueWithout t f p) := by
  cases p with
  | requesting purpose id written reply =>
    cases written with
    | true => exact idle s
    | false => exact (finish (s.dropRequest id) t _).congr rfl rfl
  | openingChannel | announcing | reading | opening | updating | closing | answering
  | closingChannel => exact finish s t _
  | created | settling | telling | listening | awaitingReader | finished => exact idle s

theorem abandon (s : Session) (t : Nat) {p : Progress} (hp : p.endsOthers = false) :
    Unheard s (s.abandon t p) := by
  cases p with
  | finished => exact idle s
  | requesting purpose id written reply => exact (finish (s.dropRequest id) t _).congr rfl rfl
  | awaitingReader reader => cases hp
  | created | openingChannel | announcing | reading | opening | settling | updating | closing | answering
  | telling | listening | closingChannel => exact finish s t _

theorem streamEnded (s : Session) (t : Nat) (reason : String) (error : Option String) :
    Unheard s (s.streamEnded t reason error) := by
  unfold Session.streamEnded
  dsimp only
  refine after ?_ (by cases error <;> simp [logged, Effect.isTold])
  split
  · exact (idle s).andThen (finish s t _)
  · have hfailed := failPending { s with ended := some (endReason reason error) } (endReason reason error)
    exact ((hfailed.congr (s := s) rfl rfl).after (by simp [logged, Effect.isTold])).andThen (finish _ t _)

/-- **A turn of a task that tells no subscribers**, and does not end the session. -/
theorem resume {job : Job} {p : Progress} (hk : s.tasks[t]? = some ⟨job, p⟩) (hpublish : ∀ n, job ≠ .publish n)
    (hp : p.endsOthers = false) (r : Resumption) : Unheard s (s.resume t r) := by
  unfold Session.resume
  rw [hk]
  dsimp only
  split
  · exact begin hpublish
  · exact continueWith s t job _ hp
  · exact continueWithout s t _ p
  · exact conclude s t _ _ _
  · exact finish s t _
  · split
    · next n => exact absurd rfl (hpublish n)
    · exact idle s
  · exact streamEnded s t _ _
  · cases hp
  · exact abandon s t hp
  · exact idle s

/-- What a report says is told to nobody. -/
theorem noticeDiagnostics {method params : Json} {r : Turned} (h : s.noticeDiagnostics method params = some r) :
    Unheard s r := by
  have hsame {r : Turned} (h : some (⟨s, []⟩ : Turned) = some r) : Unheard s r := by
    cases h
    exact idle s
  unfold Session.noticeDiagnostics at h
  split at h
  · split at h
    · unfold receiveDiagnostics at h
      split at h
      · split at h
        · cases h
        · next entries _ =>
          cases h
          refine ⟨rfl, rfl, fun e he => ?_⟩
          rcases List.mem_append.mp he with he | he
          · obtain ⟨x, -, hx⟩ := List.mem_filterMap.mp he
            split at hx
            · cases hx
            · cases hx
              rfl
          · rw [List.mem_singleton.mp he]
            rfl
      · exact hsame h
    · exact hsame h
  · exact hsame h

theorem spawn (s : Session) (job : Job) : Unheard s (s.spawn job) :=
  ⟨rfl, rfl, by simp [Session.spawn, Effect.isTold]⟩

/-- Receiving a message tells nobody yet. -/
theorem receive (s : Session) (m : Json) : Unheard s (s.receive m) := by
  have hrefused (x : Session) : Unheard x ⟨x, [.refused]⟩ := ⟨rfl, rfl, by simp [Effect.isTold]⟩
  unfold Session.receive
  split
  · split
    · next ms _ method _ =>
      unfold receiveMethod
      dsimp only
      split
      · exact hrefused s
      · next noticed hnoticed =>
        refine andThen (andThen (noticeDiagnostics hnoticed) ?_) ?_
        · unfold answerRequest
          split
          · exact spawn _ _
          · exact idle _
        · unfold tellOf
          split
          · exact spawn _ _
          · exact hrefused _
    · unfold receiveResponse
      dsimp only
      split
      · split
        · exact (reply (s.dropRequest _) _ _).congr rfl rfl
        · exact ⟨rfl, rfl, by simp [logged, Effect.isTold]⟩
      · exact hrefused s
  · exact hrefused s

theorem account (s : Session) (t : Nat) (f : Option Failure) : Unheard s (s.account t f) := by
  refine ⟨rfl, rfl, ?_⟩
  unfold Session.account
  dsimp only
  split <;> simp [logged, Effect.isTold]

end Unheard

end EditorServices.Session
