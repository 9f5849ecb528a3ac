import EditorServices.Proofs.Session.Waiting

/-!
# `Proofs.Session.Dealing` — what one turn does to requests

Whatever happens in a turn, it does one of six things to the table of pending requests and to the tasks
that wait: nothing, a new request, a reply from the server, the end of a wait, a request that was
written, or the failure of all that is pending. `Dealing` lists them with their conditions, and
`dealing_step` says that the list is complete. Every fact about requests is read off this list.

The first such fact is `Consistent`: the table holds exactly the requests whose tasks have no reply yet,
under rising ids, and no two tasks wait under one id.

## Contents
- **Responses.** `Answers`, by which a message is the response to a request.
- **One turn.** `Dealing` and `dealing_step`.
- **Consistency.** `Consistent`, kept by every turn.
-/

namespace EditorServices.Session

/-! ## Responses -/

/-- A message is a response to a request: it has no method, and its id is one key with that of the
request, so that `1`, `1.0` and `true` all answer request 1. -/
def Answers (m : Json) (id : Nat) : Prop :=
  ∃ ms, m = .obj ms ∧ Named.get? ms "method" = none ∧
    (Json.field (.obj ms) "id").sameKey (.int id) = true

/-- What equals a request's id as a key is exactly what has its value as a whole number. -/
theorem sameKey_int_iff (j : Json) (n : Int) :
    j.sameKey (.int n) = true ↔ j.wholeNumber? = some n := by
  cases j with
  | bool b => cases b <;> simp [Json.sameKey, Json.numeral?, Json.wholeNumber?, Numeral.same,
      Numeral.plain]
  | int k => simp [Json.sameKey, Json.numeral?, Json.wholeNumber?, Numeral.same, Numeral.plain]
  | float x =>
    show decide ((Numeral.binary x).plain = .whole n) = true ↔ x.toInt? = some n
    rw [decide_eq_true_iff, Numeral.plain]
    cases x.toInt? <;> simp
  | _ => simp [Json.sameKey, Json.numeral?, Json.wholeNumber?]

theorem pendingFor?_eq_some {s : Session} {j : Json} {p : Nat × Nat} (h : s.pendingFor? j = some p) :
    p ∈ s.pending ∧ j.sameKey (.int p.1) = true := by
  unfold pendingFor? at h
  cases hj : j.wholeNumber? with
  | none => rw [hj] at h; cases h
  | some n =>
    rw [hj] at h
    refine ⟨List.mem_of_find?_eq_some h, (sameKey_int_iff _ _).mpr ?_⟩
    rw [hj]
    have hn : (p.1 : Int) = n := by simpa using List.find?_some h
    rw [hn]

theorem pendingFor?_eq_none {s : Session} {j : Json} (h : s.pendingFor? j = none) {p : Nat × Nat}
    (hp : p ∈ s.pending) : j.sameKey (.int p.1) ≠ true := by
  intro hk
  rw [sameKey_int_iff] at hk
  rw [pendingFor?, hk] at h
  exact absurd (List.find?_eq_none.mp h p hp) (by simp)

/-! ## One turn -/

/-- What a turn did to the requests of a session, and by which effects tasks learn of replies. In every
case the waits that are not named are the same as before. -/
inductive Dealing (s : Session) (u : Turn) (s' : Session) (es : List Effect) : Prop where
  /-- Nothing; a message that was received answers none of the pending requests. -/
  | still (pending : s'.pending = s.pending) (last : s'.lastRequest = s.lastRequest)
      (waits : ∀ v, s'.waitOf v = s.waitOf v)
      (unanswered : ∀ m, u = .receive m → ∀ p ∈ s.pending, ¬ Answers m p.1)
  /-- A task sends a request under the next id, which only an open session does. -/
  | registered (t : Nat) (purpose : Purpose) (isOpen : s.whyClosed? = none) (free : s.waitOf t = none)
      (pending : s'.pending = s.pending ++ [(s.lastRequest + 1, t)])
      (last : s'.lastRequest = s.lastRequest + 1)
      (waits : ∀ v, s'.waitOf v
        = if v = t then some ⟨purpose, s.lastRequest + 1, false, none⟩ else s.waitOf v)
      (inside : ∀ m, u ≠ .receive m)
  /-- The server's response reaches a pending request. -/
  | resolved (m : Json) (id t : Nat) (message : u = .receive m) (listed : (id, t) ∈ s.pending)
      (answers : Answers m id) (pending : s'.pending = s.pending.filter (·.1 != id))
      (last : s'.lastRequest = s.lastRequest)
      (waits : ∀ v, s'.waitOf v
        = if v = t then (s.waitOf t).map (Wait.answered (.ok m)) else s.waitOf v)
      (wakes : ∀ w, s.waitOf t = some w → w.written = true → w.reply = none → .wake t ∈ es)
  /-- A task waits no longer: it had its reply, failed or gave up. -/
  | left (t : Nat) (w : Wait) (wait : s.waitOf t = some w)
      (pending : s'.pending = s.pending.filter (·.1 != w.id)) (last : s'.lastRequest = s.lastRequest)
      (waits : ∀ v, s'.waitOf v = if v = t then none else s.waitOf v)
      (inside : ∀ m, u ≠ .receive m)
  /-- A request was written and has no reply yet. -/
  | written (t : Nat) (w : Wait) (wait : s.waitOf t = some w) (waiting : w.reply = none)
      (pending : s'.pending = s.pending) (last : s'.lastRequest = s.lastRequest)
      (waits : ∀ v, s'.waitOf v = if v = t then some { w with written := true } else s.waitOf v)
      (inside : ∀ m, u ≠ .receive m)
  /-- Everything that is pending fails, and the session is closed. -/
  | failed (reason : String) (closed : s'.whyClosed?.isSome = true) (pending : s'.pending = [])
      (last : s'.lastRequest = s.lastRequest)
      (waits : ∀ v, s'.waitOf v = if v ∈ s.pending.map (·.2)
        then (s.waitOf v).map (Wait.answered (.error (closedFailure reason))) else s.waitOf v)
      (inside : ∀ m, u ≠ .receive m)
      (wakes : ∀ v ∈ s.pending.map (·.2), ∀ w, s.waitOf v = some w → w.written = true →
        w.reply = none → .wake v ∈ es)

namespace Dealing

variable {s s' : Session} {u : Turn} {es : List Effect}

/-- A turn that neither receives a message nor touches requests. -/
theorem ofSame (pending : s'.pending = s.pending) (last : s'.lastRequest = s.lastRequest)
    (waits : ∀ v, s'.waitOf v = s.waitOf v) (inside : ∀ m, u ≠ .receive m) : Dealing s u s' es :=
  .still pending last waits fun m hm => absurd hm (inside m)

/-- A task without a wait goes on to something else than a request. -/
theorem ofMove {t : Nat} {p : Progress} (ht : s.waitOf t = none) (hp : p.wait? = none)
    (inside : ∀ m, u ≠ .receive m) : Dealing s u (s.moveTask t p) es :=
  ofSame rfl rfl (waitOf_moveTask_of_none hp ht) inside

/-- What is done to other fields first makes no difference. -/
theorem congr {r : Session} (pending : r.pending = s.pending) (last : r.lastRequest = s.lastRequest)
    (waits : ∀ v, r.waitOf v = s.waitOf v) (closed : r.whyClosed? = s.whyClosed?)
    (h : Dealing r u s' es) : Dealing s u s' es := by
  cases h with
  | still hp hl hw hu =>
    exact .still (hp.trans pending) (hl.trans last) (fun v => (hw v).trans (waits v))
      (fun m hm p hmem => hu m hm p (pending ▸ hmem))
  | registered t purpose ho hf hp hl hw hi =>
    refine .registered t purpose (closed ▸ ho) (waits t ▸ hf) ?_ ?_ ?_ hi
    · rw [hp, pending, last]
    · rw [hl, last]
    · intro v; rw [hw v, last, waits v]
  | resolved m id t hm hmem ha hp hl hw hk =>
    refine .resolved m id t hm (pending ▸ hmem) ha (by rw [hp, pending]) (hl.trans last) (fun v => ?_)
      fun w hwait => hk w ((waits t).trans hwait)
    rw [hw v, waits t, waits v]
  | left t w hwait hp hl hw hi =>
    refine .left t w ((waits t).symm.trans hwait) (by rw [hp, pending]) (hl.trans last) (fun v => ?_) hi
    rw [hw v, waits v]
  | written t w hwait hr hp hl hw hi =>
    refine .written t w ((waits t).symm.trans hwait) hr (hp.trans pending) (hl.trans last)
      (fun v => ?_) hi
    rw [hw v, waits v]
  | failed reason hc hp hl hw hi hk =>
    refine .failed reason hc hp (hl.trans last) (fun v => ?_) hi fun v hv w hwait =>
      hk v (pending ▸ hv) w ((waits v).trans hwait)
    rw [hw v, waits v, pending]

/-- A task sends a request, or ends because it is refused. -/
theorem ofAsk {t : Nat} (ht : s.waitOf t = none) (here : s.progressOf t ≠ none) (purpose : Purpose)
    (method : String) (params : Json) (inside : ∀ m, u ≠ .receive m) :
    Dealing s u (s.ask t purpose method params).session es := by
  rw [session_ask]
  cases hc : s.refusal? with
  | some f => exact ofMove ht rfl inside
  | none =>
    refine .registered t purpose (refusal?_eq_none.mp hc).1 ht rfl rfl (fun v => ?_) inside
    rw [if_neg (by simp), waitOf_moveTask]
    obtain ⟨p, hp⟩ := Option.ne_none_iff_exists'.mp here
    show (if v = t then (s.progressOf t).bind _ else s.waitOf v) = _
    rw [hp]
    rfl

/-- A task with a wait takes its request from the table and goes on to something else. -/
theorem ofLeave {t : Nat} {w : Wait} {p : Progress} (ht : s.waitOf t = some w) (hp : p.wait? = none)
    (inside : ∀ m, u ≠ .receive m) : Dealing s u ((s.dropRequest w.id).moveTask t p) es :=
  .left t w ht rfl rfl (waitOf_moveTask_leave hp) inside

/-- A session that was just closed fails what is pending, and the task that saw to it, which had no
wait, goes on. -/
theorem ofFail {r : Session} (pending : r.pending = s.pending) (last : r.lastRequest = s.lastRequest)
    (waits : ∀ v, r.waitOf v = s.waitOf v) (closed : r.whyClosed?.isSome = true) {t : Nat}
    {p : Progress} (reason : String) (ht : s.waitOf t = none) (hp : p.wait? = none)
    (hs : ∀ v, s'.waitOf v = ((r.failPending reason).session.moveTask t p).waitOf v)
    (hpending : s'.pending = []) (hlast : s'.lastRequest = r.lastRequest)
    (hphase : s'.phase = r.phase) (hended : s'.ended = r.ended) (inside : ∀ m, u ≠ .receive m)
    (wakes : ∀ e ∈ (r.failPending reason).effects, e ∈ es) :
    Dealing s u s' es := by
  refine .failed reason ?_ hpending (hlast.trans last) (fun v => ?_) inside fun v hv w hw hwr hr => ?_
  · simpa [whyClosed?, hphase, hended] using closed
  · have htf : (r.failPending reason).session.waitOf t = none := by
      rw [waitOf_failPending, waits, ht]; simp
    rw [hs v, waitOf_moveTask_of_none hp htf, waitOf_failPending, pending, waits]
  · exact wakes _ (wake_mem_failPending (pending ▸ hv) ((waits v).trans hw) hwr hr)

end Dealing

/-- A session with further tasks has the same requests. -/
theorem waitOf_grown {s r : Session} (h : Grown s r) (t : Nat) : r.waitOf t = s.waitOf t := by
  cases ht : s.progressOf t with
  | some p => rw [waitOf_of_progressOf ht, waitOf_of_progressOf (h.progressOf ht)]
  | none =>
    unfold waitOf
    rcases h.progressOf_of_none ht with hr | hr
    · rw [ht, hr]
    · rw [ht, hr]
      rfl

/-- Receiving a message resolves the request that it answers, or touches no request. -/
theorem dealing_receive (s : Session) (m : Json) :
    Dealing s (.receive m) (s.receive m).session (s.receive m).effects := by
  unfold receive
  split
  · next ms =>
    split
    · next method hm =>
      -- a message with a method answers nothing
      have hg := grown_receiveMethod s ms method
      refine .still hg.pending hg.lastRequest (waitOf_grown hg) ?_
      rintro m ⟨⟩ p _ ⟨ms', ⟨⟩, hnone, -⟩
      rw [hm] at hnone
      cases hnone
    · next hm =>
      unfold receiveResponse
      dsimp only
      split
      · split
        · next id t hfound =>
          obtain ⟨hmem, hkey⟩ := pendingFor?_eq_some hfound
          refine .resolved _ id t rfl hmem ⟨ms, rfl, hm, hkey⟩ ?_ ?_ (waitOf_reply _ _ _)
            fun w hw hwr hr => ?_
          · rw [pending_reply]; rfl
          · rw [lastRequest_reply]; rfl
          · exact wake_mem_reply (s := s.dropRequest id) hw hwr hr _
        · next hnone =>
          refine .still rfl rfl (fun _ => rfl) ?_
          rintro m ⟨⟩ p hp ⟨ms', ⟨⟩, -, hkey⟩
          exact pendingFor?_eq_none hnone hp hkey
      · -- an id that cannot be a key is nobody's
        next hid =>
        refine .still rfl rfl (fun _ => rfl) ?_
        rintro m ⟨⟩ p hp ⟨ms', ⟨⟩, -, hkey⟩
        rw [sameKey_int_iff] at hkey
        cases hj : Json.field (.obj ms) "id" <;> rw [hj] at hkey hid <;>
          simp [isRequestId, Json.wholeNumber?] at hid hkey
  · next hobj =>
    refine .still rfl rfl (fun _ => rfl) ?_
    rintro m ⟨⟩ p _ ⟨ms, rfl, -⟩
    exact hobj ms rfl

/-! ### The first turn of a task -/

section
variable {s : Session} {t : Nat} {u : Turn} {es : List Effect}

/-- A task whose progress is known to be no request has no wait. -/
theorem waitOf_eq_none {p : Progress} (h : s.progressOf t = some p) (hp : p.wait? = none) :
    s.waitOf t = none := (waitOf_of_progressOf h).trans hp

theorem dealing_beginDispose (ht : s.waitOf t = none) (inside : ∀ m, u ≠ .receive m) :
    Dealing s u (s.beginDispose t).session (s.beginDispose t).effects := by
  unfold beginDispose
  split
  · rw [session_succeed]; exact .ofMove ht rfl inside
  · exact .ofFail (r := { s with phase := .disposed }) rfl rfl (fun _ => rfl)
      (by rw [whyClosed?_of_disposed rfl]; rfl) "session disposed" (t := t) (p := .closingChannel) ht rfl
      (fun _ => rfl) (by simp) (by simp) (by simp) (by simp) inside
      (fun e he => List.mem_append_right _ (List.mem_append_left _ he))

theorem dealing_beginCall (ht : s.progressOf t = some .created) (c : Call)
    (inside : ∀ m, u ≠ .receive m) : Dealing s u (s.beginCall t c).session (s.beginCall t c).effects := by
  have hw := waitOf_eq_none ht rfl
  cases c with
  | handshake => exact .ofSame rfl rfl (waitOf_moveTask_of_none (s := { s with phase := _ }) rfl hw) inside
  | openDocument => exact .ofMove hw rfl inside
  | updateDocument text =>
    show Dealing s u (s.beginUpdate t text).session _
    unfold beginUpdate
    split
    · rw [session_succeed]; exact .ofMove hw rfl inside
    · next d _ =>
      dsimp only
      rw [session_transmit]
      exact .ofSame rfl rfl
        (waitOf_moveTask_of_none (s := { s with document := _ }) (wait?_sending rfl) hw) inside
  | closeDocument =>
    show Dealing s u (s.beginClose t).session _
    unfold beginClose
    split
    · rw [session_succeed]; exact .ofMove hw rfl inside
    · rw [session_transmit]; exact .ofMove hw (wait?_sending rfl) inside
  | ask q line character => exact .ofAsk hw (by rw [ht]; simp) _ _ _ inside
  | dispose => exact dealing_beginDispose hw inside

theorem dealing_begin (ht : s.progressOf t = some .created) (job : Job)
    (inside : ∀ m, u ≠ .receive m) : Dealing s u (s.begin t job).session (s.begin t job).effects := by
  have hw := waitOf_eq_none ht rfl
  cases job with
  | call c => exact dealing_beginCall ht c inside
  | listen => exact .ofMove hw rfl inside
  | answer id method params =>
    show Dealing s u (s.beginAnswer t id method params).session _
    unfold beginAnswer
    split
    · rw [session_giveUp]; exact .ofMove hw rfl inside
    · split
      · rw [session_giveUp]; exact .ofMove hw rfl inside
      · rw [session_transmit]; exact .ofMove hw (wait?_sending rfl) inside
  | publish n =>
    show Dealing s u (s.beginPublish t n).session _
    unfold beginPublish
    split
    · rw [session_succeed]; exact .ofMove hw rfl inside
    · obtain ⟨p, hp, hcase⟩ := session_tell s t n (s.bus.recipients Notification.eventType)
      rw [hp]
      refine .ofMove hw ?_ inside
      rcases hcase with rfl | ⟨who, rest, rfl⟩ <;> rfl

/-! ### Going on -/

/-- The session after a reply was dealt with: the request is forgotten, and its task is over or sends
the end of the handshake. -/
theorem session_conclude (s : Session) (t : Nat) (purpose : Purpose) (id : Nat) (reply : Reply) :
    ∃ p, (s.conclude t purpose id reply).session = (s.dropRequest id).moveTask t p ∧
      p.wait? = none := by
  unfold conclude
  cases reply with
  | error f => exact ⟨.finished, by simp, rfl⟩
  | ok response =>
    cases purpose with
    | handshake =>
      dsimp only
      split
      · exact ⟨.finished, by simp, rfl⟩
      · exact ⟨_, session_transmit _ _ _ _, wait?_sending rfl⟩
    | ask q => exact ⟨.finished, by simp, rfl⟩

/-- A task with a reply waits no longer. -/
theorem dealing_conclude {purpose : Purpose} {id : Nat} {written : Bool} {reply : Reply}
    (ht : s.progressOf t = some (.requesting purpose id written (some reply)))
    (inside : ∀ m, u ≠ .receive m) : Dealing s u (s.conclude t purpose id reply).session es := by
  obtain ⟨p, hp, hw⟩ := session_conclude s t purpose id reply
  rw [hp]
  exact .ofLeave (w := ⟨purpose, id, written, some reply⟩) (waitOf_of_progressOf ht) hw inside

theorem dealing_channelOpened (ht : s.progressOf t = some .openingChannel)
    (inside : ∀ m, u ≠ .receive m) : Dealing s u (s.channelOpened t).session (s.channelOpened t).effects := by
  have hg := Grown.addTask s (show ∀ c, Job.listen ≠ .call c by simp)
  -- the reader is a further task, and the request is sent in the session with it
  refine Dealing.congr (r := { (s.addTask .listen).1 with reader := some s.tasks.length })
    rfl rfl (fun v => waitOf_addTask s .listen v) rfl (.ofAsk ?_ ?_ _ _ _ inside)
  · exact (waitOf_addTask s .listen t).trans (waitOf_eq_none ht rfl)
  · intro hn
    have := hg.progressOf ht
    exact absurd (hn.symm.trans this) (by simp)

theorem dealing_wrapUp (ht : s.waitOf t = none) (inside : ∀ m, u ≠ .receive m) :
    Dealing s u (s.wrapUp t).session es := by
  rw [session_wrapUp]
  exact .ofSame rfl rfl (waitOf_moveTask_of_none (s := s.shutDown) rfl ht) inside

/-- An operation that succeeded. -/
theorem dealing_continueWith {p : Progress} (ht : s.progressOf t = some p) (job : Job) (text : String)
    (inside : ∀ m, u ≠ .receive m) :
    Dealing s u (s.continueWith t job text p).session (s.continueWith t job text p).effects := by
  cases p with
  | openingChannel => exact dealing_channelOpened ht inside
  | requesting purpose id written reply =>
    cases written with
    | true => exact .ofSame rfl rfl (fun _ => rfl) inside
    | false =>
      show Dealing s u (s.requestWritten t purpose id reply).session _
      cases reply with
      | some r => exact dealing_conclude ht inside
      | none =>
        refine .written t ⟨purpose, id, false, none⟩ (waitOf_of_progressOf ht) rfl rfl rfl
          (fun v => ?_) inside
        show (s.moveTask t _).waitOf v = _
        rw [waitOf_moveTask, ht]
        rfl
  | announcing =>
    show Dealing s u (s.announced t).session _
    rw [announced, Turned.session_after, session_succeed]
    exact .ofSame rfl rfl
      (waitOf_moveTask_of_none (s := { s with phase := _ }) rfl (waitOf_eq_none ht rfl)) inside
  | reading =>
    show Dealing s u (s.openWith t text).session _
    unfold openWith
    dsimp only
    split
    · rw [session_giveUp]; exact .ofMove (waitOf_eq_none ht rfl) rfl inside
    · rw [session_transmit]
      exact .ofSame rfl rfl (waitOf_moveTask_of_none (s := { s with document := _ }) (wait?_sending rfl)
        (waitOf_eq_none ht rfl)) inside
  | opening => exact .ofMove (waitOf_eq_none ht rfl) rfl inside
  | updating =>
    show Dealing s u ((s.succeed t).after _).session _
    rw [Turned.session_after, session_succeed]
    exact .ofMove (waitOf_eq_none ht rfl) rfl inside
  | closing =>
    show Dealing s u (({ s with document := none }.succeed t).after _).session _
    rw [Turned.session_after, session_succeed]
    exact .ofSame rfl rfl
      (waitOf_moveTask_of_none (s := { s with document := _ }) rfl (waitOf_eq_none ht rfl)) inside
  | answering =>
    show Dealing s u ((s.succeed t).after _).session _
    rw [Turned.session_after, session_succeed]
    exact .ofMove (waitOf_eq_none ht rfl) rfl inside
  | closingChannel =>
    show Dealing s u (s.channelClosed t).session _
    unfold channelClosed
    split
    · exact dealing_wrapUp (waitOf_eq_none ht rfl) inside
    · exact .ofMove (waitOf_eq_none ht rfl) rfl inside
  | _ => exact .ofSame rfl rfl (fun _ => rfl) inside

/-- An operation that failed. -/
theorem dealing_continueWithout {p : Progress} (ht : s.progressOf t = some p) (f : Failure)
    (inside : ∀ m, u ≠ .receive m) :
    Dealing s u (s.continueWithout t f p).session (s.continueWithout t f p).effects := by
  have hgiveUp (hp : p.wait? = none) : Dealing s u (s.giveUp t f).session (s.giveUp t f).effects := by
    rw [session_giveUp]; exact .ofMove (waitOf_eq_none ht hp) rfl inside
  cases p with
  | requesting purpose id written reply =>
    cases written with
    | true => exact .ofSame rfl rfl (fun _ => rfl) inside
    | false =>
      show Dealing s u ((s.dropRequest id).giveUp t f).session _
      rw [session_giveUp]
      exact .ofLeave (w := ⟨purpose, id, false, reply⟩) (waitOf_of_progressOf ht) rfl inside
  | openingChannel | announcing | reading | opening | updating | closing | answering
  | closingChannel => exact hgiveUp rfl
  | _ => exact .ofSame rfl rfl (fun _ => rfl) inside

/-- A task that has to give up. -/
theorem dealing_abandon {p : Progress} (ht : s.progressOf t = some p) (inside : ∀ m, u ≠ .receive m) :
    Dealing s u (s.abandon t p).session (s.abandon t p).effects := by
  have hgiveUp (hp : p.wait? = none) :
      Dealing s u (s.giveUp t .cancelled).session (s.giveUp t .cancelled).effects := by
    rw [session_giveUp]; exact .ofMove (waitOf_eq_none ht hp) rfl inside
  cases p with
  | finished => exact .ofSame rfl rfl (fun _ => rfl) inside
  | requesting purpose id written reply =>
    show Dealing s u ((s.dropRequest id).giveUp t .cancelled).session _
    rw [session_giveUp]
    exact .ofLeave (w := ⟨purpose, id, written, reply⟩) (waitOf_of_progressOf ht) rfl inside
  | awaitingReader reader => exact dealing_wrapUp (waitOf_eq_none ht rfl) inside
  | _ => exact hgiveUp rfl

theorem dealing_streamEnded (ht : s.progressOf t = some .listening) (reason : String)
    (error : Option String) (inside : ∀ m, u ≠ .receive m) :
    Dealing s u (s.streamEnded t reason error).session (s.streamEnded t reason error).effects := by
  have hw := waitOf_eq_none ht rfl
  unfold streamEnded
  dsimp only
  rw [Turned.session_after, Turned.session_andThen, session_succeed]
  split
  · exact .ofMove hw rfl inside
  · refine .ofFail (r := { s with ended := some (endReason reason error) }) rfl rfl (fun _ => rfl)
      (isSome_whyClosed?_of_ended rfl) (endReason reason error) (t := t) (p := .finished) hw rfl
      (fun _ => rfl) (by simp [noteEnd]) (by simp [noteEnd]) (by simp [noteEnd]) (by simp [noteEnd])
      inside fun e he => ?_
    simp only [noteEnd, Turned.effects_after, Turned.effects_andThen, List.mem_append]
    exact .inr (.inl (.inr he))

end

/-! ### Every turn -/

theorem dealing_resume (s : Session) (t : Nat) (r : Resumption) :
    Dealing s (.resume t r) (s.resume t r).session (s.resume t r).effects := by
  have inside : ∀ m, Turn.resume t r ≠ .receive m := by rintro m ⟨⟩
  have hidle : Dealing s (.resume t r) s [] := .ofSame rfl rfl (fun _ => rfl) inside
  unfold resume
  split
  · exact hidle
  · next job progress hk =>
    have ht : s.progressOf t = some progress := progressOf_of_get hk
    split
    · exact dealing_begin ht job inside
    · exact dealing_continueWith ht job _ inside
    · exact dealing_continueWithout ht _ inside
    · exact dealing_conclude ht inside
    · rw [session_succeed]; exact .ofMove (waitOf_eq_none ht rfl) rfl inside
    · split
      · next n =>
        obtain ⟨p, hp, hcase⟩ := session_tell s t n _
        rw [Turned.session_after, hp]
        refine .ofMove (waitOf_eq_none ht rfl) ?_ inside
        rcases hcase with rfl | ⟨who, rest, rfl⟩ <;> rfl
      · exact hidle
    · exact dealing_streamEnded ht _ _ inside
    · exact dealing_wrapUp (waitOf_eq_none ht rfl) inside
    · exact dealing_abandon ht inside
    · exact hidle

/-- **What a turn can do to requests.** -/
theorem dealing_step (s : Session) (u : Turn) : Dealing s u (s.step u).session (s.step u).effects := by
  cases u with
  | call c =>
    refine .ofSame rfl rfl (waitOf_addTask s (.call c)) ?_
    rintro m ⟨⟩
  | resume t r => exact dealing_resume s t r
  | receive m => exact dealing_receive s m
  | account t f =>
    refine .ofSame rfl rfl (fun _ => rfl) ?_
    rintro m ⟨⟩

/-! ## Consistency -/

/-- **The pending table and the waiting tasks agree.** -/
structure Consistent (s : Session) : Prop where
  /-- Requests are listed in the order of their ids. -/
  rising : s.pending.Pairwise fun p q => p.1 < q.1
  /-- The table lists what waits without a reply. -/
  listed : ∀ id t, (id, t) ∈ s.pending ↔ ∃ w, s.waitOf t = some w ∧ w.id = id ∧ w.reply = none
  /-- No id is beyond the latest. -/
  bounded : ∀ t w, s.waitOf t = some w → w.id ≤ s.lastRequest
  /-- A request belongs to one task. -/
  single : ∀ t v w x, s.waitOf t = some w → s.waitOf v = some x → w.id = x.id → t = v

theorem consistent_new (p : Profile) : Consistent (new p) := by
  have hnone : ∀ t, (new p).waitOf t = none := fun t => rfl
  refine ⟨List.Pairwise.nil, fun id t => ⟨fun h => (by cases h), ?_⟩, ?_, ?_⟩
  · rintro ⟨w, hw, -⟩; rw [hnone] at hw; cases hw
  · intro t w hw; rw [hnone] at hw; cases hw
  · intro t v w x hw; rw [hnone] at hw; cases hw

namespace Consistent

variable {s s' : Session} {u : Turn}

/-- A pending request waits. -/
theorem waiting (h : Consistent s) {id t : Nat} (hm : (id, t) ∈ s.pending) :
    ∃ w, s.waitOf t = some w ∧ w.id = id ∧ w.reply = none := (h.listed id t).mp hm

/-- A wait without a reply is pending. -/
theorem mem_pending (h : Consistent s) {t : Nat} {w : Wait} (hw : s.waitOf t = some w)
    (hr : w.reply = none) : (w.id, t) ∈ s.pending := (h.listed w.id t).mpr ⟨w, hw, rfl, hr⟩

theorem le_last (h : Consistent s) {p : Nat × Nat} (hp : p ∈ s.pending) : p.1 ≤ s.lastRequest := by
  obtain ⟨w, hw, hid, -⟩ := h.waiting (show (p.1, p.2) ∈ s.pending from hp)
  rw [← hid]
  exact h.bounded _ w hw

theorem registered (h : Consistent s) {t : Nat} {purpose : Purpose} (free : s.waitOf t = none)
    (pending : s'.pending = s.pending ++ [(s.lastRequest + 1, t)])
    (last : s'.lastRequest = s.lastRequest + 1)
    (waits : ∀ v, s'.waitOf v
      = if v = t then some ⟨purpose, s.lastRequest + 1, false, none⟩ else s.waitOf v) :
    Consistent s' := by
  -- a wait is the new one, or an old one under an older id
  have hcases : ∀ v w, s'.waitOf v = some w →
      (v = t ∧ w = ⟨purpose, s.lastRequest + 1, false, none⟩) ∨ (v ≠ t ∧ s.waitOf v = some w) := by
    intro v w hv
    rw [waits v] at hv
    split at hv
    · next hvt => exact .inl ⟨hvt, (Option.some.inj hv).symm⟩
    · next hvt => exact .inr ⟨hvt, hv⟩
  refine ⟨?_, fun id v => ?_, fun v w hv => ?_, fun v x w y hv hx hid => ?_⟩
  · rw [pending, List.pairwise_append]
    refine ⟨h.rising, List.pairwise_singleton _ _, fun p hp q hq => ?_⟩
    rw [List.mem_singleton.mp hq]
    exact Nat.lt_succ_of_le (h.le_last hp)
  · rw [pending, List.mem_append, List.mem_singleton, waits v]
    by_cases hv : v = t
    · subst hv
      rw [if_pos rfl]
      constructor
      · rintro (hm | hm)
        · obtain ⟨w, hw, -⟩ := h.waiting hm
          rw [free] at hw; cases hw
        · cases hm; exact ⟨_, rfl, rfl, rfl⟩
      · rintro ⟨w, hw, hid, -⟩
        cases hw; exact .inr (by rw [← hid])
    · rw [if_neg hv, ← h.listed id v]
      constructor
      · rintro (hm | hm)
        · exact hm
        · cases hm; exact absurd rfl hv
      · exact .inl
  · rw [last]
    rcases hcases v w hv with ⟨-, rfl⟩ | ⟨-, hw⟩
    · exact Nat.le_refl _
    · exact Nat.le_succ_of_le (h.bounded v w hw)
  · rcases hcases v w hv with ⟨rfl, rfl⟩ | ⟨-, hw⟩
    · rcases hcases x y hx with ⟨rfl, -⟩ | ⟨-, hy⟩
      · rfl
      · have := h.bounded x y hy
        dsimp only at hid; omega
    · rcases hcases x y hx with ⟨rfl, rfl⟩ | ⟨-, hy⟩
      · have := h.bounded v w hw
        dsimp only at hid; omega
      · exact h.single v x w y hw hy hid

/-- One request is taken from the table, and its task has a reply or waits no longer. -/
theorem taken (h : Consistent s) {t id : Nat} {w : Wait} (wait : s.waitOf t = some w)
    (hid : w.id = id) (pending : s'.pending = s.pending.filter (·.1 != id))
    (last : s'.lastRequest = s.lastRequest) {x : Option Wait}
    (waits : ∀ v, s'.waitOf v = if v = t then x else s.waitOf v)
    (hx : ∀ y, x = some y → y.id = w.id ∧ y.reply ≠ none) : Consistent s' := by
  subst hid
  have hcases : ∀ v y, s'.waitOf v = some y →
      ∃ z, s.waitOf v = some z ∧ z.id = y.id ∧ (v = t → y.reply ≠ none) ∧ (v ≠ t → z = y) := by
    intro v y hv
    rw [waits v] at hv
    split at hv
    · next hvt =>
      obtain ⟨hyid, hyr⟩ := hx y hv
      exact ⟨w, hvt ▸ wait, hyid.symm, fun _ => hyr, fun hne => absurd hvt hne⟩
    · next hvt => exact ⟨y, hv, rfl, fun heq => absurd heq hvt, fun _ => rfl⟩
  refine ⟨?_, fun id v => ?_, fun v y hv => ?_, fun v z y y' hv hz heq => ?_⟩
  · rw [pending]
    exact h.rising.filter _
  · rw [pending, List.mem_filter]
    constructor
    · rintro ⟨hm, hne⟩
      obtain ⟨y, hy, hyid, hyr⟩ := h.waiting hm
      have hvt : v ≠ t := by
        rintro rfl
        rw [wait] at hy; cases hy
        simp [hyid] at hne
      exact ⟨y, by rw [waits v, if_neg hvt, hy], hyid, hyr⟩
    · rintro ⟨y, hy, hyid, hyr⟩
      obtain ⟨z, hz, -, hzt, hne⟩ := hcases v y hy
      have hvt : v ≠ t := fun heq => hzt heq hyr
      rw [hne hvt] at hz
      refine ⟨(h.listed id v).mpr ⟨y, hz, hyid, hyr⟩, ?_⟩
      simp only [bne_iff_ne, ne_eq]
      intro heq
      exact hvt (h.single v t y w hz wait (by rw [hyid, heq]))
  · obtain ⟨z, hz, hzid, -⟩ := hcases v y hv
    rw [last, ← hzid]
    exact h.bounded v z hz
  · obtain ⟨a, ha, haid, -⟩ := hcases v y hv
    obtain ⟨b, hb, hbid, -⟩ := hcases z y' hz
    exact h.single v z a b ha hb (by rw [haid, hbid, heq])

/-- **One turn keeps the table and the tasks in agreement.** -/
theorem step (h : Consistent s) (u : Turn) : Consistent (s.step u).session := by
  cases dealing_step s u with
  | still pending last waits _ =>
    exact ⟨by rw [pending]; exact h.rising, fun id t => by rw [pending, waits t]; exact h.listed id t,
      fun t w hw => by rw [last]; exact h.bounded t w (waits t ▸ hw),
      fun t v w x hw hx => h.single t v w x (waits t ▸ hw) (waits v ▸ hx)⟩
  | registered t purpose _ free pending last waits _ => exact h.registered free pending last waits
  | resolved m id t _ listed _ pending last waits =>
    obtain ⟨w, hw, hid, hr⟩ := h.waiting listed
    refine h.taken hw hid pending last waits fun y hy => ?_
    rw [hw] at hy
    cases hy
    exact ⟨w.id_answered _, by rw [w.reply_answered, hr]; simp⟩
  | left t w wait pending last waits _ =>
    exact h.taken wait rfl pending last waits fun y hy => by cases hy
  | written t w wait waiting pending last waits _ =>
    -- the wait under the id is the same but for the mark
    have hcases : ∀ v y, (s.step u).session.waitOf v = some y →
        ∃ z, s.waitOf v = some z ∧ z.id = y.id ∧ z.reply = y.reply := by
      intro v y hv
      rw [waits v] at hv
      split at hv
      · next hvt => cases hv; exact ⟨w, hvt ▸ wait, rfl, rfl⟩
      · exact ⟨y, hv, rfl, rfl⟩
    refine ⟨by rw [pending]; exact h.rising, fun id v => ?_, fun v y hv => ?_,
      fun v x y y' hv hx hid => ?_⟩
    · rw [pending, h.listed id v]
      constructor
      · rintro ⟨y, hy, hyid, hyr⟩
        rw [waits v]
        split
        · next hvt =>
          subst hvt
          rw [wait] at hy; cases hy
          exact ⟨_, rfl, hyid, hyr⟩
        · exact ⟨y, hy, hyid, hyr⟩
      · rintro ⟨y, hy, hyid, hyr⟩
        obtain ⟨z, hz, hzid, hzr⟩ := hcases v y hy
        exact ⟨z, hz, hzid.trans hyid, hzr.trans hyr⟩
    · obtain ⟨z, hz, hzid, -⟩ := hcases v y hv
      rw [last, ← hzid]
      exact h.bounded v z hz
    · obtain ⟨a, ha, haid, -⟩ := hcases v y hv
      obtain ⟨b, hb, hbid, -⟩ := hcases x y' hx
      exact h.single v x a b ha hb (by rw [haid, hbid, hid])
  | failed reason _ pending last waits _ _ =>
    have hcases : ∀ v y, (s.step u).session.waitOf v = some y →
        ∃ z, s.waitOf v = some z ∧ z.id = y.id ∧ y.reply ≠ none := by
      intro v y hv
      rw [waits v] at hv
      split at hv
      · obtain ⟨z, hz, rfl⟩ := Option.map_eq_some_iff.mp hv
        exact ⟨z, hz, (z.id_answered _).symm, by rw [z.reply_answered]; cases z.reply <;> simp⟩
      · next hvn =>
        -- not listed, so it has its reply
        refine ⟨y, hv, rfl, fun hr => hvn ?_⟩
        exact List.mem_map.mpr ⟨_, h.mem_pending hv hr, rfl⟩
    refine ⟨by rw [pending]; exact .nil, fun id v => ?_, fun v y hv => ?_, fun v x y y' hv hx hid => ?_⟩
    · rw [pending]
      constructor
      · intro hm; cases hm
      · rintro ⟨y, hy, -, hyr⟩
        obtain ⟨-, -, -, hne⟩ := hcases v y hy
        exact absurd hyr hne
    · obtain ⟨z, hz, hzid, -⟩ := hcases v y hv
      rw [last, ← hzid]
      exact h.bounded v z hz
    · obtain ⟨a, ha, haid, -⟩ := hcases v y hv
      obtain ⟨b, hb, hbid, -⟩ := hcases x y' hx
      exact h.single v x a b ha hb (by rw [haid, hbid, hid])

end Consistent

/-- The table and the tasks agree after every history. -/
theorem consistent_after (p : Profile) (h : List Turn) : Consistent ((new p).after h) :=
  after_preserves (fun _ u hs => hs.step u) (consistent_new p) h

end EditorServices.Session
