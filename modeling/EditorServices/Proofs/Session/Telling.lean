import EditorServices.Proofs.Lists
import EditorServices.Proofs.Session.Attendance
import EditorServices.Proofs.Session.Audience
import EditorServices.Proofs.Session.Requests

/-!
# `Proofs.Session.Telling` — every subscriber is told of every message once

A message of the server is told by a task of its own. Such tasks pause independently of each other, so one
message can be told to a subscriber while an earlier one has not reached it. What holds in every order of
turns is that nothing is lost and nothing is told twice: what a subscriber was told of, and what it is still
to be told of, are the messages that came in (`invocations_perm`).

## Contents
- **Tellings.** `Telling`, `untold`, `owed`.
- **News.** `news?`, the notification that a message is told as.
- **One turn.** `TellTurn`, in a session that is `Attuned`.
- **Counting.** `owed_step`, and `invocations_perm` for a history.
-/

namespace EditorServices.Session

/-! ## Tellings -/

/-- A message that is told to subscribers, with the stage of its task. -/
structure Telling where
  message : Notification
  stage : Progress

/-- What a task tells, if that is what it is for. -/
def Task.telling? (k : Task) : Option Telling :=
  match k.job with
  | .publish n => some ⟨n, k.progress⟩
  | _ => none

/-- What is told, and was told, in the order in which it came in. -/
def tellings (s : Session) : List Telling := s.tasks.filterMap Task.telling?

/-- The subscribers that are still to be told at a stage. -/
def untold (s : Session) : Progress → List Subscriber
  | .created => s.hearers
  | .telling _ rest => s.audience rest
  | _ => []

/-- The message of which a subscriber is still to be told. -/
def owes? (s : Session) (who : Subscriber) (x : Telling) : Option Notification :=
  if who ∈ s.untold x.stage then some x.message else none

/-- The messages of which a subscriber is still to be told, in the order in which they came in. -/
def owed (s : Session) (who : Subscriber) : List Notification := s.tellings.filterMap (s.owes? who)

theorem mem_tellings {s : Session} {t : Nat} {n : Notification} {p : Progress}
    (hk : s.tasks[t]? = some ⟨.publish n, p⟩) : ⟨n, p⟩ ∈ s.tellings :=
  List.mem_filterMap.mpr ⟨_, List.mem_of_getElem? hk, rfl⟩

theorem tellings_congr {s s' : Session}
    (h : ∀ t : Nat, (s'.tasks[t]?).bind Task.telling? = (s.tasks[t]?).bind Task.telling?) :
    s'.tellings = s.tellings := filterMap_eq_of_getElem? h

/-- The tellings of the tasks before a place. -/
def tellingsBefore (s : Session) (t : Nat) : List Telling := (s.tasks.take t).filterMap Task.telling?

/-- A task that tells goes on to another stage: its telling has others before and behind it. -/
theorem tellings_moveTask {s : Session} {t : Nat} {n : Notification} {p : Progress}
    (hk : s.tasks[t]? = some ⟨.publish n, p⟩) (q : Progress) :
    s.tellings = s.tellingsBefore t ++ ⟨n, p⟩ :: (s.tasks.drop (t + 1)).filterMap Task.telling? ∧
      (s.moveTask t q).tellings =
        s.tellingsBefore t ++ ⟨n, q⟩ :: (s.tasks.drop (t + 1)).filterMap Task.telling? := by
  obtain ⟨hlt, hget⟩ := List.getElem?_eq_some_iff.mp hk
  have hsplit : s.tasks = s.tasks.take t ++ ⟨.publish n, p⟩ :: s.tasks.drop (t + 1) := by
    rw [← hget, List.getElem_cons_drop, List.take_append_drop]
  have hmoved : (s.moveTask t q).tasks = s.tasks.take t ++ ⟨.publish n, q⟩ :: s.tasks.drop (t + 1) := by
    show s.tasks.modify t _ = _
    rw [List.modify_eq_take_cons_drop hlt, hget]
  constructor
  · unfold tellings tellingsBefore
    conv => lhs; rw [hsplit]
    rw [List.filterMap_append]
    rfl
  · unfold tellings tellingsBefore
    rw [hmoved, List.filterMap_append]
    rfl

/-! ## News -/

/-- The notification that a message is told as; what is no message of the server's own, or is refused, is
told to nobody. -/
def news? (p : Profile) : Json → Option Notification
  | .obj ms =>
    match Named.get? ms "method" with
    | some (.str method) =>
      if p.refuses (.str method) (Json.field (.obj ms) "params") then none
      else some ⟨method, Json.field (.obj ms) "params", Json.field (.obj ms) "id"⟩
    | _ => none
  | _ => none

/-- The news in the messages of a history. -/
def newsIn (p : Profile) (hs : List Turn) : List Notification := (hs.filterMap Turn.message?).filterMap (news? p)

theorem newsIn_cons (p : Profile) (u : Turn) (hs : List Turn) :
    newsIn p (u :: hs) = newsIn p [u] ++ newsIn p hs := by
  unfold newsIn
  rw [← List.filterMap_append, ← List.filterMap_append]
  rfl

/-- A report is refused only if it has diagnostics that are neither null nor a list. -/
theorem refuses_eq_false {p : Profile} {method : String} {params : Json}
    (h : method = diagnosticsMethod → ∀ ms, params = .obj ms →
      Json.field (.obj ms) "diagnostics" = .null ∨ ∃ xs, Json.field (.obj ms) "diagnostics" = .arr xs) :
    p.refuses (.str method) params = false := by
  cases params with
  | obj ms =>
    show (decide (method = diagnosticsMethod) && _ && _) = false
    by_cases hm : method = diagnosticsMethod
    · rcases h hm ms rfl with hnull | ⟨xs, hlist⟩
      · rw [hnull]
        exact Bool.and_false _
      · rw [hlist, Json.partsOrNone?]
        split <;> exact Bool.and_false _
    · rw [decide_eq_false hm]
      rfl
  | null | bool _ | int _ | float _ | str _ | arr _ => rfl

/-- **A message with a text as its method is told under its method, its parameters and its id.** -/
theorem news?_of_method {p : Profile} {ms : Members} {method : String}
    (hmethod : Named.get? ms "method" = some (.str method))
    (readable : method = diagnosticsMethod → ∀ params, Json.field (.obj ms) "params" = .obj params →
      Json.field (.obj params) "diagnostics" = .null ∨ ∃ xs, Json.field (.obj params) "diagnostics" = .arr xs) :
    news? p (.obj ms) = some ⟨method, Json.field (.obj ms) "params", Json.field (.obj ms) "id"⟩ := by
  unfold news?
  dsimp only
  rw [hmethod]
  dsimp only
  rw [refuses_eq_false readable]
  rfl

/-! ## One turn -/

section

variable {s : Session} {t : Nat} {job : Job}

/-- A telling has not begun, waits for the end of a pause, or is over. -/
theorem Orderly.stage_of_publish (ho : Orderly s) {n : Notification} {p : Progress}
    (hk : s.tasks[t]? = some ⟨.publish n, p⟩) :
    p = .created ∨ (∃ who rest, p = .telling who rest) ∨ p = .finished := by
  have hof := ho t _ _ (jobOf_of_get hk) (progressOf_of_get hk)
  cases p with
  | created => exact .inl rfl
  | telling who rest => exact .inr (.inl ⟨who, rest, rfl⟩)
  | finished => exact .inr (.inr rfl)
  | openingChannel | announcing | reading | opening | settling | closing | listening | closingChannel
  | awaitingReader => cases hof
  | updating =>
    obtain ⟨_, heq⟩ := hof
    cases heq
  | answering =>
    obtain ⟨_, _, _, heq⟩ := hof
    cases heq
  | requesting purpose id written reply =>
    cases purpose with
    | handshake => cases hof
    | ask q =>
      obtain ⟨_, _, heq⟩ := hof
      cases heq

/-- A telling stays where it was in a turn of another task, and so does a task that tells nobody in any
turn. -/
theorem telling?_step (ho : Orderly s) {u : Turn} {v : Nat} (hv : v < s.tasks.length)
    (hother : ∀ n, s.jobOf v = some (.publish n) → u.task? ≠ some v) :
    ((s.step u).session.tasks[v]?).bind Task.telling? = (s.tasks[v]?).bind Task.telling? := by
  obtain ⟨⟨job, p⟩, hget⟩ : ∃ k, s.tasks[v]? = some k := ⟨_, List.getElem?_eq_getElem hv⟩
  have hj := ho.jobOf_step u (jobOf_of_get hget)
  obtain ⟨⟨job', q⟩, hget', hjob⟩ := Option.map_eq_some_iff.mp hj
  obtain rfl : job = job' := hjob.symm
  rw [hget, hget']
  by_cases hpublish : ∃ n, job = .publish n
  · -- a telling waits for no reply, so it is where it was
    obtain ⟨n, rfl⟩ := hpublish
    obtain ⟨q', hq', hpq⟩ := ho.progressOf_step (hother n (jobOf_of_get hget)) (progressOf_of_get hget)
    have hwait : p.wait? = none := by
      rcases ho.stage_of_publish hget with rfl | ⟨_, _, rfl⟩ | rfl <;> rfl
    rw [progressOf_of_get hget'] at hq'
    obtain rfl : q = q' := Option.some.inj hq'
    obtain rfl : q = p := hpq.eq_of_wait? hwait
    rfl
  · cases job with
    | publish n => exact absurd ⟨n, rfl⟩ hpublish
    | call | listen | answer => rfl

/-- A turn of a task adds the reader of the channel or nothing. -/
theorem listen_of_fresh {q : Progress} (hk : s.tasks[t]? = some ⟨job, q⟩) (r : Resumption) {v : Nat} {other : Job}
    (hv : s.tasks.length ≤ v) (hj : (s.resume t r).session.jobOf v = some other) : other = .listen := by
  have hadded (h : Spawns s 0 (s.resume t r)) : other = .listen := by
    obtain ⟨k, hget, -⟩ := Option.map_eq_some_iff.mp hj
    have hlt := (List.getElem?_eq_some_iff.mp hget).1
    have hlength := h.length
    omega
  by_cases hopening : q = .openingChannel
  · subst hopening
    rw [resume, hk] at hadded hj
    cases r with
    | returned x =>
      cases x with
      | error f => exact hadded (spawns_finish s t _)
      | ok text =>
        change (s.channelOpened t).session.jobOf v = some other at hj
        have hnone : s.jobOf v = none := by
          unfold jobOf
          rw [List.getElem?_eq_none hv]
          rfl
        have hopened : (s.channelOpened t).session.jobOf v = (s.addTask .listen).1.jobOf v := by
          unfold channelOpened
          rw [Turned.session_after, session_ask]
          split
          · exact jobOf_moveTask _ _ _ _
          · exact jobOf_moveTask _ _ _ _
        rw [hopened, jobOf_addTask] at hj
        split at hj
        · exact (Option.some.inj hj).symm
        · rw [hnone] at hj
          cases hj
    | cancelled => exact hadded (spawns_finish s t _)
    | begins | replied | rested | streamEnded | readerFinished => exact hadded (.idle s)
  · exact hadded (spawns_resume hk hopening r)

/-- A turn of a task that tells nobody leaves what is told. -/
theorem tellings_resume (ho : Orderly s) {q : Progress} (hk : s.tasks[t]? = some ⟨job, q⟩)
    (hpublish : ∀ n, job ≠ .publish n) (r : Resumption) : (s.resume t r).session.tellings = s.tellings := by
  refine tellings_congr fun v => ?_
  by_cases hv : v < s.tasks.length
  · refine telling?_step (u := .resume t r) ho hv fun n hj heq => ?_
    obtain rfl : t = v := Option.some.inj heq
    rw [jobOf_of_get hk] at hj
    exact hpublish n (Option.some.inj hj)
  · rw [List.getElem?_eq_none (Nat.le_of_not_lt hv)]
    cases hget : (s.resume t r).session.tasks[v]? with
    | none => rfl
    | some k =>
      obtain ⟨other, p⟩ := k
      obtain rfl : other = .listen := listen_of_fresh hk r (Nat.le_of_not_lt hv) (jobOf_of_get hget)
      rfl

/-- A response adds nothing that is told. -/
theorem tellings_receiveResponse (ho : Orderly s) {ms : Members} (hmethod : Named.get? ms "method" = none) :
    (s.receive (.obj ms)).session.tellings = s.tellings := by
  have hlength : (s.receive (.obj ms)).session.tasks.length = s.tasks.length := by
    unfold receive
    dsimp only
    rw [hmethod]
    show (s.receiveResponse ms).session.tasks.length = _
    unfold receiveResponse
    dsimp only
    split
    · split
      · exact (spawns_reply (s.dropRequest _) _ _).length
      · rfl
    · rfl
  refine tellings_congr fun v => ?_
  by_cases hv : v < s.tasks.length
  · exact telling?_step (u := .receive (.obj ms)) ho hv fun _ _ heq => by cases heq
  · have hle := Nat.le_of_not_lt hv
    rw [List.getElem?_eq_none hle, List.getElem?_eq_none (hlength ▸ hle)]

/-- The answer to a request is told to nobody. -/
theorem tellings_answerRequest (id : Option Json) (method params : Json) :
    (s.answerRequest id method params).session.tellings = s.tellings := by
  cases id with
  | none => rfl
  | some id =>
    show (s.tasks ++ [_]).filterMap Task.telling? = _
    rw [List.filterMap_append]
    exact List.append_nil _

/-- A message of the server adds its telling, if it is news. -/
theorem tellings_receiveMethod {ms : Members} {method : Json} (hmethod : Named.get? ms "method" = some method) :
    (s.receiveMethod ms method).session.tellings =
      s.tellings ++ (news? s.profile (.obj ms)).toList.map fun n => ⟨n, .created⟩ := by
  unfold receiveMethod news?
  dsimp only
  rw [hmethod]
  cases hnoticed : s.noticeDiagnostics method (Json.field (.obj ms) "params") with
  | none =>
    have hrefuses := noticeDiagnostics_eq_none.mp hnoticed
    cases method with
    | str text =>
      dsimp only
      rw [if_pos hrefuses]
      exact (List.append_nil _).symm
    | null | bool _ | int _ | float _ | arr _ | obj _ => exact (List.append_nil _).symm
  | some noticed =>
    -- a report that was read leaves the tasks alone, so only the answer and the telling are new
    have hhandled : ¬s.profile.refuses method (Json.field (.obj ms) "params") = true := by
      intro hrefuses
      rw [noticeDiagnostics_eq_none.mpr hrefuses] at hnoticed
      cases hnoticed
    have hanswered : (noticed.session.answerRequest (Named.get? ms "id") method
        (Json.field (.obj ms) "params")).session.tellings = s.tellings := by
      rw [tellings_answerRequest, tellings, tasks_noticeDiagnostics hnoticed]
      rfl
    dsimp only
    rw [Turned.session_andThen, Turned.session_andThen]
    cases method with
    | str text =>
      dsimp only
      rw [if_neg hhandled, ← hanswered]
      exact List.filterMap_append
    | null | bool _ | int _ | float _ | arr _ | obj _ => exact hanswered.trans (List.append_nil _).symm

/-- What arrives adds its telling, if it is news. -/
theorem tellings_receive (ho : Orderly s) (m : Json) : (s.receive m).session.tellings =
    s.tellings ++ (news? s.profile m).toList.map fun n => ⟨n, .created⟩ := by
  cases m with
  | null | bool _ | int _ | float _ | str _ | arr _ => exact (List.append_nil _).symm
  | obj ms =>
    cases hmethod : Named.get? ms "method" with
    | none =>
      have hnews : news? s.profile (.obj ms) = none := by
        unfold news?
        dsimp only
        rw [hmethod]
      rw [hnews]
      exact (tellings_receiveResponse ho hmethod).trans (List.append_nil _).symm
    | some method =>
      have hreceive : s.receive (.obj ms) = s.receiveMethod ms method := by
        unfold receive
        dsimp only
        rw [hmethod]
      rw [hreceive]
      exact tellings_receiveMethod hmethod

end

/-- A session whose subscribers are told of what comes in, and of which nobody disposes. -/
structure Attuned (s : Session) (whos : List Subscriber) : Prop where
  orderly : Orderly s
  undisposed : ∀ t, s.jobOf t ≠ some (.call .dispose)
  opened : s.bus.closed = false
  hearers : s.hearers = whos
  /-- A telling that goes on waits for a subscriber that pauses; those behind it are left. -/
  paused : ∀ x ∈ s.tellings, ∀ who rest, x.stage = .telling who rest →
    who.behaviour = .pauses ∧ who :: s.audience rest <:+ whos

/-- A turn disposes of nothing, and makes no telling give up. -/
def Spares (s : Session) (u : Turn) : Prop :=
  u ≠ .call .dispose ∧ ∀ t n, s.jobOf t = some (.publish n) → u ≠ .resume t .cancelled

/-- A telling goes on from a stage when it is resumed: at its beginning, and after a pause. -/
def Progress.Runs (p : Progress) (r : Resumption) : Prop :=
  (p = .created ∧ r = .begins) ∨ ∃ who rest, p = .telling who rest ∧ r = .rested

/-- What it comes to that a telling goes on from one stage to another. -/
structure Ran (s : Session) (whos : List Subscriber) (t : Nat) (n : Notification) (p q : Progress) (r : Turned) :
    Prop where
  moved : r.session = s.moveTask t q
  later : s.untold q = toldLater (s.untold p)
  next : q = .finished ∨ ∃ who rest, q = .telling who rest ∧ who.behaviour = .pauses ∧
    who :: s.audience rest <:+ s.untold p ∧ .pause t ∈ r.effects
  told : ∀ who ∈ whos, invocations who r.effects = if who ∈ toldFirst (s.untold p) then [n] else []

/-- What a turn does to the tellings. -/
inductive TellTurn (s : Session) (whos : List Subscriber) (u : Turn) : Prop where
  /-- A message comes in, or something happens that has to do with no telling. -/
  | apart (unheard : Unheard s (s.step u))
      (added : (s.step u).session.tellings = s.tellings ++ (newsIn s.profile [u]).map fun n => ⟨n, .created⟩)
  /-- A telling goes on. -/
  | run (t : Nat) (n : Notification) (p q : Progress) (r : Resumption) (turn : u = .resume t r)
      (here : s.tasks[t]? = some ⟨.publish n, p⟩) (runs : p.Runs r) (ran : Ran s whos t n p q (s.step u))

namespace Attuned

variable {s : Session} {whos : List Subscriber} (h : Attuned s whos)
include h

/-- Those who are left are the last ones. -/
theorem untold_suffix {x : Telling} (hx : x ∈ s.tellings) : s.untold x.stage <:+ whos := by
  unfold untold
  split
  · exact ⟨[], h.hearers⟩
  · next who rest hstage => exact (List.suffix_cons who _).trans (h.paused x hx who rest hstage).2
  · exact List.nil_suffix

/-- Those who are told in one run are some of all subscribers. -/
theorem toldFirst_sublist {x : Telling} (hx : x ∈ s.tellings) : (toldFirst (s.untold x.stage)).Sublist whos := by
  have hprefix : toldFirst (s.untold x.stage) <+: s.untold x.stage := ⟨_, toldFirst_append_toldLater _⟩
  exact hprefix.sublist.trans (h.untold_suffix hx).sublist

/-- A run of a telling, after effects that tell nobody. -/
theorem ran_of_tells (distinct : (whos.map Subscriber.name).Nodup) {t : Nat} {n : Notification} {p : Progress}
    (here : s.tasks[t]? = some ⟨.publish n, p⟩) {r : Turned} (tells : Tells s t n (s.untold p) r)
    {es : List Effect} (silent : ∀ who ∈ whos, invocations who es = []) :
    ∃ q, Ran s whos t n p q (r.after es) := by
  obtain ⟨q, hq, hnext⟩ := tells.moved
  refine ⟨q, hq, ?_, ?_, fun who hwho => ?_⟩
  · rcases hnext with ⟨rfl, hnone⟩ | ⟨_, _, rfl, -, haudience, -, -⟩
    · exact hnone.symm
    · exact haudience
  · rcases hnext with ⟨hover, -⟩ | ⟨who, rest, hwho, hpauses, -, hsuffix, hpause⟩
    · exact .inl hover
    · exact .inr ⟨who, rest, hwho, hpauses, hsuffix, List.mem_append_right es hpause⟩
  · rw [Turned.effects_after, invocations_append, silent who hwho, List.nil_append, tells.told who]
    exact filterMap_invoked? distinct hwho (h.toldFirst_sublist (mem_tellings here))

/-- **A telling that goes on tells those of one run.** -/
theorem exists_ran (distinct : (whos.map Subscriber.name).Nodup) {t : Nat} {n : Notification} {p : Progress}
    (hk : s.tasks[t]? = some ⟨.publish n, p⟩) {r : Resumption} (runs : p.Runs r) :
    ∃ q, Ran s whos t n p q (s.step (.resume t r)) := by
  rcases runs with ⟨rfl, rfl⟩ | ⟨first, rest, rfl, rfl⟩
  · have hstep : s.step (.resume t .begins) =
        (s.tell t n (s.bus.recipients Notification.eventType)).after [] := by
      show s.resume t .begins = _
      rw [resume, hk]
      show s.beginPublish t n = _
      rw [beginPublish, if_neg (by rw [h.opened]; decide)]
      rfl
    rw [hstep]
    exact h.ran_of_tells distinct hk (tells_tell s t n _) fun _ _ => rfl
  · have hstep : s.step (.resume t .rested) = (s.tell t n rest).after [.told first.name false n] := by
      show s.resume t .rested = _
      rw [resume, hk]
    rw [hstep]
    refine h.ran_of_tells distinct hk (tells_tell s t n rest) fun x hx => ?_
    -- the end of a pause is no new telling of the one that pauses, and nobody else has its name
    obtain ⟨hpauses, hsuffix⟩ := h.paused _ (mem_tellings hk) first rest rfl
    have hnone : Effect.invoked? x (.told first.name false n) = none := by
      refine if_neg fun heq => ?_
      obtain rfl : first = x :=
        List.inj_on_of_nodup_map distinct (hsuffix.subset List.mem_cons_self) hx heq.1
      rw [decide_eq_true hpauses] at heq
      cases heq.2
    rw [invocations, List.filterMap_cons_none hnone]
    rfl

/-- Whatever else a telling is resumed with is passed over. -/
theorem step_of_not_runs {t : Nat} {n : Notification} {p : Progress}
    (hk : s.tasks[t]? = some ⟨.publish n, p⟩) {r : Resumption} (runs : ¬ p.Runs r) (spared : r ≠ .cancelled) :
    s.step (.resume t r) = ⟨s, []⟩ := by
  show s.resume t r = _
  rcases h.orderly.stage_of_publish hk with rfl | ⟨who, rest, rfl⟩ | rfl
  · exact resume_created hk (fun heq => runs (.inl ⟨rfl, heq⟩)) spared
  · rw [resume, hk]
    cases r with
    | rested => exact absurd (.inr ⟨who, rest, rfl, rfl⟩) runs
    | cancelled => exact absurd rfl spared
    | returned x => cases x <;> rfl
    | begins | replied | streamEnded | readerFinished => rfl
  · exact resume_finished (progressOf_of_get hk) r

/-- **What a turn does to the tellings.** -/
theorem tellTurn_step (distinct : (whos.map Subscriber.name).Nodup) {u : Turn} (spares : Spares s u) :
    TellTurn s whos u := by
  cases u with
  | call c =>
    refine .apart ⟨rfl, rfl, by simp [Session.step, Effect.isTold]⟩ ?_
    show (s.tasks ++ [(⟨.call c, .created⟩ : Task)]).filterMap Task.telling? = _
    exact List.filterMap_append
  | account t f => exact .apart (.account s t f) (List.append_nil _).symm
  | receive m =>
    refine .apart (.receive s m) ?_
    have hnews : newsIn s.profile [.receive m] = (news? s.profile m).toList := by
      show [m].filterMap _ = _
      rw [List.filterMap_cons]
      cases news? s.profile m <;> rfl
    rw [hnews]
    exact tellings_receive h.orderly m
  | resume t r =>
    have hidle (hstep : s.step (.resume t r) = ⟨s, []⟩) : TellTurn s whos (.resume t r) := by
      refine .apart ?_ ?_
      · rw [hstep]
        exact .idle s
      · rw [hstep]
        exact (List.append_nil _).symm
    cases hk : s.tasks[t]? with
    | none =>
      refine hidle ?_
      show s.resume t r = _
      rw [resume, hk]
    | some k =>
      obtain ⟨job, p⟩ := k
      by_cases hpublish : ∃ n, job = .publish n
      · obtain ⟨n, rfl⟩ := hpublish
        by_cases runs : p.Runs r
        · obtain ⟨q, ran⟩ := h.exists_ran distinct hk runs
          exact .run t n p q r rfl hk runs ran
        · exact hidle (h.step_of_not_runs hk runs fun heq => spares.2 t n (jobOf_of_get hk) (by rw [heq]))
      · have hnot (n : Notification) : job ≠ .publish n := fun heq => hpublish ⟨n, heq⟩
        have hof := h.orderly t _ _ (jobOf_of_get hk) (progressOf_of_get hk)
        have hends : p.endsOthers = false := by
          cases p with
          | closingChannel | awaitingReader =>
            obtain rfl : job = .call .dispose := hof
            exact absurd (jobOf_of_get hk) (h.undisposed t)
          | _ => rfl
        exact .apart (.resume hk hnot hends r)
          ((tellings_resume h.orderly hk hnot r).trans (List.append_nil _).symm)

end Attuned

/-- Who is left depends on the subscriptions only. -/
theorem untold_congr {s s' : Session} (bus : s'.bus = s.bus) (subscribers : s'.subscribers = s.subscribers) :
    s'.untold = s.untold := by
  have haudience : s'.audience = s.audience := by
    funext rs
    rw [audience, audience, subscribers]
  funext p
  unfold untold hearers
  rw [haudience, bus]

namespace TellTurn

variable {s : Session} {whos : List Subscriber} {u : Turn} (h : TellTurn s whos u)
include h

theorem bus : (s.step u).session.bus = s.bus := by
  cases h with
  | apart unheard => exact unheard.bus
  | run t n p q r turn here runs ran => rw [ran.moved, bus_moveTask]

theorem subscribers : (s.step u).session.subscribers = s.subscribers := by
  cases h with
  | apart unheard => exact unheard.subscribers
  | run t n p q r turn here runs ran => rw [ran.moved, subscribers_moveTask]

theorem untold : (s.step u).session.untold = s.untold := untold_congr h.bus h.subscribers

/-- A message of which someone is to be told is still one. -/
theorem owes? (who : Subscriber) : (s.step u).session.owes? who = s.owes? who := by
  funext x
  unfold Session.owes?
  rw [h.untold]

end TellTurn

/-- **Subscribers stay attuned** as long as nobody disposes of the session. -/
theorem Attuned.step {s : Session} {whos : List Subscriber} (h : Attuned s whos)
    (distinct : (whos.map Subscriber.name).Nodup) {u : Turn} (spares : Spares s u) :
    Attuned (s.step u).session whos := by
  have hturn := h.tellTurn_step distinct spares
  have haudience (rs : List Bus.Subscription) : (s.step u).session.audience rs = s.audience rs := by
    rw [audience, audience, hturn.subscribers]
  refine ⟨h.orderly.step u, fun t ht => ?_, hturn.bus ▸ h.opened, ?_, fun x hx who rest hstage => ?_⟩
  · cases hj : s.jobOf t with
    | some job =>
      obtain rfl : job = .call .dispose := Option.some.inj ((h.orderly.jobOf_step u hj).symm.trans ht)
      exact h.undisposed t hj
    | none => exact spares.1 (h.orderly.jobOf_fresh hj ht).1
  · exact (congrFun hturn.untold .created).trans h.hearers
  · rw [haudience]
    cases hturn with
    | apart unheard added =>
      rw [added] at hx
      rcases List.mem_append.mp hx with hx | hx
      · exact h.paused x hx who rest hstage
      · obtain ⟨n, -, rfl⟩ := List.mem_map.mp hx
        cases hstage
    -- a telling that went on stops at one of those it had left; all others are where they were
    | run t n p q r turn here runs ran =>
      obtain ⟨hsplit, hmoved⟩ := tellings_moveTask here q
      rw [ran.moved, hmoved] at hx
      have hold (hmem : x ∈ s.tellings) := h.paused x hmem who rest hstage
      rw [hsplit] at hold
      rcases List.mem_append.mp hx with hx | hx
      · exact hold (List.mem_append_left _ hx)
      rcases List.mem_cons.mp hx with rfl | hx
      · rcases ran.next with rfl | ⟨_, _, rfl, hpauses, hsuffix, -⟩
        · cases hstage
        · cases hstage
          exact ⟨hpauses, hsuffix.trans (h.untold_suffix (mem_tellings here))⟩
      · exact hold (List.mem_append_right _ (List.mem_cons_of_mem _ hx))

/-! ## Counting -/

/-- What a turn does to the messages of which a subscriber is still to be told. -/
inductive OwedTurn (s : Session) (who : Subscriber) (u : Turn) : Prop where
  /-- The subscriber is not told, and what comes in is still to be told. -/
  | apart (silent : invocations who (s.step u).effects = [])
      (added : (s.step u).session.owed who = s.owed who ++ newsIn s.profile [u])
  /-- The subscriber is told of a message. -/
  | told (t : Nat) (n : Notification) (p q : Progress) (behind : List Notification)
      (here : s.tasks[t]? = some ⟨.publish n, p⟩) (moved : (s.step u).session = s.moveTask t q)
      (invoked : invocations who (s.step u).effects = [n]) (stale : newsIn s.profile [u] = [])
      (owed : s.owed who = (s.tellingsBefore t).filterMap (s.owes? who) ++ n :: behind)
      (left : (s.step u).session.owed who = (s.tellingsBefore t).filterMap (s.owes? who) ++ behind)
      (done : who ∉ s.untold q)

/-- A run of a telling tells a subscriber of its message if it reaches the subscriber, and of nothing else. -/
theorem Attuned.owed_run {s : Session} {whos : List Subscriber} (h : Attuned s whos)
    (distinct : (whos.map Subscriber.name).Nodup) {who : Subscriber} (hwho : who ∈ whos) {u : Turn}
    (howes : (s.step u).session.owes? who = s.owes? who) (stale : newsIn s.profile [u] = []) {t : Nat}
    {n : Notification} {p q : Progress} (here : s.tasks[t]? = some ⟨.publish n, p⟩)
    (ran : Ran s whos t n p q (s.step u)) : OwedTurn s who u := by
  obtain ⟨hsplit, hmoved⟩ := tellings_moveTask here q
  have hparts : toldFirst (s.untold p) ++ s.untold q = s.untold p :=
    ran.later ▸ toldFirst_append_toldLater (s.untold p)
  have hbefore : s.owed who = (s.tellingsBefore t).filterMap (s.owes? who) ++
      ((s.owes? who ⟨n, p⟩).toList ++
        ((s.tasks.drop (t + 1)).filterMap Task.telling?).filterMap (s.owes? who)) := by
    unfold owed
    rw [hsplit, List.filterMap_append, filterMap_cons_toList]
  have hafter : (s.step u).session.owed who = (s.tellingsBefore t).filterMap (s.owes? who) ++
      ((s.owes? who ⟨n, q⟩).toList ++
        ((s.tasks.drop (t + 1)).filterMap Task.telling?).filterMap (s.owes? who)) := by
    unfold owed
    rw [howes, ran.moved, hmoved, List.filterMap_append, filterMap_cons_toList]
  by_cases hfirst : who ∈ toldFirst (s.untold p)
  · have hdone : who ∉ s.untold q := by
      have hnodup : (toldFirst (s.untold p) ++ s.untold q).Nodup := by
        rw [hparts]
        exact (List.Nodup.of_map _ distinct).sublist (h.untold_suffix (mem_tellings here)).sublist
      exact fun hmem => (List.nodup_append.mp hnodup).2.2 who hfirst who hmem rfl
    have howed : s.owes? who ⟨n, p⟩ = some n := if_pos (hparts ▸ List.mem_append_left _ hfirst)
    have hleft : s.owes? who ⟨n, q⟩ = none := if_neg hdone
    rw [howed] at hbefore
    rw [hleft] at hafter
    refine .told t n p q _ here ran.moved ?_ stale hbefore hafter hdone
    rw [ran.told who hwho, if_pos hfirst]
  · have hsame : s.owes? who ⟨n, q⟩ = s.owes? who ⟨n, p⟩ := by
      have hiff : who ∈ s.untold q ↔ who ∈ s.untold p := by
        rw [← hparts, List.mem_append]
        exact (or_iff_right hfirst).symm
      unfold owes?
      simp only [hiff]
    refine .apart ?_ ?_
    · rw [ran.told who hwho, if_neg hfirst]
    · rw [hafter, hsame, ← hbefore, stale, List.append_nil]

/-- **A turn tells a subscriber of one message of which it is still to be told, or of none.** -/
theorem Attuned.owed_step {s : Session} {whos : List Subscriber} (h : Attuned s whos)
    (distinct : (whos.map Subscriber.name).Nodup) {who : Subscriber} (hwho : who ∈ whos) {u : Turn}
    (spares : Spares s u) : OwedTurn s who u := by
  have hturn := h.tellTurn_step distinct spares
  have howes := hturn.owes? who
  cases hturn with
  | apart unheard added =>
    refine .apart (invocations_of_silent unheard.silent who) ?_
    have hnew (n : Notification) : s.owes? who ⟨n, .created⟩ = some n := by
      refine if_pos ?_
      show who ∈ s.hearers
      rw [h.hearers]
      exact hwho
    unfold owed
    rw [howes, added, List.filterMap_append, List.filterMap_map]
    congr 1
    exact (List.filterMap_congr fun n _ => hnew n).trans List.filterMap_some
  | run t n p q r turn here runs ran =>
    have hstale : newsIn s.profile [u] = [] := by
      rw [turn]
      rfl
    exact h.owed_run distinct hwho howes hstale here ran

/-- Nobody disposes of the session in a history, and no telling gives up. -/
def Undisturbed (s : Session) : List Turn → Prop
  | [] => True
  | u :: hs => Spares s u ∧ (s.step u).session.Undisturbed hs

theorem invocations_cons (s : Session) (who : Subscriber) (u : Turn) (hs : List Turn) :
    invocations who (s.run (u :: hs)).effects =
      invocations who (s.step u).effects ++ invocations who ((s.step u).session.run hs).effects :=
  invocations_append who _ _

section

variable {whos : List Subscriber} (distinct : (whos.map Subscriber.name).Nodup)
include distinct

theorem Attuned.after {s : Session} {hs : List Turn} (h : Attuned s whos) (undisturbed : Undisturbed s hs) :
    Attuned (s.after hs) whos := by
  induction hs generalizing s with
  | nil => exact h
  | cons u hs ih => exact ih (h.step distinct undisturbed.1) undisturbed.2

/-- **Every subscriber is told of every message once**, in every order of turns: what it was told of, and
what it is still to be told of, are the messages that it was to be told of at first, and the news. -/
theorem invocations_perm {who : Subscriber} (hwho : who ∈ whos) {s : Session} {hs : List Turn}
    (h : Attuned s whos) (undisturbed : Undisturbed s hs) :
    (invocations who (s.run hs).effects ++ (s.after hs).owed who).Perm (s.owed who ++ newsIn s.profile hs) := by
  induction hs generalizing s with
  | nil =>
    show (s.owed who).Perm (s.owed who ++ [])
    rw [List.append_nil]
  | cons u hs ih =>
    obtain ⟨spares, hrest⟩ := undisturbed
    have hlater := ih (h.step distinct spares) hrest
    rw [profile_step h.orderly u] at hlater
    rw [invocations_cons, after_cons, newsIn_cons, List.append_assoc]
    -- after the first turn the law is that of the rest; a message told by it is taken from those owed
    refine (hlater.append_left _).trans ?_
    rw [← List.append_assoc, ← List.append_assoc]
    refine List.Perm.append_right _ ?_
    cases h.owed_step distinct hwho spares with
    | apart silent added => rw [silent, added, List.nil_append]
    | told t n p q behind here moved invoked stale owed left =>
      rw [invoked, left, owed, stale, List.append_nil]
      show (n :: (_ ++ behind)).Perm _
      exact List.perm_middle.symm

end

end EditorServices.Session
