import EditorServices.Proofs.Lists
import EditorServices.Proofs.Session.DocumentChanges
import EditorServices.Proofs.Session.Ending
import EditorServices.Proofs.Session.NewTasks

/-!
# `Proofs.Session.Requests` — what becomes of the requests of the server

A request of the server adds a task for its answer, and the task sends the answer in its first turn. In
between the answer has not begun. This file says what every turn does to the answers that have not begun:
a request adds one at the end, the first turn of an answer takes that one away and sends what is due, and
every other turn leaves them as they are and sends no answer.

## Contents
- **What is due.** `answering?`, the task that a message adds, and `due?`, the answer that it gets; `dues`
  says which messages get one.
- **Unbegun answers.** `unbegun`, and what a message adds to them.
- **Sending.** `sending_of_send`: only answers and calls hand messages over.
- **One turn.** `answerTurn_step`, what a turn does to the answers of an `Attentive` session.
-/

namespace EditorServices.Session

/-! ## What is due -/

/-- A report on the document whose diagnostics cannot be run through. It is not handled any further. -/
def Profile.refuses (p : Profile) (method params : Json) : Bool :=
  match method, params with
  | .str m, .obj ms => m = diagnosticsMethod && decide (Named.get? ms "uri" = some (.str p.uri)) &&
      (Json.field (.obj ms) "diagnostics").partsOrNone?.isNone
  | _, _ => false

/-- The job of answering a message, if it is one that is answered at all. -/
def answering? (p : Profile) : Json → Option Job
  | .obj ms =>
    match Named.get? ms "method", Named.get? ms "id" with
    | some method, some id =>
      let params := Json.field (.obj ms) "params"
      if p.refuses method params then none else some (.answer id method params)
    | _, _ => none
  | _ => none

/-- What a job sends to the server as an answer, if it comes to it. -/
def Job.due? (p : Profile) : Job → Option Json
  | .answer id method params => (answerTo p method params).toOption.map (response id)
  | _ => none

/-- The answer that a message gets, if any. -/
def due? (p : Profile) (m : Json) : Option Json := (answering? p m).bind (Job.due? p)

def Job.isAnswer : Job → Bool
  | .answer _ _ _ => true
  | _ => false

variable {s : Session} {p : Profile} {t : Nat} {job : Job}

theorem noticeDiagnostics_eq_none {method params : Json} :
    s.noticeDiagnostics method params = none ↔ s.profile.refuses method params = true := by
  unfold noticeDiagnostics Profile.refuses
  split
  · next m ms =>
    by_cases hm : m = diagnosticsMethod
    · rw [if_pos hm]
      unfold receiveDiagnostics
      by_cases huri : Named.get? ms "uri" = some (.str s.profile.uri)
      · rw [if_pos huri]
        dsimp only
        cases (Json.field (.obj ms) "diagnostics").partsOrNone? with
        | none => simp [hm, huri]
        | some entries => simp
      · rw [if_neg huri]
        simp [huri]
    · rw [if_neg hm]
      simp [hm]
  · simp

theorem answering?_of_request {ms : Members} {method id : Json} (hmethod : Named.get? ms "method" = some method)
    (hid : Named.get? ms "id" = some id) : answering? p (.obj ms) =
      if p.refuses method (Json.field (.obj ms) "params") then none
      else some (.answer id method (Json.field (.obj ms) "params")) := by
  unfold answering?
  dsimp only
  rw [hmethod, hid]

theorem answering?_of_no_method {ms : Members} (hmethod : Named.get? ms "method" = none) :
    answering? p (.obj ms) = none := by
  unfold answering?
  dsimp only
  rw [hmethod]

theorem answering?_of_no_id {ms : Members} (hid : Named.get? ms "id" = none) :
    answering? p (.obj ms) = none := by
  unfold answering?
  dsimp only
  rw [hid]
  split
  · next heq => cases heq
  · rfl

/-- What keeps a request from being answered. -/
inductive Unanswerable (p : Profile) (ms : Members) : Json → Prop where
  /-- It asks for configuration of items that cannot be run through. -/
  | items (asked : Members) (items : Json) (params : Named.get? ms "params" = some (.obj asked))
      (given : Named.get? asked "items" = some items) (partless : items.parts? = none) :
      Unanswerable p ms (.str "workspace/configuration")
  /-- It reports on the document, with diagnostics that cannot be run through. -/
  | report (method : Json) (refused : p.refuses method (Json.field (.obj ms) "params") = true) :
      Unanswerable p ms method

/-- Configuration is given for each item that is asked for, or not at all. -/
theorem configurationAnswer_cases (ms : Members) :
    (∃ result, configurationAnswer (Json.field (.obj ms) "params") = .ok result ∧
      ∀ asked items, Named.get? ms "params" = some (.obj asked) →
        Named.get? asked "items" = some (.arr items) → result = .arr (items.map fun _ => .obj [])) ∨
    (∃ f, configurationAnswer (Json.field (.obj ms) "params") = .error f) ∧
      Unanswerable p ms (.str "workspace/configuration") := by
  have hfield : Json.field (.obj ms) "params" = (Named.get? ms "params").getD .null := rfl
  rw [hfield]
  cases hparams : Named.get? ms "params" with
  | none =>
    refine .inl ⟨.arr [], rfl, fun asked items hasked => ?_⟩
    cases hasked
  | some params =>
    cases params with
    | obj asked =>
      cases hitems : Named.get? asked "items" with
      | none =>
        refine .inl ⟨.arr [], ?_, fun asked' items hasked hlist => ?_⟩
        · simp [configurationAnswer, hitems, Json.parts?]
        · cases hasked
          rw [hitems] at hlist
          cases hlist
      | some items =>
        cases hparts : items.parts? with
        | none =>
          refine .inr ⟨⟨.wrongKind, ?_⟩, .items asked items hparams hitems hparts⟩
          simp [configurationAnswer, hitems, hparts]
        | some xs =>
          refine .inl ⟨.arr (xs.map fun _ => .obj []), ?_, fun asked' list hasked hlist => ?_⟩
          · simp [configurationAnswer, hitems, hparts]
          · cases hasked
            rw [hitems] at hlist
            cases hlist
            cases hparts
            rfl
    | null | bool _ | int _ | float _ | str _ | arr _ =>
      refine .inl ⟨.arr [], rfl, fun asked items hasked => ?_⟩
      cases hasked

/-- Only configuration can be without an answer. -/
theorem answerTo_of_ne {method : Json} (hmethod : method ≠ .str "workspace/configuration") (params : Json) :
    ∃ result, answerTo p method params = .ok result := by
  unfold answerTo
  rw [if_neg hmethod]
  split
  · exact ⟨_, rfl⟩
  · exact ⟨_, rfl⟩

theorem due?_of_request {ms : Members} {method id : Json} (hmethod : Named.get? ms "method" = some method)
    (hid : Named.get? ms "id" = some id) : due? p (.obj ms) =
      if p.refuses method (Json.field (.obj ms) "params") then none
      else (answerTo p method (Json.field (.obj ms) "params")).toOption.map (response id) := by
  unfold due?
  rw [answering?_of_request hmethod hid]
  split
  · rfl
  · rfl

/-- What answers the messages of the server get. -/
structure Dues (p : Profile) : Prop where
  /-- A request with a text as its method gets an answer under its own id, an empty object for each item if
  it asks for configuration; the exceptions are named. -/
  request : ∀ ms method id, Named.get? ms "method" = some (.str method) → Named.get? ms "id" = some id →
    (∃ result, due? p (.obj ms) = some (response id result) ∧
      (method = "workspace/configuration" → ∀ asked items, Named.get? ms "params" = some (.obj asked) →
        Named.get? asked "items" = some (.arr items) → result = .arr (items.map fun _ => .obj []))) ∨
    due? p (.obj ms) = none ∧ Unanswerable p ms (.str method)
  /-- So does a request with another method; it gets null. -/
  odd : ∀ ms method id, Named.get? ms "method" = some method → (∀ text, method ≠ .str text) →
    Named.get? ms "id" = some id → due? p (.obj ms) = some (response id .null)
  /-- Nothing else is answered. -/
  other : ∀ m, (∀ ms, m = .obj ms → Named.get? ms "method" = none ∨ Named.get? ms "id" = none) →
    due? p m = none

/-- **The answers to requests.** -/
theorem dues (p : Profile) : Dues p := by
  refine ⟨fun ms method id hmethod hid => ?_, fun ms method id hmethod hodd hid => ?_, fun m hm => ?_⟩
  · rw [due?_of_request hmethod hid]
    by_cases hrefuses : p.refuses (.str method) (Json.field (.obj ms) "params") = true
    · rw [if_pos hrefuses]
      exact .inr ⟨rfl, .report _ hrefuses⟩
    rw [if_neg hrefuses]
    by_cases hconfiguration : method = "workspace/configuration"
    · subst hconfiguration
      have hanswer : answerTo p (.str "workspace/configuration") (Json.field (.obj ms) "params") =
          configurationAnswer (Json.field (.obj ms) "params") := if_pos rfl
      rw [hanswer]
      rcases configurationAnswer_cases (p := p) ms with ⟨result, hresult, hitems⟩ | ⟨⟨f, hf⟩, hnone⟩
      · rw [hresult]
        exact .inl ⟨result, rfl, fun _ => hitems⟩
      · rw [hf]
        exact .inr ⟨rfl, hnone⟩
    · have hother : Json.str method ≠ .str "workspace/configuration" := by
        intro heq
        exact hconfiguration (Json.str.inj heq)
      obtain ⟨result, hresult⟩ := answerTo_of_ne (p := p) hother (Json.field (.obj ms) "params")
      rw [hresult]
      exact .inl ⟨result, rfl, fun heq => absurd heq hconfiguration⟩
  · have hhandled : p.refuses method (Json.field (.obj ms) "params") = false := by
      unfold Profile.refuses
      split
      · next text _ _ => exact absurd rfl (hodd text)
      · rfl
    rw [due?_of_request hmethod hid, hhandled]
    unfold answerTo
    rw [if_neg (hodd _), if_neg (hodd _)]
    rfl
  · unfold due?
    cases m with
    | null | bool _ | int _ | float _ | str _ | arr _ => rfl
    | obj ms =>
      rcases hm ms rfl with hmethod | hid
      · rw [answering?_of_no_method hmethod]
        rfl
      · rw [answering?_of_no_id hid]
        rfl

/-! ## Unbegun answers -/

/-- A task is an answer that waits for its first turn. -/
def Task.isUnbegun (k : Task) : Bool := k.job.isAnswer && decide (k.progress = .created)

/-- The answers that have not begun, in the order in which the requests came. -/
def unbegun (s : Session) : List Nat :=
  (List.range s.tasks.length).filter fun t => (s.tasks[t]?).any Task.isUnbegun

/-- A task is for answering. -/
def isAnswering (s : Session) (t : Nat) : Bool := (s.jobOf t).any Job.isAnswer

/-- What a task sends to the server as an answer, if it comes to it. -/
def dueFor (s : Session) (t : Nat) : Option Json := (s.jobOf t).bind (Job.due? s.profile)

theorem mem_unbegun {s : Session} {t : Nat} : t ∈ s.unbegun ↔ (s.tasks[t]?).any Task.isUnbegun = true := by
  unfold unbegun
  rw [List.mem_filter, List.mem_range]
  refine ⟨And.right, fun h => ⟨?_, h⟩⟩
  cases hk : s.tasks[t]? with
  | none =>
    rw [hk] at h
    cases h
  | some k => exact (List.getElem?_eq_some_iff.mp hk).1

theorem isUnbegun_of_views {q : Progress} (hj : s.jobOf t = some job) (hp : s.progressOf t = some q) :
    (s.tasks[t]?).any Task.isUnbegun = (job.isAnswer && decide (q = .created)) := by
  rw [task_of_views hj hp]
  rfl

theorem exists_of_mem_unbegun (h : t ∈ s.unbegun) :
    ∃ id method params, s.jobOf t = some (.answer id method params) ∧ s.progressOf t = some .created := by
  rw [mem_unbegun] at h
  cases hk : s.tasks[t]? with
  | none =>
    rw [hk] at h
    cases h
  | some k =>
    obtain ⟨job, q⟩ := k
    rw [hk] at h
    have hboth : job.isAnswer = true ∧ decide (q = .created) = true := Bool.and_eq_true_iff.mp h
    obtain ⟨hjob, hcreated⟩ := hboth
    cases job with
    | answer id method params =>
      refine ⟨id, method, params, jobOf_of_get hk, ?_⟩
      rw [progressOf_of_get hk, of_decide_eq_true hcreated]
    | call | listen | publish => cases hjob

/-- Sessions of as many tasks, of which the same are unbegun. -/
theorem unbegun_congr {s s' : Session} (hlength : s'.tasks.length = s.tasks.length)
    (hsame : ∀ v < s.tasks.length, (s'.tasks[v]?).any Task.isUnbegun = (s.tasks[v]?).any Task.isUnbegun) :
    s'.unbegun = s.unbegun := by
  unfold unbegun
  rw [hlength]
  refine List.filter_congr fun v hv => ?_
  exact hsame v (List.mem_range.mp hv)

/-- A session in which one answer less is unbegun. -/
theorem unbegun_erase {s s' : Session} (hlength : s'.tasks.length = s.tasks.length)
    (hsame : ∀ v < s.tasks.length, v ≠ t →
      (s'.tasks[v]?).any Task.isUnbegun = (s.tasks[v]?).any Task.isUnbegun)
    (hbegun : (s'.tasks[t]?).any Task.isUnbegun = false) : s'.unbegun = s.unbegun.erase t := by
  have hnodup : s.unbegun.Nodup := List.nodup_range.filter _
  rw [hnodup.erase_eq_filter]
  unfold unbegun
  rw [hlength, List.filter_filter]
  refine List.filter_congr fun v hv => ?_
  by_cases hvt : v = t
  · subst hvt
    rw [hbegun, bne_self_eq_false, Bool.false_and]
  · rw [hsame v (List.mem_range.mp hv) hvt, bne_iff_ne.mpr hvt, Bool.true_and]

/-- A session with one task more. -/
theorem unbegun_concat {s s' : Session} {k : Task} (htasks : s'.tasks = s.tasks ++ [k]) :
    s'.unbegun = s.unbegun ++ if k.isUnbegun then [s.tasks.length] else [] := by
  unfold unbegun
  rw [htasks, List.length_append, List.length_singleton, List.range_succ, List.filter_append]
  congr 1
  · refine List.filter_congr fun v hv => ?_
    rw [List.getElem?_append_left (List.mem_range.mp hv)]
  · rw [List.filter_cons, List.filter_nil, List.getElem?_concat_length]
    rfl

theorem Kept.unbegun {s s' : Session} (h : Kept s s') (hlength : s'.tasks.length = s.tasks.length) :
    s'.unbegun = s.unbegun := by
  refine unbegun_congr hlength fun v hv => ?_
  have hk : s.tasks[v]? = some s.tasks[v] := List.getElem?_eq_getElem hv
  obtain ⟨q, hq, hpq⟩ := h.stage (progressOf_of_get hk)
  rw [isUnbegun_of_views (h.job (jobOf_of_get hk)) hq, hk]
  show (s.tasks[v].job.isAnswer && decide (q = .created)) =
    (s.tasks[v].job.isAnswer && decide (s.tasks[v].progress = .created))
  congr 1
  by_cases hcreated : s.tasks[v].progress = .created
  · rw [hcreated] at hpq
    rw [hpq.eq_of_wait? rfl, hcreated]
  · rw [decide_eq_false hcreated, decide_eq_false (hpq.ne_created hcreated)]

/-- What a report says makes no task. -/
theorem tasks_noticeDiagnostics {method params : Json} {r : Turned}
    (h : s.noticeDiagnostics method params = some r) : r.session.tasks = s.tasks := by
  have hsame : ∀ {r : Turned}, some (⟨s, []⟩ : Turned) = some r → r.session.tasks = s.tasks := by
    rintro r ⟨⟩
    rfl
  unfold noticeDiagnostics at h
  split at h
  · split at h
    · unfold receiveDiagnostics at h
      split at h
      · split at h
        · cases h
        · cases h
          rfl
      · exact hsame h
    · exact hsame h
  · exact hsame h

/-- Telling subscribers adds no answer. -/
theorem unbegun_tellOf (s : Session) (id : Option Json) (method params : Json) :
    (s.tellOf id method params).session.unbegun = s.unbegun := by
  unfold tellOf
  split
  · next m =>
    have htasks : (s.spawn (.publish ⟨m, params, id.getD .null⟩)).session.tasks =
        s.tasks ++ [⟨.publish ⟨m, params, id.getD .null⟩, .created⟩] := rfl
    rw [unbegun_concat htasks]
    exact List.append_nil _
  · rfl

/-- A request adds its answer to those that have not begun. -/
theorem unbegun_answerRequest (s : Session) (id method params : Json) :
    (s.answerRequest (some id) method params).session.unbegun = s.unbegun ++ [s.tasks.length] := by
  have htasks : (s.answerRequest (some id) method params).session.tasks =
      s.tasks ++ [⟨.answer id method params, .created⟩] := rfl
  rw [unbegun_concat htasks]
  rfl

/-- What a request comes to that is not refused. -/
theorem receive_request {ms : Members} {method id : Json} (hmethod : Named.get? ms "method" = some method)
    (hid : Named.get? ms "id" = some id)
    (handled : ¬s.profile.refuses method (Json.field (.obj ms) "params") = true) :
    ∃ noticed : Turned, noticed.session.tasks = s.tasks ∧ s.receive (.obj ms) =
      (noticed.andThen fun q => q.answerRequest (some id) method (Json.field (.obj ms) "params")).andThen
        fun q => q.tellOf (some id) method (Json.field (.obj ms) "params") := by
  unfold receive
  dsimp only
  rw [hmethod]
  dsimp only
  unfold receiveMethod
  dsimp only
  rw [hid]
  cases hnoticed : s.noticeDiagnostics method (Json.field (.obj ms) "params") with
  | none => exact absurd (noticeDiagnostics_eq_none.mp hnoticed) handled
  | some noticed => exact ⟨noticed, tasks_noticeDiagnostics hnoticed, rfl⟩

/-- What is no request, or is refused, adds no answer. -/
theorem unbegun_receive_of_none {m : Json} (h : answering? s.profile m = none) :
    (s.receive m).session.unbegun = s.unbegun := by
  cases m with
  | null | bool _ | int _ | float _ | str _ | arr _ => rfl
  | obj ms =>
    have hkept := Kept.receive s (.obj ms)
    unfold receive at hkept ⊢
    dsimp only at hkept ⊢
    cases hmethod : Named.get? ms "method" with
    | none =>
      rw [hmethod] at hkept
      refine hkept.unbegun ?_
      show (s.receiveResponse ms).session.tasks.length = _
      unfold receiveResponse
      dsimp only
      split
      · split
        · exact (spawns_reply (s.dropRequest _) _ _).length
        · rfl
      · rfl
    | some method =>
      show (s.receiveMethod ms method).session.unbegun = _
      unfold receiveMethod
      dsimp only
      cases hnoticed : s.noticeDiagnostics method (Json.field (.obj ms) "params") with
      | none => rfl
      | some noticed =>
        have hunbegun : noticed.session.unbegun = s.unbegun := by
          unfold unbegun
          rw [tasks_noticeDiagnostics hnoticed]
        cases hid : Named.get? ms "id" with
        | none => exact (unbegun_tellOf _ _ _ _).trans hunbegun
        | some id =>
          -- a request is refused only if its report is
          rw [answering?_of_request hmethod hid] at h
          split at h
          · next hrefuses =>
            rw [noticeDiagnostics_eq_none.mpr hrefuses] at hnoticed
            cases hnoticed
          · cases h

/-- **A request adds its answer to those that have not begun**, and starts it. -/
theorem answers_receive {m : Json} (h : answering? s.profile m = some job) :
    (s.receive m).session.unbegun = s.unbegun ++ [s.tasks.length] ∧
      (s.receive m).session.jobOf s.tasks.length = some job ∧
      .start s.tasks.length ∈ (s.receive m).effects := by
  cases m with
  | null | bool _ | int _ | float _ | str _ | arr _ => cases h
  | obj ms =>
    cases hmethod : Named.get? ms "method" with
    | none =>
      rw [answering?_of_no_method hmethod] at h
      cases h
    | some method =>
      cases hid : Named.get? ms "id" with
      | none =>
        rw [answering?_of_no_id hid] at h
        cases h
      | some id =>
        rw [answering?_of_request hmethod hid] at h
        split at h
        · cases h
        next handled =>
        cases h
        obtain ⟨noticed, htasks, hreceive⟩ := receive_request hmethod hid handled
        have hunbegun : noticed.session.unbegun = s.unbegun := by
          unfold unbegun
          rw [htasks]
        rw [hreceive]
        refine ⟨?_, ?_, ?_⟩
        · rw [Turned.session_andThen, unbegun_tellOf, Turned.session_andThen, unbegun_answerRequest, hunbegun,
            htasks]
        · rw [Turned.session_andThen]
          have hanswer : (noticed.session.answerRequest (some id) method
              (Json.field (.obj ms) "params")).session.tasks[s.tasks.length]? =
                some ⟨.answer id method (Json.field (.obj ms) "params"), .created⟩ := by
            show (noticed.session.tasks ++ [_])[s.tasks.length]? = _
            rw [htasks, List.getElem?_concat_length]
          exact jobOf_of_get ((Grown.tellOf _ _ _ _).get hanswer)
        · rw [Turned.effects_andThen, Turned.effects_andThen, ← htasks]
          exact List.mem_append_left _ (List.mem_append_right _ (List.mem_singleton_self _))

/-! ## Sending -/

/-- Why a message is handed over to the server, in a session without a handshake. -/
inductive Sending (s : Session) : Turn → Nat → Prop where
  /-- An answer begins. -/
  | answer (t : Nat) (mem : t ∈ s.unbegun) : Sending s (.resume t .begins) t
  /-- A call begins. -/
  | call (t : Nat) (c : Call) (job : s.jobOf t = some (.call c)) : Sending s (.resume t .begins) t
  /-- An opening has the text of its file. -/
  | read (t : Nat) (text : String) (job : s.jobOf t = some (.call .openDocument))
      (reading : s.progressOf t = some .reading) : Sending s (.resume t (.returned (.ok text))) t

/-- What is handed over by no unbegun answer is not handed over by an answer. -/
theorem Sending.isAnswering_of_not_mem {u : Turn} (h : Sending s u t) (hnot : t ∉ s.unbegun) :
    s.isAnswering t = false := by
  cases h with
  | answer t mem => exact absurd mem hnot
  | call t c job | read t text job =>
    unfold isAnswering
    rw [job]
    rfl

/-- A turn of a task that sends is its first, or its stage is one for sending. -/
theorem sendsNext_of_send {q : Progress} {r : Resumption} {v : Nat} {m : Json}
    (hk : s.tasks[t]? = some ⟨job, q⟩) (h : .perform v (.send m) ∈ (s.resume t r).effects) :
    r = .begins ∨ q.sendsNext = true := by
  refine Decidable.not_not.mp fun hnot => ?_
  have hallowed := allowed_resume_of_stage s t (some .cancelled) hk r (fun hsends => absurd hsends hnot)
    fun _ => rfl
  exact absurd (hallowed _ h).2 (by simp)

/-- What is over in a turn, or tells subscribers, sends nothing. -/
theorem not_send_of_allowed {r : Turned} {v : Nat} {m : Json} (h : r.Allowed (some .cancelled) [] job t) :
    .perform v (.send m) ∉ r.effects := by
  intro hmem
  exact absurd (h _ hmem).2 (by simp)

/-- A first turn that sends is that of an answer or of a call. -/
theorem sending_begins {q : Progress} (hk : s.tasks[t]? = some ⟨job, q⟩) {v : Nat} {m : Json}
    (h : .perform v (.send m) ∈ (s.resume t .begins).effects) : Sending s (.resume t .begins) t := by
  have hcreated : q = .created := by
    rw [resume, hk] at h
    cases q with
    | created => rfl
    | _ => cases h
  subst hcreated
  cases job with
  | call c => exact .call t c (jobOf_of_get hk)
  | answer id method params =>
    refine .answer t ?_
    rw [mem_unbegun, hk]
    rfl
  | listen =>
    rw [resume, hk] at h
    exact absurd h (by simp [begin])
  | publish n =>
    rw [resume, hk] at h
    have htelling : (s.beginPublish t n).Allowed (some .cancelled) [] (.publish n) t := by
      unfold beginPublish
      split
      · exact allowed_finish s t _ _
      · exact allowed_tell s t _ _ _
    exact absurd h (not_send_of_allowed htelling)

/-- A task that waits for a file sends when it has the text. -/
theorem sending_reading (hk : s.tasks[t]? = some ⟨.call .openDocument, .reading⟩)
    {r : Resumption} {v : Nat} {m : Json} (h : .perform v (.send m) ∈ (s.resume t r).effects) :
    Sending s (.resume t r) t := by
  have hover (o : Except Failure Answer) : .perform v (.send m) ∉ (s.finish t o).effects := by
    have hending : (s.finish t o).Allowed (some .cancelled) [] .listen t := allowed_finish s t _ o
    exact not_send_of_allowed hending
  rw [resume, hk] at h
  cases r with
  | returned x =>
    cases x with
    | ok text => exact .read t text (jobOf_of_get hk) (progressOf_of_get hk)
    | error f => exact absurd h (hover _)
  | cancelled => exact absurd h (hover _)
  | begins | replied | rested | streamEnded | readerFinished => cases h

/-- **Only answers and calls hand messages over** while no handshake is on its way: in their first turn,
and an opening when it has read its file. -/
theorem sending_of_send (ho : Orderly s) (hs : Shaken s) {u : Turn} {m : Json}
    (h : .perform t (.send m) ∈ (s.step u).effects) : Sending s u t := by
  obtain ⟨hu, job, hj, -⟩ := operation_of_perform h
  obtain ⟨r, rfl⟩ := Turn.exists_resume hu
  obtain ⟨⟨job', q⟩, hk, rfl⟩ := Option.map_eq_some_iff.mp hj
  rcases sendsNext_of_send hk h with rfl | hsends
  · exact sending_begins hk h
  -- of the later stages, the handshake has two that send
  have hof := ho t _ _ (jobOf_of_get hk) (progressOf_of_get hk)
  have hshaken (hcall : job' = .call .handshake) (hnot : q ≠ .finished) : False := by
    refine hs.not_active (hcall ▸ jobOf_of_get hk) ?_
    rw [progressOf_of_get hk]
    exact fun heq => hnot (Option.some.inj heq)
  cases q with
  | openingChannel => exact (hshaken hof (by simp)).elim
  | requesting purpose id written reply =>
    cases purpose with
    | handshake => exact (hshaken hof (by simp)).elim
    | ask q => cases hsends
  | reading =>
    obtain rfl : job' = .call .openDocument := hof
    exact sending_reading hk h
  | created | announcing | opening | settling | updating | closing | answering | telling | listening
  | closingChannel | awaitingReader | finished => cases hsends

/-! ## One turn -/

/-- A session answers: it takes messages, and no handshake is on its way. -/
structure Attentive (s : Session) : Prop where
  opened : s.refusal? = none
  shaken : Shaken s

/-- What a turn does to the answers that have not begun. -/
inductive AnswerTurn (s : Session) (u : Turn) : Prop where
  /-- A request comes. -/
  | asked (m : Json) (job : Job) (received : u = .receive m) (asks : answering? s.profile m = some job)
      (added : (s.step u).session.unbegun = s.unbegun ++ [s.tasks.length])
      (here : (s.step u).session.jobOf s.tasks.length = some job)
      (started : .start s.tasks.length ∈ (s.step u).effects)
      (silent : (s.step u).effects.filterMap Effect.sent? = [])
  /-- An answer begins, and is handed over if there is one. -/
  | begun (t : Nat) (first : u = .resume t .begins) (mem : t ∈ s.unbegun)
      (removed : (s.step u).session.unbegun = s.unbegun.erase t)
      (sent : (s.step u).effects.filterMap Effect.sent? = (s.dueFor t).toList.map fun m => (t, m))
  /-- Something else. -/
  | apart (unasked : ∀ m, u = .receive m → answering? s.profile m = none)
      (later : ∀ t ∈ s.unbegun, u ≠ .resume t .begins)
      (same : (s.step u).session.unbegun = s.unbegun)
      (sent : ∀ x ∈ (s.step u).effects.filterMap Effect.sent?, s.isAnswering x.1 = false)

theorem mem_sent {es : List Effect} {x : Nat × Json} :
    x ∈ es.filterMap Effect.sent? ↔ .perform x.1 (.send x.2) ∈ es := by
  rw [List.mem_filterMap]
  constructor
  · rintro ⟨e, he, hx⟩
    cases e with
    | perform v o =>
      cases o with
      | send m =>
        cases hx
        exact he
      | openChannel | closeChannel | readFile => cases hx
    | _ => cases hx
  · intro he
    exact ⟨_, he, rfl⟩

/-- A turn that is no task's hands over nothing. -/
theorem sent_of_task?_none {u : Turn} (hu : u.task? = none) :
    (s.step u).effects.filterMap Effect.sent? = [] :=
  sent_eq_nil (allowed_step_of_task?_none s hu (some .cancelled) [] .listen 0)

/-- An answer has begun after its first turn. -/
theorem begun_begins {id method params : Json} (hk : s.tasks[t]? = some ⟨.answer id method params, .created⟩) :
    ∃ q, q ≠ .created ∧ (s.resume t .begins).session = s.moveTask t q := by
  rw [resume, hk]
  show ∃ q, q ≠ .created ∧ (s.beginAnswer t id method params).session = s.moveTask t q
  unfold beginAnswer
  split
  · exact ⟨.finished, by simp, session_finish s t _⟩
  · split
    · exact ⟨.finished, by simp, session_finish s t _⟩
    · refine ⟨s.sending .answering, ?_, session_transmit s t _ _⟩
      unfold sending
      split <;> simp

/-- The first turn of an answer hands over what is due. -/
theorem sent_begins {id method params : Json} (hopen : s.refusal? = none)
    (hk : s.tasks[t]? = some ⟨.answer id method params, .created⟩) :
    (s.resume t .begins).effects.filterMap Effect.sent? = (s.dueFor t).toList.map fun m => (t, m) := by
  have hdue : s.dueFor t = (answerTo s.profile method params).toOption.map (response id) := by
    unfold dueFor
    rw [jobOf_of_get hk]
    rfl
  rw [hdue, resume, hk]
  show (s.beginAnswer t id method params).effects.filterMap Effect.sent? = _
  unfold beginAnswer
  rw [(refusal?_eq_none.mp hopen).1]
  dsimp only
  cases answerTo s.profile method params with
  | error f =>
    have hnothing : (s.giveUp t f).Allowed (some .cancelled) [] .listen t := allowed_finish s t _ _
    exact sent_eq_nil hnothing
  | ok result =>
    dsimp only
    rw [transmit_of_open hopen]
    rfl

/-- No task waits for the channel to be opened. -/
theorem Attentive.ne_openingChannel (ha : Attentive s) (ho : Orderly s) {q : Progress}
    (hk : s.tasks[t]? = some ⟨job, q⟩) : q ≠ .openingChannel := by
  rintro rfl
  obtain rfl : job = .call .handshake := ho t job _ (jobOf_of_get hk) (progressOf_of_get hk)
  refine ha.shaken.not_active (jobOf_of_get hk) ?_
  rw [progressOf_of_get hk]
  simp

/-- The first turn of an answer is the end of its waiting. -/
theorem not_isUnbegun_begins (hmem : t ∈ s.unbegun) :
    ((s.step (.resume t .begins)).session.tasks[t]?).any Task.isUnbegun = false := by
  obtain ⟨id, method, params, hj, hp⟩ := exists_of_mem_unbegun hmem
  obtain ⟨next, hnext, hsession⟩ := begun_begins (task_of_views hj hp)
  show ((s.resume t .begins).session.tasks[t]?).any Task.isUnbegun = false
  rw [hsession, isUnbegun_of_views ((jobOf_moveTask _ _ _ _).trans hj) (progressOf_moveTask_self hp next),
    decide_eq_false hnext, Bool.and_false]

namespace Orderly

variable (ho : Orderly s)
include ho

/-- A turn of a task leaves the others as unbegun as they are. -/
theorem isUnbegun_elsewhere {u : Turn} {v : Nat} (hu : u.task? ≠ some v) (hv : v < s.tasks.length) :
    ((s.step u).session.tasks[v]?).any Task.isUnbegun = (s.tasks[v]?).any Task.isUnbegun := by
  have hk : s.tasks[v]? = some s.tasks[v] := List.getElem?_eq_getElem hv
  obtain ⟨q, hq, hpq⟩ := ho.progressOf_step hu (progressOf_of_get hk)
  rw [isUnbegun_of_views (ho.jobOf_step u (jobOf_of_get hk)) hq,
    isUnbegun_of_views (jobOf_of_get hk) (progressOf_of_get hk)]
  congr 1
  by_cases hcreated : s.tasks[v].progress = .created
  · rw [hcreated] at hpq
    rw [hpq.eq_of_wait? rfl, hcreated]
  · rw [decide_eq_false hcreated, decide_eq_false (hpq.ne_created hcreated)]

/-- What has begun, or is no answer, is so after every turn. -/
theorem not_isUnbegun_step (u : Turn) (hlt : t < s.tasks.length) (hnot : t ∉ s.unbegun) :
    ((s.step u).session.tasks[t]?).any Task.isUnbegun = false := by
  have hk : s.tasks[t]? = some s.tasks[t] := List.getElem?_eq_getElem hlt
  have hj := ho.jobOf_step u (jobOf_of_get hk)
  obtain ⟨⟨job, q⟩, hk', hjob⟩ := Option.map_eq_some_iff.mp hj
  obtain rfl : job = s.tasks[t].job := hjob
  rw [hk']
  show (s.tasks[t].job.isAnswer && decide (q = .created)) = false
  rw [mem_unbegun, hk] at hnot
  change ¬(s.tasks[t].job.isAnswer && decide (s.tasks[t].progress = .created)) = true at hnot
  by_cases hanswer : s.tasks[t].job.isAnswer = true
  · rw [hanswer, Bool.true_and, decide_eq_true_eq] at hnot
    have hbegun := ho.begun_step u (progressOf_of_get hk) hnot
    rw [progressOf_of_get hk'] at hbegun
    rw [decide_eq_false fun heq => hbegun (congrArg some heq), Bool.and_false]
  · rw [Bool.eq_false_iff.mpr hanswer, Bool.false_and]

/-- An answer that has not begun after a turn had not begun before, or is started by it. -/
theorem unbegun_before (u : Turn) (h : t ∈ (s.step u).session.unbegun) :
    (t ∈ s.unbegun ∧ u ≠ .resume t .begins) ∨ .start t ∈ (s.step u).effects := by
  rw [mem_unbegun] at h
  by_cases hlt : t < s.tasks.length
  · refine .inl ?_
    have hmem : t ∈ s.unbegun := by
      refine Decidable.not_not.mp fun hnot => ?_
      rw [ho.not_isUnbegun_step u hlt hnot] at h
      cases h
    refine ⟨hmem, ?_⟩
    rintro rfl
    rw [not_isUnbegun_begins hmem] at h
    cases h
  · obtain ⟨k, hspawns⟩ := spawns_step s u
    refine .inr (hspawns.start_of_le (Nat.le_of_not_lt hlt) ?_)
    cases hk : (s.step u).session.tasks[t]? with
    | none =>
      rw [hk] at h
      cases h
    | some k => exact (List.getElem?_eq_some_iff.mp hk).1

end Orderly

/-- A message adds an answer or leaves those that have not begun as they are. -/
theorem answerTurn_receive (s : Session) (m : Json) : AnswerTurn s (.receive m) := by
  have hsilent : (s.step (.receive m)).effects.filterMap Effect.sent? = [] := sent_of_task?_none rfl
  cases hasks : answering? s.profile m with
  | some job =>
    obtain ⟨hadded, hhere, hstarted⟩ := answers_receive hasks
    exact .asked m job rfl hasks hadded hhere hstarted hsilent
  | none =>
    refine .apart (fun m' heq => ?_) (fun t _ heq => by cases heq) (unbegun_receive_of_none hasks) fun x hx => ?_
    · cases heq
      exact hasks
    · rw [hsilent] at hx
      cases hx

/-- A turn that does nothing, and is not the first of an answer. -/
theorem answerTurn_idle {r : Resumption} (hidle : s.resume t r = ⟨s, []⟩)
    (hlater : ∀ v ∈ s.unbegun, Turn.resume t r ≠ .resume v .begins) : AnswerTurn s (.resume t r) := by
  have hstep : s.step (.resume t r) = ⟨s, []⟩ := hidle
  refine .apart (fun m heq => by cases heq) hlater (by rw [hstep]) fun x hx => ?_
  rw [hstep] at hx
  cases hx

/-- The turns of a task: if it is an answer that has not begun, its first turn sends what is due. -/
theorem answerTurn_resume (ho : Orderly s) (ha : Attentive s) {q : Progress} (hk : s.tasks[t]? = some ⟨job, q⟩)
    {r : Resumption} (spared : t ∈ s.unbegun → r ≠ .cancelled) : AnswerTurn s (.resume t r) := by
  have hlength : (s.step (.resume t r)).session.tasks.length = s.tasks.length :=
    (spawns_resume hk (ha.ne_openingChannel ho hk) r).length
  have helsewhere : ∀ v < s.tasks.length, v ≠ t →
      ((s.step (.resume t r)).session.tasks[v]?).any Task.isUnbegun = (s.tasks[v]?).any Task.isUnbegun :=
    fun v hv hvt => ho.isUnbegun_elsewhere (fun heq => hvt (Option.some.inj heq).symm) hv
  by_cases hmem : t ∈ s.unbegun
  · -- an answer that has not begun: it begins, or nothing happens
    obtain ⟨id, method, params, hj, hp⟩ := exists_of_mem_unbegun hmem
    have hanswer := task_of_views hj hp
    by_cases hbegins : r = .begins
    · subst hbegins
      exact .begun t rfl hmem (unbegun_erase hlength helsewhere (not_isUnbegun_begins hmem))
        (sent_begins ha.opened hanswer)
    · refine answerTurn_idle (resume_created hanswer hbegins (spared hmem)) fun v _ heq => ?_
      cases heq
      exact hbegins rfl
  · -- another task, or an answer that has begun: it sends no answer, and stays what it is
    refine .apart (fun m heq => by cases heq) (fun v hv heq => ?_) (unbegun_congr hlength fun v hv => ?_)
      fun x hx => ?_
    · cases heq
      exact hmem hv
    · by_cases hvt : v = t
      · subst hvt
        rw [ho.not_isUnbegun_step _ hv hmem]
        rw [mem_unbegun] at hmem
        exact (Bool.eq_false_iff.mpr hmem).symm
      · exact helsewhere v hv hvt
    · have hsent := mem_sent.mp hx
      obtain rfl : t = x.1 := Option.some.inj (operation_of_perform hsent).1
      exact (sending_of_send ho ha.shaken hsent).isAnswering_of_not_mem hmem

/-- **What a turn does to the answers** of a session that answers. -/
theorem answerTurn_step (ho : Orderly s) (ha : Attentive s) {u : Turn}
    (spared : ∀ t ∈ s.unbegun, u ≠ .resume t .cancelled) : AnswerTurn s u := by
  have hsilent (hu : u.task? = none) :
      ∀ x ∈ (s.step u).effects.filterMap Effect.sent?, s.isAnswering x.1 = false := by
    intro x hx
    rw [sent_of_task?_none hu] at hx
    cases hx
  cases u with
  | call c =>
    have htasks : (s.step (.call c)).session.tasks = s.tasks ++ [⟨.call c, .created⟩] := rfl
    refine .apart (fun m heq => by cases heq) (fun t _ heq => by cases heq) ?_ (hsilent rfl)
    rw [unbegun_concat htasks]
    exact List.append_nil _
  | account t f =>
    exact .apart (fun m heq => by cases heq) (fun t _ heq => by cases heq) rfl (hsilent rfl)
  | receive m => exact answerTurn_receive s m
  | resume t r =>
    cases hk : s.tasks[t]? with
    | none =>
      have hidle : s.resume t r = ⟨s, []⟩ := by rw [resume, hk]
      refine answerTurn_idle hidle fun v hv heq => ?_
      cases heq
      rw [mem_unbegun, hk] at hv
      cases hv
    | some k => exact answerTurn_resume ho ha hk fun hmem heq => spared t hmem (by rw [heq])

end EditorServices.Session
