import EditorServices.Proofs.Session.Documents

/-!
# `Proofs.Session.DocumentChanges` — how the document comes to a version

The document has a version, and the server is told of each of its texts under one. A call that has a
text to tell of is accepted in one turn: the turn in which the text of an opening was read, or the first
turn of a change of a listed document. In that turn the document gets the next version, and the message
with it is handed over if it is not refused. Nothing else gives the document a version; a closing that
was written and the first turn of a disposal forget it.

All this holds in every state of a session, however its operations end.

## Contents
- **Announcements.** `Announcement`, a message with a text of the document, and the `announcements` among
  effects.
- **Turns that leave the document alone.** `Untouched`, through the parts of a turn.
- **Acceptance.** `Accepts`, `nextVersion` and what a turn does that accepts a call.
- **One turn.** `DocumentChange` and `documentChange_step`.
-/

namespace EditorServices.Session

/-! ## Announcements -/

/-- The server is told of a text of the document. -/
structure Announcement where
  message : DocumentMessage
  /-- The version that the message names. -/
  version : Json
  /-- The task that sends it. -/
  task : Nat
deriving DecidableEq

/-- The version of the document that a message names. -/
def versionIn (m : Json) : Json := ((m.field "params").field "textDocument").field "version"

/-- The announcement that a task makes with a message, if it is one. -/
def Announcement.of? (t : Nat) (m : Json) : Option Announcement :=
  match DocumentMessage.of? m with
  | some .opened => some ⟨.opened, versionIn m, t⟩
  | some .changed => some ⟨.changed, versionIn m, t⟩
  | some .closed | none => none

/-- The message that an effect hands to the channel, with the task that sends it. -/
def Effect.sent? : Effect → Option (Nat × Json)
  | .perform t (.send m) => some (t, m)
  | _ => none

/-- The announcements among messages, in their order. -/
def announcementsIn (messages : List (Nat × Json)) : List Announcement :=
  messages.filterMap fun x => Announcement.of? x.1 x.2

/-- The announcements among effects, in their order. -/
def announcements (es : List Effect) : List Announcement := announcementsIn (es.filterMap Effect.sent?)

theorem announcements_append (es fs : List Effect) :
    announcements (es ++ fs) = announcements es ++ announcements fs := by
  unfold announcements announcementsIn
  rw [List.filterMap_append, List.filterMap_append]

theorem announcements_opened (t : Nat) (uri language : String) (version : Int) (text : String) :
    announcements [.perform t (.send (opened uri language version text))]
      = [⟨.opened, .int version, t⟩] := rfl

theorem announcements_changed (t : Nat) (uri : String) (version : Int) (text : Json) :
    announcements [.perform t (.send (changed uri version text))] = [⟨.changed, .int version, t⟩] := rfl

/-- A message that is none about the document is no announcement. -/
theorem announcements_send_eq_nil {m : Json} (hm : DocumentMessage.of? m = none) (t : Nat) :
    announcements [.perform t (.send m)] = [] := by
  show announcementsIn [(t, m)] = []
  simp [announcementsIn, Announcement.of?, hm]

/-- A turn that may not send hands over nothing. -/
theorem sent_eq_nil {others : List Nat} {job : Job} {t : Nat} {r : Turned}
    (h : r.Allowed (some .cancelled) others job t) : r.effects.filterMap Effect.sent? = [] := by
  rw [List.filterMap_eq_nil_iff]
  intro e he
  cases e with
  | perform u o =>
    cases o with
    | send m => exact absurd (h _ he).2 (by simp)
    | openChannel | closeChannel | readFile => rfl
  | _ => rfl

/-- A turn that sends nothing announces nothing. -/
theorem announcements_eq_nil (others : List Nat) (job : Job) {t : Nat} {r : Turned}
    (h : r.Allowed (some .cancelled) others job t) : announcements r.effects = [] := by
  rw [announcements, sent_eq_nil h]
  rfl

/-! ## Turns that leave the document alone -/

/-- A turn leaves the document as it is, and tells the server of no text of it. -/
structure Untouched (s : Session) (r : Turned) : Prop where
  profile : r.session.profile = s.profile
  document : r.session.document = s.document
  announced : announcements r.effects = []

namespace Untouched

variable {s : Session} {t : Nat}

theorem idle (s : Session) : Untouched s ⟨s, []⟩ := ⟨rfl, rfl, rfl⟩

theorem finish (s : Session) (t : Nat) (o : Except Failure Answer) : Untouched s (s.finish t o) :=
  ⟨by simp, by simp, announcements_eq_nil [] .listen (allowed_finish s t _ o)⟩

theorem transmit {m : Json} (hm : DocumentMessage.of? m = none) (next : Progress) :
    Untouched s (s.transmit t m next) := by
  unfold Session.transmit
  split
  · exact finish s t _
  · exact ⟨rfl, rfl, announcements_send_eq_nil hm t⟩

theorem ask (s : Session) {purpose : Purpose} {method : String} {params : Json}
    (hm : ∀ id, DocumentMessage.of? (request id method params) = none) :
    Untouched s (s.ask t purpose method params) := by
  unfold Session.ask
  split
  · exact finish s t _
  · exact ⟨rfl, rfl, announcements_send_eq_nil (hm _) t⟩

/-- Effects that send nothing may come first. -/
theorem after {r : Turned} (h : Untouched s r) {es : List Effect} (hes : announcements es = []) :
    Untouched s (r.after es) := by
  refine ⟨h.profile, h.document, ?_⟩
  rw [Turned.effects_after, announcements_append, hes, h.announced, List.append_nil]

/-- What was done before, if it had nothing to do with the document, makes no difference. -/
theorem congr {q : Session} {r : Turned} (h : Untouched q r) (profile : q.profile = s.profile)
    (document : q.document = s.document) : Untouched s r :=
  ⟨h.profile.trans profile, h.document.trans document, h.announced⟩

theorem tell (n : Notification) (rs : List Bus.Subscription) : Untouched s (s.tell t n rs) := by
  obtain ⟨p, hp, -⟩ := session_tell s t n rs
  refine ⟨?_, ?_, announcements_eq_nil [] .listen (allowed_tell s t _ n rs)⟩
  · rw [hp]
    rfl
  · rw [hp]
    rfl

theorem conclude (purpose : Purpose) (id : Nat) (r : Reply) : Untouched s (s.conclude t purpose id r) := by
  have hdrop {q : Turned} (h : Untouched (s.dropRequest id) q) : Untouched s q := h.congr rfl rfl
  refine hdrop ?_
  unfold Session.conclude
  cases r with
  | error f => exact finish _ t _
  | ok m =>
    cases purpose with
    | handshake =>
      dsimp only
      split
      · exact (finish _ t _).after rfl
      · exact transmit rfl _
    | ask q =>
      refine (finish _ t _).after ?_
      cases errorOf? m <;> rfl

theorem wrapUp (s : Session) (t : Nat) : Untouched s (s.wrapUp t) := by
  have hclosed : Untouched s (Session.succeed s.shutDown t) :=
    (finish _ t _).congr rfl rfl
  refine ⟨hclosed.profile, hclosed.document, ?_⟩
  exact announcements_eq_nil s.dependents .listen (allowed_wrapUp s t _)

theorem reply (s : Session) (t : Nat) (r : Reply) : Untouched s (s.reply t r) := by
  have hnil := announcements_eq_nil [] .listen (allowed_reply s 0 (some .cancelled) t r)
  refine ⟨?_, document_reply s t r, hnil⟩
  unfold Session.reply
  split <;> rfl

theorem failPending (s : Session) (reason : String) : Untouched s (s.failPending reason) := by
  refine ⟨?_, document_failPending s reason, ?_⟩
  · exact replyAll_preserves (P := fun x => x.profile = s.profile)
      (fun x v h => (reply x v _).profile.trans h) _ rfl
  · exact announcements_eq_nil [] .listen (allowed_failPending s 0 _ reason)

theorem receive (s : Session) (m : Json) : Untouched s (s.receive m) := by
  have hkeeps := KeepsDocument.receive s m
  have hnil := announcements_eq_nil [] .listen (allowed_receive s 0 (some .cancelled) m)
  refine ⟨?_, hkeeps.document, hnil⟩
  unfold Session.receive
  split
  · split
    · exact (grown_receiveMethod s _ _).profile
    · unfold receiveResponse
      dsimp only
      split
      · split
        · exact (reply _ _ _).profile
        · rfl
      · rfl
  · rfl

/-! ### The turns of a task -/

theorem begin {job : Job} (hupdate : ∀ text, job ≠ .call (.updateDocument text))
    (hclose : job ≠ .call .closeDocument) (hdispose : job ≠ .call .dispose) :
    Untouched s (s.begin t job) := by
  cases job with
  | call c =>
    cases c with
    | handshake | openDocument => exact ⟨rfl, rfl, rfl⟩
    | ask q line character => exact ask s fun id => DocumentMessage.of?_question id q _
    | updateDocument text => exact absurd rfl (hupdate text)
    | closeDocument => exact absurd rfl hclose
    | dispose => exact absurd rfl hdispose
  | listen => exact ⟨rfl, rfl, rfl⟩
  | answer id method params =>
    show Untouched s (s.beginAnswer t id method params)
    unfold beginAnswer
    split
    · exact finish s t _
    · split
      · exact finish s t _
      · exact transmit (DocumentMessage.of?_response _ _) _
  | publish n =>
    show Untouched s (s.beginPublish t n)
    unfold beginPublish
    split
    · exact finish s t _
    · exact tell n _

theorem channelOpened (s : Session) (t : Nat) : Untouched s (s.channelOpened t) := by
  have hasked : Untouched s (Session.ask { (s.addTask .listen).1 with reader := some s.tasks.length } t
      .handshake handshakeMethod (handshakeParams s.profile)) := (ask _ fun _ => rfl).congr rfl rfl
  exact hasked.after rfl

theorem requestWritten (purpose : Purpose) (id : Nat) (reply : Option Reply) :
    Untouched s (s.requestWritten t purpose id reply) := by
  refine after ?_ rfl
  cases reply with
  | some r => exact conclude purpose id r
  | none => exact ⟨rfl, rfl, rfl⟩

theorem channelClosed (s : Session) (t : Nat) : Untouched s (s.channelClosed t) := by
  unfold Session.channelClosed
  split
  · exact wrapUp s t
  · refine ⟨rfl, rfl, ?_⟩
    dsimp only
    split <;> rfl

/-- An operation that succeeded: only the text of an opening and the writing of a closing matter. -/
theorem continueWith (job : Job) (text : String) {p : Progress} (hreading : p ≠ .reading)
    (hclosing : p ≠ .closing) : Untouched s (s.continueWith t job text p) := by
  cases p with
  | openingChannel => exact channelOpened s t
  | requesting purpose id written reply =>
    cases written with
    | true => exact idle s
    | false => exact requestWritten purpose id reply
  | announcing =>
    have hdone : Untouched s (Session.succeed { s with phase := .ready } t) := (finish _ t _).congr rfl rfl
    exact hdone.after rfl
  | reading => exact absurd rfl hreading
  | opening => exact ⟨rfl, rfl, rfl⟩
  | updating | answering => exact (finish s t _).after rfl
  | closing => exact absurd rfl hclosing
  | closingChannel => exact channelClosed s t
  | created | settling | telling | listening | awaitingReader | finished => exact idle s

theorem continueWithout (f : Failure) (p : Progress) : Untouched s (s.continueWithout t f p) := by
  cases p with
  | requesting purpose id written reply =>
    cases written with
    | true => exact idle s
    | false => exact (finish (s.dropRequest id) t _).congr rfl rfl
  | openingChannel | announcing | reading | opening | updating | closing | answering
  | closingChannel => exact finish s t _
  | created | settling | telling | listening | awaitingReader | finished => exact idle s

theorem abandon (p : Progress) : Untouched s (s.abandon t p) := by
  cases p with
  | finished => exact idle s
  | requesting purpose id written reply => exact (finish (s.dropRequest id) t _).congr rfl rfl
  | awaitingReader reader => exact wrapUp s t
  | created | openingChannel | announcing | reading | opening | settling | updating | closing | answering
  | telling | listening | closingChannel => exact finish s t _

theorem streamEnded (reason : String) (error : Option String) :
    Untouched s (s.streamEnded t reason error) := by
  have hnil := announcements_eq_nil [] .listen
    (allowed_streamEnded s t (some .cancelled) reason error)
  have hnoted (x : Turned) (hx : Untouched s x) :
      (x.andThen fun q => q.succeed t).session.profile = s.profile ∧
        (x.andThen fun q => q.succeed t).session.document = s.document := by
    rw [Turned.session_andThen, session_succeed]
    exact ⟨hx.profile, hx.document⟩
  have hends : Untouched s (s.noteEnd (endReason reason error)) := by
    have hfailed := failPending { s with ended := some (endReason reason error) } (endReason reason error)
    exact (hfailed.congr (s := s) rfl rfl).after rfl
  suffices h : (s.streamEnded t reason error).session.profile = s.profile ∧
      (s.streamEnded t reason error).session.document = s.document from ⟨h.1, h.2, hnil⟩
  unfold Session.streamEnded
  dsimp only
  rw [Turned.session_after]
  split
  · exact hnoted _ (idle s)
  · exact hnoted _ hends

end Untouched

/-! ## Acceptance -/

/-- The version after that of the document; the first one if none is listed. -/
def nextVersion (s : Session) : Int := (s.document.map DocumentHandle.version).getD 0 + 1

/-- In a turn a call is accepted: the document gets a text of which the server has to be told. -/
inductive Accepts (s : Session) : Turn → Nat → DocumentMessage → Prop where
  /-- The text of an opening was read, and the document has a language. -/
  | opening (t : Nat) (text language : String) (job : s.jobOf t = some (.call .openDocument))
      (reading : s.progressOf t = some .reading) (known : s.profile.language = .ok language) :
      Accepts s (.resume t (.returned (.ok text))) t .opened
  /-- A change of the listed document begins. -/
  | change (t : Nat) (text : Json) (job : s.jobOf t = some (.call (.updateDocument text)))
      (created : s.progressOf t = some .created) (listed : s.document.isSome = true) :
      Accepts s (.resume t .begins) t .changed

/-- What is announced in a turn that accepts a call. -/
def announcing (s : Session) (t : Nat) (message : DocumentMessage) : List Announcement :=
  if s.refusal?.isSome then [] else [⟨message, .int s.nextVersion, t⟩]

/-- Which document is listed does not matter for whether messages are refused. -/
theorem refusal?_document (s : Session) (d : Option DocumentHandle) :
    refusal? { s with document := d } = s.refusal? := rfl

/-- A message that is not refused is announced, and only then. -/
theorem announcements_transmit {s q : Session} (same : q.refusal? = s.refusal?) {t : Nat} {m : Json}
    {next : Progress} {message : DocumentMessage}
    (hm : announcements [.perform t (.send m)] = [⟨message, .int s.nextVersion, t⟩]) :
    announcements (q.transmit t m next).effects = s.announcing t message := by
  unfold transmit announcing
  rw [← same]
  cases q.refusal? with
  | some f => exact (Untouched.finish q t _).announced
  | none => exact hm

/-- The document as it is listed when an opening is accepted. -/
def openedHandle (s : Session) (language : String) : DocumentHandle :=
  ⟨s.profile.path, s.profile.uri, language, s.profile.workspace, s.nextVersion, true⟩

/-- The document as it is listed when a call is accepted. -/
def acceptedHandle (s : Session) : DocumentMessage → Option DocumentHandle
  | .opened =>
    match s.profile.language with
    | .ok language => some (s.openedHandle language)
    | .error _ => s.document
  | .changed => s.document.map fun d => { d with version := d.version + 1 }
  | .closed => s.document

/-- What a turn does that accepts a call. -/
structure Accepted (s : Session) (r : Turned) (t : Nat) (message : DocumentMessage) : Prop where
  profile : r.session.profile = s.profile
  document : r.session.document = s.acceptedHandle message
  version : r.session.document.map DocumentHandle.version = some s.nextVersion
  announced : announcements r.effects = s.announcing t message

theorem accepted_opening {s : Session} {language : String} (known : s.profile.language = .ok language)
    (t : Nat) (text : String) : Accepted s (s.openWith t text) t .opened := by
  unfold openWith
  dsimp only
  rw [known]
  have hmessage := announcements_opened t s.profile.uri language s.nextVersion text
  refine ⟨?_, ?_, ?_, announcements_transmit (refusal?_document s _) hmessage⟩
  · rw [session_transmit]
    rfl
  · rw [session_transmit, acceptedHandle, known]
    rfl
  · rw [session_transmit]
    rfl

theorem accepted_change {s : Session} (listed : s.document.isSome = true) (t : Nat) (text : Json) :
    Accepted s (s.beginUpdate t text) t .changed := by
  obtain ⟨d, hd⟩ := Option.isSome_iff_exists.mp listed
  have hnext : s.nextVersion = d.version + 1 := by
    rw [nextVersion, hd]
    rfl
  unfold beginUpdate
  rw [hd]
  dsimp only
  have hmessage := announcements_changed t d.uri (d.version + 1) text
  rw [← hnext] at hmessage ⊢
  refine ⟨?_, ?_, ?_, announcements_transmit (refusal?_document s _) hmessage⟩
  · rw [session_transmit]
    rfl
  · rw [session_transmit, acceptedHandle, hd, hnext]
    rfl
  · rw [session_transmit]
    rfl

theorem Accepts.accepted {s : Session} {u : Turn} {t : Nat} {message : DocumentMessage}
    (h : Accepts s u t message) : Accepted s (s.step u) t message := by
  cases h with
  | opening t text language job reading known =>
    have hturn : s.step (.resume t (.returned (.ok text))) = s.openWith t text := by
      show s.resume t (.returned (.ok text)) = _
      rw [resume, task_of_views job reading]
      rfl
    rw [hturn]
    exact accepted_opening known t text
  | change t text job created listed =>
    have hturn : s.step (.resume t .begins) = s.beginUpdate t text := by
      show s.resume t _ = _
      rw [resume, task_of_views job created]
      rfl
    rw [hturn]
    exact accepted_change listed t text

/-! ## One turn -/

/-- In a turn the document is forgotten: a closing was written, or a disposal begins. -/
inductive Forgets (s : Session) : Turn → Nat → Prop where
  | closing (t : Nat) (text : String) (job : s.jobOf t = some (.call .closeDocument))
      (closing : s.progressOf t = some .closing) : Forgets s (.resume t (.returned (.ok text))) t
  | disposal (t : Nat) (job : s.jobOf t = some (.call .dispose)) (created : s.progressOf t = some .created)
      (before : s.phase ≠ .disposed) : Forgets s (.resume t .begins) t

/-- What a turn does to the document. -/
inductive DocumentChange (s : Session) (u : Turn) : Prop where
  | kept (untouched : Untouched s (s.step u)) (refuses : ∀ t message, ¬ Accepts s u t message)
  | accepted (t : Nat) (message : DocumentMessage) (accepts : Accepts s u t message)
      (accepted : Accepted s (s.step u) t message)
  | forgotten (t : Nat) (forgets : Forgets s u t) (profile : (s.step u).session.profile = s.profile)
      (document : (s.step u).session.document = none) (announced : announcements (s.step u).effects = [])

section
variable {s : Session} {t : Nat} {job : Job}

/-- The first turn of a task. -/
theorem documentChange_begins (hj : s.jobOf t = some job) (hp : s.progressOf t = some .created) :
    DocumentChange s (.resume t .begins) := by
  have hturn : s.step (.resume t .begins) = s.begin t job := by
    show s.resume t _ = _
    rw [resume, task_of_views hj hp]
  -- only a change is accepted in its first turn
  have hrefuses (hjob : ∀ text, job = .call (.updateDocument text) → s.document = none) (v : Nat)
      (message : DocumentMessage) : ¬ Accepts s (.resume t .begins) v message := by
    intro h
    cases h with
    | change t text hj' _ listed =>
      have hnone := hjob text (Option.some.inj (hj.symm.trans hj'))
      rw [hnone] at listed
      cases listed
  have hkept (hjob : ∀ text, job = .call (.updateDocument text) → s.document = none)
      (h : Untouched s (s.begin t job)) : DocumentChange s (.resume t .begins) :=
    .kept (hturn ▸ h) (hrefuses hjob)
  by_cases hcase : (∃ text, job = .call (.updateDocument text)) ∨ job = .call .closeDocument ∨
    job = .call .dispose
  · rcases hcase with ⟨text, rfl⟩ | rfl | rfl
    · cases hd : s.document with
      | none =>
        refine hkept (fun _ _ => hd) ?_
        show Untouched s (s.beginUpdate t text)
        rw [beginUpdate, hd]
        exact .finish s t _
      | some d =>
        have haccepts : Accepts s (.resume t .begins) t .changed := by
          refine .change t text hj hp ?_
          rw [hd]
          rfl
        exact .accepted t .changed haccepts haccepts.accepted
    · refine hkept (fun text h => by cases h) ?_
      show Untouched s (s.beginClose t)
      unfold beginClose
      split
      · exact .finish s t _
      · unfold transmit
        split
        · exact .finish s t _
        · exact ⟨rfl, rfl, rfl⟩
    · have hturn : s.step (.resume t .begins) = s.beginDispose t := hturn
      by_cases hphase : s.phase = .disposed
      · refine hkept (fun text h => by cases h) ?_
        show Untouched s (s.beginDispose t)
        rw [beginDispose, if_pos hphase]
        exact .finish s t _
      · have hfailed := Untouched.failPending { s with phase := .disposed } "session disposed"
        rw [beginDispose, if_neg hphase] at hturn
        refine .forgotten t (.disposal t hj hp hphase) ?_ ?_ ?_
        · rw [hturn]
          exact hfailed.profile
        · rw [hturn]
          rfl
        · rw [hturn]
          show announcements ([s.aboutDocument _ _ _] ++ (_ ++ [.perform t .closeChannel])) = []
          rw [announcements_append, announcements_append, hfailed.announced]
          rfl
  · simp only [not_or, not_exists] at hcase
    obtain ⟨hupdate, hclose, hdispose⟩ := hcase
    exact hkept (fun text h => absurd h (hupdate text)) (.begin hupdate hclose hdispose)

/-- An operation that succeeded. -/
theorem documentChange_returned (ho : Orderly s) {p : Progress} (hj : s.jobOf t = some job)
    (hp : s.progressOf t = some p) (text : String) :
    DocumentChange s (.resume t (.returned (.ok text))) := by
  have hturn : s.step (.resume t (.returned (.ok text))) = s.continueWith t job text p := by
    show s.resume t (.returned (.ok text)) = _
    rw [resume, task_of_views hj hp]
  have hisOf : p.IsOf job := ho t job p hj hp
  by_cases hreading : p = .reading
  · subst hreading
    obtain rfl : job = .call .openDocument := hisOf
    cases hl : s.profile.language with
    | ok language =>
      have haccepts : Accepts s (.resume t (.returned (.ok text))) t .opened :=
        .opening t text language hj hp hl
      exact .accepted t .opened haccepts haccepts.accepted
    | error f =>
      refine .kept ?_ fun v message h => ?_
      · rw [hturn]
        show Untouched s (s.openWith t text)
        rw [openWith, hl]
        exact .finish s t _
      · cases h with
        | opening _ _ language _ _ known => cases hl.symm.trans known
  · have hrefuses (v : Nat) (message : DocumentMessage) :
        ¬ Accepts s (.resume t (.returned (.ok text))) v message := by
      intro h
      cases h with
      | opening _ _ _ _ reading => exact hreading (Option.some.inj (hp.symm.trans reading))
    by_cases hclosing : p = .closing
    · subst hclosing
      obtain rfl : job = .call .closeDocument := hisOf
      have hover := Untouched.finish { s with document := none } t (.ok .done)
      have hnone : announcements [written (.str "textDocument/didClose") .null] = [] := rfl
      have hdone := hover.after hnone
      refine .forgotten t (.closing t text hj hp) ?_ ?_ ?_
      · rw [hturn]
        exact hdone.profile
      · rw [hturn]
        exact hdone.document
      · rw [hturn]
        exact hdone.announced
    · exact .kept (hturn ▸ .continueWith job text hreading hclosing) hrefuses

/-- Only a first turn and an operation that succeeded are about the document. -/
theorem untouched_resume {p : Progress} (hk : s.tasks[t]? = some ⟨job, p⟩) {r : Resumption}
    (hbegins : r = .begins → p ≠ .created) (hreturned : ∀ text, r ≠ .returned (.ok text)) :
    Untouched s (s.resume t r) := by
  unfold resume
  rw [hk]
  dsimp only
  split
  · exact absurd rfl (hbegins rfl)
  · exact absurd rfl (hreturned _)
  · exact .continueWithout _ _
  · exact .conclude _ _ _
  · exact .finish s t _
  · split
    · exact (Untouched.tell _ _).after rfl
    · exact .idle s
  · exact .streamEnded _ _
  · exact .wrapUp s t
  · exact .abandon _
  · exact .idle s

end

/-- A task that is accepted is at a stage. -/
theorem Accepts.progressOf_ne_none {s : Session} {t : Nat} {r : Resumption} {v : Nat}
    {message : DocumentMessage} (h : Accepts s (.resume t r) v message) : s.progressOf t ≠ none := by
  cases h with
  | opening _ _ _ _ reading => simp [reading]
  | change _ _ _ created => simp [created]

/-- **What a turn does to the document**, in every state of a session. -/
theorem documentChange_step {s : Session} (ho : Orderly s) (u : Turn) : DocumentChange s u := by
  cases u with
  | call c => exact .kept ⟨rfl, rfl, rfl⟩ fun t message h => by cases h
  | account t f =>
    have hnil := allowed_step_of_task?_none s (u := .account t f) rfl (some .cancelled) [] .listen 0
    exact .kept ⟨rfl, rfl, announcements_eq_nil _ _ hnil⟩ fun t message h => by cases h
  | receive m => exact .kept (.receive s m) fun t message h => by cases h
  | resume t r =>
    cases hk : s.tasks[t]? with
    | none =>
      have hidle : s.step (.resume t r) = ⟨s, []⟩ := by
        show s.resume t r = _
        rw [resume, hk]
      have hnone : s.progressOf t = none := by rw [progressOf, hk]; rfl
      exact .kept (hidle ▸ .idle s) fun v message h => h.progressOf_ne_none hnone
    | some k =>
      obtain ⟨job, p⟩ := k
      have hj := jobOf_of_get hk
      have hp := progressOf_of_get hk
      by_cases hbegins : r = .begins ∧ p = .created
      · obtain ⟨rfl, rfl⟩ := hbegins
        exact documentChange_begins hj hp
      by_cases hreturned : ∃ text, r = .returned (.ok text)
      · obtain ⟨text, rfl⟩ := hreturned
        exact documentChange_returned ho hj hp text
      -- no call is accepted in another turn
      · have huntouched : Untouched s (s.resume t r) :=
          untouched_resume hk (fun hr hc => hbegins ⟨hr, hc⟩) fun text hr => hreturned ⟨text, hr⟩
        refine .kept huntouched fun v message h => ?_
        cases h with
        | opening _ text => exact hreturned ⟨text, rfl⟩
        | change _ _ _ created => exact hbegins ⟨rfl, Option.some.inj (hp.symm.trans created)⟩

/-- What a session is about never changes. -/
theorem profile_step {s : Session} (ho : Orderly s) (u : Turn) : (s.step u).session.profile = s.profile := by
  cases documentChange_step ho u with
  | kept untouched => exact untouched.profile
  | accepted _ _ _ accepted => exact accepted.profile
  | forgotten _ _ profile => exact profile

theorem profile_after (p : Profile) (h : List Turn) : ((new p).after h).profile = p := by
  have hboth : Orderly ((new p).after h) ∧ ((new p).after h).profile = p :=
    after_preserves (P := fun s => Orderly s ∧ s.profile = p)
      (fun _ u hs => ⟨hs.1.step u, (profile_step hs.1 u).trans hs.2⟩) ⟨orderly_new p, rfl⟩ h
  exact hboth.2

end EditorServices.Session
