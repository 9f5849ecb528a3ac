import EditorServices.Proofs.Session.Asking

/-!
# `Proofs.Session.Documents` — what one turn does to the document

The document is listed while it is open. Openings, changes and closings of it are calls that run in
several turns, and any number of them may be on their way at a time. What a turn means for the document
is one of five things, which `DocumentTurn` lists: nothing, the sending of one of three messages, or the
end of a closing, which forgets the document.

A closing forgets the document only when its message was written. The turns between the two are its
window, and `closings` are the tasks that are in theirs.

## Contents
- **Messages.** `DocumentMessage`, and `handed`, the row of messages about the document that a history
  hands to the channel.
- **Closings.** `closings`, through the moves of tasks.
- **Undisturbed turns.** `isUndisturbed`: no operation fails but the reading of the file, and nobody gives
  up, disposes of the session or starts it again.
- **One turn.** `DocumentTurn` and `documentTurn_step`.
-/

namespace EditorServices.Session

/-! ## Messages -/

/-- A message about the life of the document. -/
inductive DocumentMessage where
  | opened
  | changed
  | closed
deriving DecidableEq, Repr

/-- The message about the document that a message is, by its method. -/
def DocumentMessage.of? (m : Json) : Option DocumentMessage :=
  if m.field "method" = .str "textDocument/didOpen" then some .opened
  else if m.field "method" = .str "textDocument/didChange" then some .changed
  else if m.field "method" = .str "textDocument/didClose" then some .closed
  else none

namespace DocumentMessage

@[simp] theorem of?_opened (uri language : String) (version : Int) (text : String) :
    of? (Session.opened uri language version text) = some .opened := rfl

@[simp] theorem of?_changed (uri : String) (version : Int) (text : Json) :
    of? (Session.changed uri version text) = some .changed := rfl

@[simp] theorem of?_closed (uri : String) : of? (Session.closed uri) = some .closed := rfl

@[simp] theorem of?_response (id result : Json) : of? (response id result) = none := rfl

@[simp] theorem of?_question (id : Nat) (q : Query) (params : Json) :
    of? (request id q.method params) = none := by cases q <;> rfl

end DocumentMessage

/-- The tasks whose closing of the document is being written. -/
def closings (s : Session) : List Nat :=
  (List.range s.tasks.length).filter fun t =>
    match s.progressOf t with
    | some .closing => true
    | _ => false

/-- A message about the document that was handed to the channel. -/
structure Handed where
  message : DocumentMessage
  /-- The task that sends it. -/
  task : Nat
  /-- The closings that were being written at that moment. -/
  closings : List Nat
deriving DecidableEq, Repr

/-- The message about the document that an effect hands to the channel. -/
def handed? (s : Session) : Effect → Option Handed
  | .perform t (.send m) => (DocumentMessage.of? m).map fun d => ⟨d, t, s.closings⟩
  | _ => none

/-- The messages about the document that a turn hands to the channel. -/
def handedIn (s : Session) (u : Turn) : List Handed := (s.step u).effects.filterMap s.handed?

/-- The messages about the document that a history hands to the channel, in their order. -/
def handed (s : Session) : List Turn → List Handed
  | [] => []
  | u :: h => s.handedIn u ++ (s.step u).session.handed h

/-- A turn that sends nothing hands over nothing. -/
theorem handed?_eq_nil {s : Session} {t : Nat} {r : Turned} (h : r.Allowed (some .cancelled) [] .listen t) :
    r.effects.filterMap s.handed? = [] := by
  rw [List.filterMap_eq_nil_iff]
  intro e he
  cases e with
  | perform u o =>
    cases o with
    | send m => exact absurd (h _ he).2 (by simp)
    | openChannel | closeChannel | readFile => rfl
  | _ => rfl

/-! ## Closings -/

theorem mem_closings {s : Session} {t : Nat} : t ∈ s.closings ↔ s.progressOf t = some .closing := by
  unfold closings
  rw [List.mem_filter, List.mem_range]
  constructor
  · rintro ⟨-, h⟩
    split at h
    · next hp => exact hp
    · cases h
  · intro hp
    refine ⟨lt_of_progressOf hp, ?_⟩
    rw [hp]

/-- A stage that is a closing or not stays that when a reply is given. -/
theorem Progress.UpToReply.closing_iff {p q : Progress} (h : p.UpToReply q) :
    q = .closing ↔ p = .closing := by
  rcases h with rfl | ⟨purpose, id, written, r, rfl, rfl⟩
  · exact Iff.rfl
  · constructor <;> intro hc <;> cases hc

theorem mem_closings_of_kept {s s' : Session} (h : Kept s s') (v : Nat) :
    v ∈ s'.closings ↔ v ∈ s.closings := by
  rw [mem_closings, mem_closings]
  cases hp : s.progressOf v with
  | none => rcases h.fresh hp with hn | hc <;> simp [*]
  | some p =>
    obtain ⟨q, hq, hpq⟩ := h.stage hp
    rw [hq, Option.some.injEq, Option.some.injEq]
    exact hpq.closing_iff

/-- A task that is no closing changes nothing about closings. -/
theorem mem_closings_of_moved {s s' : Session} {t : Nat} {job : Job} {p : Progress}
    (h : Moved s t job s') (hp : s.progressOf t = some p) (hj : p.IsOf job)
    (hne : job ≠ .call .closeDocument) (v : Nat) : v ∈ s'.closings ↔ v ∈ s.closings := by
  rw [mem_closings, mem_closings]
  by_cases hv : v = t
  · subst hv
    obtain ⟨q, hq, hqj⟩ := h.stageOf hp hj
    rw [hp, hq]
    constructor <;> intro hc <;> cases hc
    · exact absurd hqj hne
    · exact absurd hj hne
  · cases hvp : s.progressOf v with
    | none => rcases h.keptElsewhere.2.2.1 hv hvp with hn | hc <;> simp [*]
    | some x =>
      obtain ⟨q, hq, hxq⟩ := h.keptElsewhere.2.1 hv hvp
      rw [hq, Option.some.injEq, Option.some.injEq]
      exact hxq.closing_iff

/-! ## Undisturbed turns -/

/-- A wait ends as it does while the channel stays open and nobody gives up: of the operations only the
reading of the file may fail. -/
def Resumption.isOrdinary (p : Progress) : Resumption → Bool
  | .returned (.error _) =>
    match p with
    | .reading => true
    | _ => false
  | .streamEnded _ _ | .cancelled => false
  | _ => true

/-- A turn in a session that was started and is not disposed of. -/
def isUndisturbed (s : Session) : Turn → Bool
  | .resume t r =>
    match s.tasks[t]? with
    | some ⟨job, p⟩ => job ≠ .call .handshake && job ≠ .call .dispose && r.isOrdinary p
    | none => true
  | _ => true

/-- Every turn of a history is undisturbed. -/
def runsUndisturbed (s : Session) : List Turn → Bool
  | [] => true
  | u :: h => s.isUndisturbed u && (s.step u).session.runsUndisturbed h

/-! ## Turns that leave the document alone -/

/-- A turn leaves the document as it is, refuses what was refused, and hands over nothing about the
document. -/
structure KeepsDocument (s : Session) (r : Turned) : Prop where
  document : r.session.document = s.document
  refusal : r.session.refusal? = s.refusal?
  handed : ∀ q : Session, r.effects.filterMap q.handed? = []

namespace KeepsDocument

variable {s : Session} {t : Nat}

theorem idle (s : Session) : KeepsDocument s ⟨s, []⟩ := ⟨rfl, rfl, fun _ => rfl⟩

theorem finish (s : Session) (t : Nat) (o : Except Failure Answer) : KeepsDocument s (s.finish t o) :=
  ⟨by simp, by simp, fun _ => handed?_eq_nil (allowed_finish s t _ o)⟩

theorem transmit {m : Json} (hm : DocumentMessage.of? m = none) (next : Progress) :
    KeepsDocument s (s.transmit t m next) := by
  unfold Session.transmit
  split
  · exact finish s t _
  · exact ⟨rfl, rfl, fun q => by simp [handed?, hm]⟩

theorem after {r : Turned} (h : KeepsDocument s r) {es : List Effect}
    (hes : ∀ q : Session, es.filterMap q.handed? = []) : KeepsDocument s (r.after es) :=
  ⟨h.document, h.refusal, fun q => by
    rw [Turned.effects_after, List.filterMap_append, hes, h.handed, List.nil_append]⟩

/-- A request that is no longer pending has nothing to do with the document. -/
theorem ofDrop {r : Turned} {id : Nat} (h : KeepsDocument (s.dropRequest id) r) : KeepsDocument s r :=
  ⟨h.document, h.refusal, h.handed⟩

theorem tell (n : Notification) (rs : List Bus.Subscription) : KeepsDocument s (s.tell t n rs) := by
  obtain ⟨p, hp, -⟩ := session_tell s t n rs
  exact ⟨by rw [hp]; rfl, by rw [hp]; rfl, fun q => handed?_eq_nil (allowed_tell s t _ n rs)⟩

theorem conclude (q : Query) (id : Nat) (r : Reply) : KeepsDocument s (s.conclude t (.ask q) id r) := by
  refine @ofDrop s _ id ?_
  unfold Session.conclude
  cases r with
  | error f => exact finish _ t _
  | ok m =>
    refine (finish _ t _).after fun x => ?_
    cases errorOf? m <;> rfl

theorem receive (s : Session) (m : Json) : KeepsDocument s (s.receive m) := by
  have hnil : ∀ q : Session, (s.receive m).effects.filterMap q.handed? = [] :=
    fun q => handed?_eq_nil (allowed_receive s 0 _ m)
  refine ⟨?_, ?_, hnil⟩ <;> unfold Session.receive receiveResponse
  · split
    · split
      · exact (grown_receiveMethod s _ _).document
      · dsimp only
        split
        · split
          · rw [document_reply]; rfl
          · rfl
        · rfl
    · rfl
  · split
    · split
      · exact (grown_receiveMethod s _ _).refusal?
      · dsimp only
        split
        · split
          · simp [refusal?, whyClosed?, dropRequest]
          · rfl
        · rfl
    · rfl

theorem begin {job : Job} (h : ∀ c, job = .call c → c = .openDocument ∨ ∃ q l k, c = .ask q l k) :
    KeepsDocument s (s.begin t job) := by
  cases job with
  | call c =>
    rcases h c rfl with rfl | ⟨q, line, character, rfl⟩
    · exact ⟨rfl, rfl, fun _ => rfl⟩
    · show KeepsDocument s (s.ask t (.ask q) q.method _)
      unfold Session.ask
      split
      · exact finish s t _
      · exact ⟨rfl, rfl, fun x => by simp [handed?]⟩
  | listen => exact ⟨rfl, rfl, fun _ => rfl⟩
  | answer id method params =>
    show KeepsDocument s (s.beginAnswer t id method params)
    unfold beginAnswer
    split
    · exact finish s t _
    · split
      · exact finish s t _
      · exact transmit (DocumentMessage.of?_response _ _) _
  | publish n =>
    show KeepsDocument s (s.beginPublish t n)
    unfold beginPublish
    split
    · exact finish s t _
    · exact tell n _

end KeepsDocument

/-! ## One turn -/

/-- What an undisturbed turn does to the document, with what it hands over. -/
inductive DocumentTurn (s s' : Session) : List Handed → Prop where
  /-- Nothing. -/
  | quiet (document : s'.document.isSome = s.document.isSome)
      (closings : ∀ v, v ∈ s'.closings ↔ v ∈ s.closings) : DocumentTurn s s' []
  /-- The document is listed, and the server told. -/
  | opened (t : Nat) (document : s'.document.isSome = true)
      (closings : ∀ v, v ∈ s'.closings ↔ v ∈ s.closings) : DocumentTurn s s' [⟨.opened, t, s.closings⟩]
  /-- The server is told of a new text of the listed document. -/
  | changed (t : Nat) (listed : s.document.isSome = true) (document : s'.document.isSome = true)
      (closings : ∀ v, v ∈ s'.closings ↔ v ∈ s.closings) : DocumentTurn s s' [⟨.changed, t, s.closings⟩]
  /-- The server is told that the document is closed; it stays listed. -/
  | closed (t : Nat) (listed : s.document.isSome = true) (document : s'.document.isSome = true)
      (closings : ∀ v, v ∈ s'.closings ↔ v ∈ s.closings ∨ v = t) :
      DocumentTurn s s' [⟨.closed, t, s.closings⟩]
  /-- A closing was written: the document is forgotten. -/
  | forgotten (t : Nat) (closing : t ∈ s.closings) (document : s'.document = none)
      (closings : ∀ v, v ∈ s'.closings ↔ v ∈ s.closings ∧ v ≠ t) : DocumentTurn s s' []

section
variable {s : Session} {t : Nat} {job : Job} {p : Progress} {r : Resumption}

/-- A turn that leaves the document alone and is no turn of a closing. -/
theorem KeepsDocument.documentTurn (h : KeepsDocument s (s.resume t r)) (hopen : s.refusal? = none)
    (hclosings : ∀ v, v ∈ (s.resume t r).session.closings ↔ v ∈ s.closings) :
    DocumentTurn s (s.resume t r).session (s.handedIn (.resume t r)) ∧
      (s.resume t r).session.refusal? = none := by
  refine ⟨?_, h.refusal.trans hopen⟩
  rw [show s.handedIn (.resume t r) = [] from h.handed s]
  exact .quiet (by rw [h.document]) hclosings

/-- Only three turns touch the document: a text that was read opens it, a change begins, a closing
begins or ends. -/
theorem resume_document (hk : s.tasks[t]? = some ⟨job, p⟩) (hisOf : p.IsOf job)
    (hhandshake : job ≠ .call .handshake) (hdispose : job ≠ .call .dispose) (hord : r.isOrdinary p = true) :
    KeepsDocument s (s.resume t r) ∨
      (p = .created ∧ r = .begins ∧ ∃ text, job = .call (.updateDocument text)) ∨
      (p = .reading ∧ ∃ text, r = .returned (.ok text)) ∨ job = .call .closeDocument := by
  have hidle : KeepsDocument s ⟨s, []⟩ := .idle s
  unfold resume
  rw [hk]
  cases p with
  | created =>
    cases r with
    | begins =>
      cases job with
      | call c =>
        cases c with
        | handshake => exact absurd rfl hhandshake
        | dispose => exact absurd rfl hdispose
        | openDocument => exact .inl (.begin fun c hc => by cases hc; exact .inl rfl)
        | ask q l k => exact .inl (.begin fun c hc => by cases hc; exact .inr ⟨q, l, k, rfl⟩)
        | updateDocument text => exact .inr (.inl ⟨rfl, rfl, text, rfl⟩)
        | closeDocument => exact .inr (.inr (.inr rfl))
      | listen | answer | publish => exact .inl (.begin fun c hc => by cases hc)
    | returned x => cases x <;> exact .inl hidle
    | cancelled => cases hord
    | replied | rested | streamEnded | readerFinished => exact .inl hidle
  | requesting purpose id written reply =>
    cases purpose with
    | handshake => exact absurd hisOf hhandshake
    | ask q =>
      cases r with
      | returned x =>
        cases x with
        | error f => cases hord
        | ok text =>
          cases written with
          | true => exact .inl hidle
          | false =>
            refine .inl (KeepsDocument.after (s := s) ?_ fun _ => rfl)
            cases reply with
            | none => exact ⟨rfl, rfl, fun _ => rfl⟩
            | some a => exact .conclude q id a
      | replied =>
        cases written with
        | false => exact .inl hidle
        | true =>
          cases reply with
          | none => exact .inl hidle
          | some a => exact .inl (.conclude q id a)
      | cancelled => cases hord
      | begins | rested | streamEnded | readerFinished => exact .inl hidle
  | reading =>
    cases r with
    | returned x =>
      cases x with
      | ok text => exact .inr (.inr (.inl ⟨rfl, text, rfl⟩))
      | error f => exact .inl (.finish s t _)
    | cancelled => cases hord
    | begins | replied | rested | streamEnded | readerFinished => exact .inl hidle
  | opening =>
    cases r with
    | returned x =>
      cases x with
      | ok text => exact .inl ⟨rfl, rfl, fun _ => rfl⟩
      | error f => cases hord
    | cancelled => cases hord
    | begins | replied | rested | streamEnded | readerFinished => exact .inl hidle
  | updating | answering =>
    cases r with
    | returned x =>
      cases x with
      | ok text => exact .inl ((KeepsDocument.finish s t _).after fun _ => rfl)
      | error f => cases hord
    | cancelled => cases hord
    | begins | replied | rested | streamEnded | readerFinished => exact .inl hidle
  | settling =>
    cases r with
    | rested => exact .inl (.finish s t _)
    | returned x => cases x <;> exact .inl hidle
    | cancelled => cases hord
    | begins | replied | streamEnded | readerFinished => exact .inl hidle
  | telling who rest =>
    obtain ⟨n, rfl⟩ := hisOf
    cases r with
    | rested => exact .inl ((KeepsDocument.tell n rest).after fun _ => rfl)
    | returned x => cases x <;> exact .inl hidle
    | cancelled => cases hord
    | begins | replied | streamEnded | readerFinished => exact .inl hidle
  | closing => exact .inr (.inr (.inr hisOf))
  | listening =>
    cases r with
    | returned x => cases x <;> exact .inl hidle
    | streamEnded | cancelled => cases hord
    | begins | replied | rested | readerFinished => exact .inl hidle
  | finished =>
    cases r with
    | returned x => cases x <;> exact .inl hidle
    | cancelled => cases hord
    | begins | replied | rested | streamEnded | readerFinished => exact .inl hidle
  | openingChannel | announcing => exact absurd hisOf hhandshake
  | closingChannel | awaitingReader => exact absurd hisOf hdispose

/-- A closing begins: the server is told, unless no document is listed. -/
theorem documentTurn_beginClose (hk : s.tasks[t]? = some ⟨.call .closeDocument, .created⟩)
    (hopen : s.refusal? = none) :
    DocumentTurn s (s.resume t .begins).session (s.handedIn (.resume t .begins)) ∧
      (s.resume t .begins).session.refusal? = none := by
  have hp : s.progressOf t = some .created := progressOf_of_get hk
  have hr : s.resume t .begins = s.beginClose t := by rw [resume, hk]; rfl
  cases hd : s.document with
  | none =>
    have hb : s.resume t .begins = s.succeed t := by rw [hr, beginClose, hd]
    refine KeepsDocument.documentTurn (hb ▸ .finish s t _) hopen fun v => ?_
    rw [hb, session_succeed, mem_closings, progressOf_moveTask, mem_closings]
    by_cases hv : v = t
    · subst hv
      simp [hp]
    · rw [if_neg hv]
  | some d =>
    have hb : s.resume t .begins
        = ⟨s.moveTask t .closing, [.perform t (.send (Session.closed d.uri))]⟩ := by
      rw [hr, beginClose, hd]
      exact transmit_of_open hopen t _ _
    have hhanded : s.handedIn (.resume t .begins) = [⟨.closed, t, s.closings⟩] := by
      rw [handedIn, step, hb]
      rfl
    have hlisted : s.document.isSome = true := by
      rw [hd]
      rfl
    rw [hhanded, hb]
    refine ⟨.closed t hlisted hlisted fun v => ?_, hopen⟩
    rw [mem_closings, progressOf_moveTask, mem_closings]
    by_cases hv : v = t
    · subst hv
      simp [hp]
    · simp [hv]

/-- A closing was written: the document is forgotten. -/
theorem documentTurn_closed (hk : s.tasks[t]? = some ⟨.call .closeDocument, .closing⟩)
    (hopen : s.refusal? = none) (text : String) :
    DocumentTurn s (s.resume t (.returned (.ok text))).session
        (s.handedIn (.resume t (.returned (.ok text)))) ∧
      (s.resume t (.returned (.ok text))).session.refusal? = none := by
  have hp : s.progressOf t = some .closing := progressOf_of_get hk
  have hr : (s.resume t (.returned (.ok text))).session
      = { s with document := none }.moveTask t .finished := by
    rw [resume, hk]
    show (({ s with document := none }.succeed t).after _).session = _
    rw [Turned.session_after, session_succeed]
  have hhanded : s.handedIn (.resume t (.returned (.ok text))) = [] := by
    rw [handedIn, step, resume, hk]
    exact handed?_eq_nil ((allowed_finish _ t _ _).after (by simp [Effect.Allowed, written, logged]))
  rw [hhanded, hr]
  refine ⟨.forgotten t (mem_closings.mpr hp) rfl fun v => ?_, hopen⟩
  rw [mem_closings, progressOf_moveTask, mem_closings]
  by_cases hv : v = t
  · subst hv
    rw [if_pos rfl]
    show Option.map _ (s.progressOf v) = _ ↔ _
    simp [hp]
  · rw [if_neg hv]
    exact ⟨fun h => ⟨h, hv⟩, And.left⟩

/-- The turns of a closing. -/
theorem documentTurn_closing (hk : s.tasks[t]? = some ⟨.call .closeDocument, p⟩)
    (hisOf : p.IsOf (.call .closeDocument)) (hopen : s.refusal? = none) (hord : r.isOrdinary p = true) :
    DocumentTurn s (s.resume t r).session (s.handedIn (.resume t r)) ∧
      (s.resume t r).session.refusal? = none := by
  have hidle (h : s.resume t r = ⟨s, []⟩) : DocumentTurn s (s.resume t r).session
      (s.handedIn (.resume t r)) ∧ (s.resume t r).session.refusal? = none :=
    KeepsDocument.documentTurn (h ▸ .idle s) hopen fun v => by rw [h]
  cases p with
  | created =>
    cases r with
    | begins => exact documentTurn_beginClose hk hopen
    | cancelled => cases hord
    | returned x => cases x <;> exact hidle (by rw [resume, hk]; rfl)
    | replied | rested | streamEnded | readerFinished => exact hidle (by rw [resume, hk])
  | closing =>
    cases r with
    | returned x =>
      cases x with
      | error f => cases hord
      | ok text => exact documentTurn_closed hk hopen text
    | cancelled => cases hord
    | begins | replied | rested | streamEnded | readerFinished => exact hidle (by rw [resume, hk])
  | finished =>
    cases r with
    | cancelled => cases hord
    | returned x => cases x <;> exact hidle (by rw [resume, hk]; rfl)
    | begins | replied | rested | streamEnded | readerFinished => exact hidle (by rw [resume, hk])
  | requesting purpose => cases purpose <;> simp [Progress.IsOf] at hisOf
  | openingChannel | announcing | reading | opening | settling | updating | answering | telling | listening
  | closingChannel | awaitingReader => simp [Progress.IsOf] at hisOf

/-- The turn in which a text was read: the document is listed, unless it has no language. -/
theorem documentTurn_read (hk : s.tasks[t]? = some ⟨job, .reading⟩) (hopen : s.refusal? = none)
    (text : String) (hclosings : ∀ v,
      v ∈ (s.resume t (.returned (.ok text))).session.closings ↔ v ∈ s.closings) :
    DocumentTurn s (s.resume t (.returned (.ok text))).session
        (s.handedIn (.resume t (.returned (.ok text)))) ∧
      (s.resume t (.returned (.ok text))).session.refusal? = none := by
  have hr : s.resume t (.returned (.ok text)) = s.openWith t text := by rw [resume, hk]; rfl
  cases hl : s.profile.language with
  | error f =>
    refine KeepsDocument.documentTurn ?_ hopen hclosings
    rw [hr, openWith, hl]
    exact .finish s t _
  | ok language =>
    obtain ⟨d, version, hb⟩ : ∃ d version, s.resume t (.returned (.ok text))
        = ⟨{ s with document := some d }.moveTask t .opening,
            [.perform t (.send (Session.opened s.profile.uri language version text))]⟩ := by
      rw [hr, openWith, hl]
      refine ⟨_, _, transmit_of_open ?_ t _ _⟩
      exact hopen
    have hhanded : s.handedIn (.resume t (.returned (.ok text))) = [⟨.opened, t, s.closings⟩] := by
      rw [handedIn, step, hb]
      rfl
    rw [hhanded]
    exact ⟨.opened t (by rw [hb]; rfl) hclosings, by rw [hb]; exact hopen⟩

/-- The first turn of a change: the server is told if the document is listed. -/
theorem documentTurn_change {text : Json} (hk : s.tasks[t]? = some ⟨.call (.updateDocument text), .created⟩)
    (hopen : s.refusal? = none)
    (hclosings : ∀ v, v ∈ (s.resume t .begins).session.closings ↔ v ∈ s.closings) :
    DocumentTurn s (s.resume t .begins).session (s.handedIn (.resume t .begins)) ∧
      (s.resume t .begins).session.refusal? = none := by
  have hr : s.resume t .begins = s.beginUpdate t text := by rw [resume, hk]; rfl
  cases hd : s.document with
  | none =>
    refine KeepsDocument.documentTurn ?_ hopen hclosings
    rw [hr, beginUpdate, hd]
    exact .finish s t _
  | some d =>
    obtain ⟨d, version, hb⟩ : ∃ d' version, s.resume t .begins
        = ⟨{ s with document := some d' }.moveTask t .updating,
            [.perform t (.send (Session.changed d.uri version text))]⟩ := by
      rw [hr, beginUpdate, hd]
      refine ⟨_, _, transmit_of_open ?_ t _ _⟩
      exact hopen
    have hhanded : s.handedIn (.resume t .begins) = [⟨.changed, t, s.closings⟩] := by
      rw [handedIn, step, hb]
      rfl
    rw [hhanded]
    exact ⟨.changed t (by rw [hd]; rfl) (by rw [hb]; rfl) hclosings, by rw [hb]; exact hopen⟩

end

/-- **What an undisturbed turn does to the document**; messages are taken as before. -/
theorem documentTurn_step {s : Session} (ho : Orderly s) (hopen : s.refusal? = none) {u : Turn}
    (hu : s.isUndisturbed u = true) :
    DocumentTurn s (s.step u).session (s.handedIn u) ∧ (s.step u).session.refusal? = none := by
  cases u with
  | call c =>
    refine ⟨.quiet rfl fun v => ?_, hopen⟩
    rw [mem_closings, mem_closings]
    show (s.addTask (.call c)).1.progressOf v = _ ↔ _
    rw [progressOf_addTask]
    split
    · next hv => simp [progressOf_eq_none.mpr (Nat.le_of_eq hv.symm)]
    · exact Iff.rfl
  | account v f =>
    have hhanded : s.handedIn (.account v f) = [] :=
      handed?_eq_nil (allowed_step_of_task?_none s (u := .account v f) rfl _ _ _ 0)
    rw [hhanded]
    exact ⟨.quiet rfl fun _ => Iff.rfl, hopen⟩
  | receive m =>
    have hkeeps := KeepsDocument.receive s m
    rw [show s.handedIn (.receive m) = [] from hkeeps.handed s]
    exact ⟨.quiet (congrArg Option.isSome hkeeps.document) (mem_closings_of_kept (.receive s m)),
      hkeeps.refusal.trans hopen⟩
  | resume t r =>
    show DocumentTurn s (s.resume t r).session _ ∧ (s.resume t r).session.refusal? = none
    cases hk : s.tasks[t]? with
    | none =>
      have hr : s.resume t r = ⟨s, []⟩ := by rw [resume, hk]
      exact KeepsDocument.documentTurn (hr ▸ .idle s) hopen fun v => by rw [hr]
    | some k =>
      obtain ⟨job, p⟩ := k
      simp only [isUndisturbed, hk, Bool.and_eq_true, decide_eq_true_eq] at hu
      obtain ⟨⟨hhandshake, hdispose⟩, hord⟩ := hu
      have hp : s.progressOf t = some p := progressOf_of_get hk
      have hisOf : p.IsOf job := ho t job p (jobOf_of_get hk) hp
      by_cases hclose : job = .call .closeDocument
      · subst hclose
        exact documentTurn_closing hk hisOf hopen hord
      · -- no closing, so that no task enters or leaves its window
        have hclosings := mem_closings_of_moved (moved_resume s t hk hisOf r) hp hisOf hclose
        rcases resume_document hk hisOf hhandshake hdispose hord with
          hkeeps | ⟨rfl, rfl, text, rfl⟩ | ⟨rfl, text, rfl⟩ | h
        · exact hkeeps.documentTurn hopen hclosings
        · exact documentTurn_change hk hopen hclosings
        · exact documentTurn_read hk hopen text hclosings
        · exact absurd h hclose

end EditorServices.Session
