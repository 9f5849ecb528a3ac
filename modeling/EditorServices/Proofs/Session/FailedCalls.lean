import EditorServices.Proofs.Session.DocumentChanges
import EditorServices.Transport.Channel

/-!
# `Proofs.Session.FailedCalls` — what a call that fails leaves of the document

An opening, a change or a closing of the document may fail at several places: the file cannot be read,
the document has no language, the session is closed, the channel does not write. A closing touches the
document only after all of them. The other two give it its next version first and send the message
afterwards, so that they leave the document as it was only if they fail before they are accepted.

What follows is about a call that runs alone: from the call to its end no other call has a turn, while
messages may arrive and the inbound stream may end.

## Contents
- **Running alone.** `isAlone` and `runsAlone`.
- **What is left.** `leftBy`, the document that a failed call leaves.
- **The course of a call.** `Attempt`, kept by each turn, and `attempt_run`.
- **The headline.** `document_after_failure`, and a case in which the document is not as before.
-/

namespace EditorServices.Session

/-- A call is about the life of the document. -/
def Call.IsOnDocument : Call → Prop
  | .openDocument | .updateDocument _ | .closeDocument => True
  | .handshake | .ask _ _ _ | .dispose => False

/-! ## Running alone -/

/-- A turn while the call of a task runs alone: nobody makes a call, no other call has a turn, the caller
does not give up, and reading the file gives `file`. -/
def isAlone (t : Nat) (file : Except Failure String) (s : Session) : Turn → Bool
  | .call _ => false
  | .resume v r =>
    if v = t then
      match r with
      | .cancelled => false
      | .returned x => s.progressOf t != some .reading || x == file
      | _ => true
    else
      match s.jobOf v with
      | some (.call _) => false
      | _ => true
  | .receive _ | .account _ _ => true

/-- Every turn of a history is one while the call of a task runs alone. -/
def runsAlone (t : Nat) (file : Except Failure String) (s : Session) : List Turn → Bool
  | [] => true
  | u :: h => isAlone t file s u && runsAlone t file (s.step u).session h

/-! ## What is left -/

/-- The document that a call leaves when it fails, if reading the file gives `file`. -/
def leftBy (s : Session) (file : Except Failure String) : Call → Option DocumentHandle
  | .openDocument =>
    match file with
    | .ok _ => s.acceptedHandle .opened
    | .error _ => s.document
  | .updateDocument _ => s.acceptedHandle .changed
  | .closeDocument | .handshake | .ask _ _ _ | .dispose => s.document

/-- A call leaves the document as it was if it was not accepted. -/
theorem leftBy_eq_iff {s : Session} (file : Except Failure String) {c : Call} (hc : c.IsOnDocument)
    (listed : ∀ text, c = .updateDocument text → s.document.isSome = true) :
    s.leftBy file c = s.document ↔ c = .closeDocument ∨
      c = .openDocument ∧ ((∃ f, file = .error f) ∨ ∃ f, s.profile.language = .error f) := by
  cases c with
  | openDocument =>
    cases file with
    | error f => simp [leftBy]
    | ok text =>
      cases hl : s.profile.language with
      | error f => simp [leftBy, acceptedHandle, hl]
      | ok language =>
        have hne : s.leftBy (.ok text) .openDocument ≠ s.document := by
          simp only [leftBy, acceptedHandle, hl]
          intro heq
          -- the version is another one
          have hversion : s.nextVersion = (s.document.map DocumentHandle.version).getD 0 := by
            rw [← heq]
            rfl
          unfold nextVersion at hversion
          omega
        simp [hne]
  | updateDocument text =>
    obtain ⟨d, hd⟩ := Option.isSome_iff_exists.mp (listed text rfl)
    have hne : s.leftBy file (.updateDocument text) ≠ s.document := by
      simp only [leftBy, acceptedHandle, hd, Option.map_some]
      intro heq
      have hversion := congrArg DocumentHandle.version (Option.some.inj heq)
      exact absurd hversion (by dsimp only; omega)
    simp [hne]
  | closeDocument => simp [leftBy]
  | handshake | ask | dispose => cases hc

/-- A document that is not as it was has the next version. -/
theorem version_leftBy {s : Session} {file : Except Failure String} {c : Call}
    (hne : s.leftBy file c ≠ s.document) :
    (s.leftBy file c).map DocumentHandle.version = some s.nextVersion := by
  cases c with
  | openDocument =>
    cases file with
    | error f => exact absurd rfl hne
    | ok text =>
      cases hl : s.profile.language with
      | error f => exact absurd (by simp [leftBy, acceptedHandle, hl]) hne
      | ok language => simp [leftBy, acceptedHandle, hl, openedHandle]
  | updateDocument text =>
    cases hd : s.document with
    | none => exact absurd (by simp [leftBy, acceptedHandle, hd]) hne
    | some d => simp [leftBy, acceptedHandle, nextVersion, hd]
  | closeDocument | handshake | ask | dispose => exact absurd rfl hne

/-! ## The course of a call -/

/-- The document is the one that the call leaves when it fails. A change that gets as far as this has
found the document listed. -/
def Left (s : Session) (file : Except Failure String) (c : Call) (q : Session) : Prop :=
  q.document = s.leftBy file c ∧ ∀ text, c = .updateDocument text → s.document.isSome = true

/-- How far the call of a task has come that runs alone, begun in a session `s`. -/
inductive Attempt (s : Session) (file : Except Failure String) (c : Call) (t : Nat) (q : Session)
    (es : List Effect) : Prop where
  /-- It is not accepted yet, and the document is as it was. -/
  | early (p : Progress) (stage : q.progressOf t = some p) (waits : p = .created ∨ p = .reading)
      (document : q.document = s.document) (running : ∀ o, .completed t o ∉ es)
  /-- It waits for its message to be written, or for the server. -/
  | late (p : Progress) (stage : q.progressOf t = some p)
      (waits : p = .opening ∨ p = .settling ∨ p = .updating ∨ p = .closing) (left : Left s file c q)
      (running : ∀ o, .completed t o ∉ es)
  /-- It is over. -/
  | ended (stage : q.progressOf t = some .finished)
      (left : ∀ f, .completed t (.error f) ∈ es → Left s file c q)

/-- How the call of a task ends, if an effect is its end. -/
def outcome? (t : Nat) : Effect → Option (Except Failure Answer)
  | .completed v o => if v = t then some o else none
  | _ => none

theorem completed_of_outcome {es : List Effect} {t : Nat} {o : Except Failure Answer}
    (h : o ∈ es.filterMap (outcome? t)) : .completed t o ∈ es := by
  obtain ⟨e, he, heq⟩ := List.mem_filterMap.mp h
  cases e with
  | completed v x =>
    rw [outcome?] at heq
    split at heq
    · next hv =>
      rw [hv, Option.some.inj heq] at he
      exact he
    · cases heq
  | _ => cases heq

namespace Attempt

variable {s q : Session} {file : Except Failure String} {c : Call} {t : Nat} {es : List Effect}

/-- A call that fails is over. -/
theorem ofGiveUp (hj : q.jobOf t = some (.call c)) {p : Progress} (hp : q.progressOf t = some p)
    (left : Left s file c q) (f : Failure) :
    Attempt s file c t (q.giveUp t f).session (es ++ (q.giveUp t f).effects) := by
  rw [giveUp, finish_call hj]
  exact .ended (progressOf_moveTask_self hp _) fun _ _ => left

/-- A call that succeeds is over, and has not failed. -/
theorem ofSucceed (hj : q.jobOf t = some (.call c)) {p : Progress} (hp : q.progressOf t = some p)
    (running : ∀ o, .completed t o ∉ es) {lines : List Effect} (quiet : ∀ o, .completed t o ∉ lines) :
    Attempt s file c t ((q.succeed t).after lines).session (es ++ ((q.succeed t).after lines).effects) := by
  rw [succeed, finish_call hj]
  refine .ended (progressOf_moveTask_self hp _) fun f hf => ?_
  simp [running, quiet] at hf

/-- A call that has to send a message fails or waits for it to be written. -/
theorem ofTransmit (hj : q.jobOf t = some (.call c)) {p : Progress} (hp : q.progressOf t = some p)
    (left : Left s file c q) (running : ∀ o, .completed t o ∉ es) (m : Json) {next : Progress}
    (waits : next = .opening ∨ next = .settling ∨ next = .updating ∨ next = .closing) :
    Attempt s file c t (q.transmit t m next).session (es ++ (q.transmit t m next).effects) := by
  unfold transmit
  cases q.refusal? with
  | some f => exact ofGiveUp hj hp left _
  | none =>
    refine .late next (progressOf_moveTask_self hp _) waits left fun o ho => ?_
    simp [running] at ho

/-- The first turn of the call. -/
theorem begins (hc : c.IsOnDocument) (hj : q.jobOf t = some (.call c)) (hp : q.progressOf t = some .created)
    (document : q.document = s.document) (running : ∀ o, .completed t o ∉ es) :
    Attempt s file c t (q.beginCall t c).session (es ++ (q.beginCall t c).effects) := by
  have hquiet (o : Except Failure Answer) : Effect.completed t o ∉ [] := List.not_mem_nil
  cases c with
  | openDocument =>
    refine .early .reading (progressOf_moveTask_self hp _) (.inr rfl) document fun o ho => ?_
    simp [beginCall, running] at ho
  | updateDocument text =>
    show Attempt s file _ t (q.beginUpdate t text).session (es ++ (q.beginUpdate t text).effects)
    unfold beginUpdate
    cases hd : q.document with
    | none => exact ofSucceed hj hp running hquiet
    | some d =>
      -- the document has its next version before the message is sent
      have hleft : Left s file (.updateDocument text)
          { q with document := some { d with version := d.version + 1 } } := by
        rw [document] at hd
        exact ⟨by simp [leftBy, acceptedHandle, hd], fun _ _ => by simp [hd]⟩
      exact ofTransmit (q := { q with document := some { d with version := d.version + 1 } }) hj hp hleft
        running _ (.inr (.inr (.inl rfl)))
  | closeDocument =>
    show Attempt s file _ t (q.beginClose t).session (es ++ (q.beginClose t).effects)
    unfold beginClose
    cases q.document with
    | none => exact ofSucceed hj hp running hquiet
    | some d =>
      have hleft : Left s file .closeDocument q := ⟨document, fun text h => by cases h⟩
      exact ofTransmit hj hp hleft running _ (.inr (.inr (.inr rfl)))
  | handshake | ask | dispose => cases hc

/-- The turn in which the text of an opening was read. -/
theorem read {text : String} (hj : q.jobOf t = some (.call .openDocument))
    (hp : q.progressOf t = some .reading) (profile : q.profile = s.profile)
    (document : q.document = s.document) (running : ∀ o, .completed t o ∉ es) :
    Attempt s (.ok text) .openDocument t (q.openWith t text).session (es ++ (q.openWith t text).effects) := by
  have hhandle (language : String) : q.openedHandle language = s.openedHandle language := by
    unfold openedHandle nextVersion
    rw [profile, document]
  unfold openWith
  dsimp only
  cases hl : q.profile.language with
  | error f =>
    rw [profile] at hl
    have hleft : Left s (.ok text) .openDocument q :=
      ⟨by simp [leftBy, acceptedHandle, hl, document], fun text h => by cases h⟩
    exact ofGiveUp hj hp hleft f
  | ok language =>
    rw [profile] at hl
    have hleft : Left s (.ok text) .openDocument { q with document := some (q.openedHandle language) } :=
      ⟨by simp [leftBy, acceptedHandle, hl, hhandle], fun text h => by cases h⟩
    exact ofTransmit (q := { q with document := some (q.openedHandle language) }) hj hp hleft running _
      (.inl rfl)

/-- A turn of a task that does nothing. -/
theorem idle (h : Attempt s file c t q es) {r : Resumption} (hr : q.resume t r = ⟨q, []⟩) :
    Attempt s file c t (q.resume t r).session (es ++ (q.resume t r).effects) := by
  rw [hr, List.append_nil]
  exact h

/-- The turns of the call before it is accepted. -/
theorem own_early (hc : c.IsOnDocument) (hj : q.jobOf t = some (.call c)) {p : Progress}
    (hp : q.progressOf t = some p) (waits : p = .created ∨ p = .reading) (hisOf : p.IsOf (.call c))
    (profile : q.profile = s.profile) (document : q.document = s.document)
    (running : ∀ o, .completed t o ∉ es) {r : Resumption}
    (alone : isAlone t file q (.resume t r) = true) :
    Attempt s file c t (q.resume t r).session (es ++ (q.resume t r).effects) := by
  have hnow : Attempt s file c t q es := .early p hp waits document running
  have hk := task_of_views hj hp
  rcases waits with rfl | rfl
  · cases r with
    | begins =>
      have hr : q.resume t .begins = q.beginCall t c := by
        rw [resume, hk]
        rfl
      rw [hr]
      exact begins hc hj hp document running
    | cancelled => simp [isAlone] at alone
    | returned x => cases x <;> exact hnow.idle (by rw [resume, hk]; rfl)
    | replied | rested | streamEnded | readerFinished => exact hnow.idle (by rw [resume, hk])
  · obtain rfl : c = .openDocument := Job.call.inj hisOf
    cases r with
    | returned x =>
      obtain rfl : x = file := by simpa [isAlone, hp] using alone
      cases x with
      | ok text =>
        have hr : q.resume t (.returned (.ok text)) = q.openWith t text := by
          rw [resume, hk]
          rfl
        rw [hr]
        exact read hj hp profile document running
      | error f =>
        have hr : q.resume t (.returned (.error f)) = q.giveUp t f := by
          rw [resume, hk]
          rfl
        have hleft : Left s (.error f) .openDocument q := ⟨document, fun text h => by cases h⟩
        rw [hr]
        exact ofGiveUp hj hp hleft f
    | cancelled => simp [isAlone] at alone
    | begins | replied | rested | streamEnded | readerFinished => exact hnow.idle (by rw [resume, hk])

/-- The turns of the call after it was accepted. -/
theorem own_late (hj : q.jobOf t = some (.call c)) {p : Progress} (hp : q.progressOf t = some p)
    (waits : p = .opening ∨ p = .settling ∨ p = .updating ∨ p = .closing) (left : Left s file c q)
    (running : ∀ o, .completed t o ∉ es) {r : Resumption}
    (alone : isAlone t file q (.resume t r) = true) :
    Attempt s file c t (q.resume t r).session (es ++ (q.resume t r).effects) := by
  have hnow : Attempt s file c t q es := .late p hp waits left running
  have hk := task_of_views hj hp
  -- a message that is not written ends the call
  have hfails (f : Failure) (hr : q.resume t (.returned (.error f)) = q.giveUp t f) :
      Attempt s file c t (q.resume t (.returned (.error f))).session
        (es ++ (q.resume t (.returned (.error f))).effects) := by
    rw [hr]
    exact ofGiveUp hj hp left f
  rcases waits with rfl | rfl | rfl | rfl
  · cases r with
    | returned x =>
      cases x with
      | ok text =>
        rw [resume, hk]
        refine .late .settling (progressOf_moveTask_self hp _) (.inr (.inl rfl)) left fun o ho => ?_
        simp [continueWith, written, logged, running] at ho
      | error f => exact hfails f (by rw [resume, hk]; rfl)
    | cancelled => simp [isAlone] at alone
    | begins | replied | rested | streamEnded | readerFinished => exact hnow.idle (by rw [resume, hk])
  · cases r with
    | rested =>
      have hr : q.resume t .rested = (q.succeed t).after [] := by
        rw [resume, hk]
        rfl
      rw [hr]
      exact ofSucceed hj hp running fun o => List.not_mem_nil
    | returned x => cases x <;> exact hnow.idle (by rw [resume, hk]; rfl)
    | cancelled => simp [isAlone] at alone
    | begins | replied | streamEnded | readerFinished => exact hnow.idle (by rw [resume, hk])
  · cases r with
    | returned x =>
      cases x with
      | ok text =>
        rw [resume, hk]
        exact ofSucceed hj hp running (by simp [written, logged])
      | error f => exact hfails f (by rw [resume, hk]; rfl)
    | cancelled => simp [isAlone] at alone
    | begins | replied | rested | streamEnded | readerFinished => exact hnow.idle (by rw [resume, hk])
  · cases r with
    | returned x =>
      cases x with
      | ok text =>
        -- the document is forgotten, but the call has not failed
        have hforgotten : Session.jobOf { q with document := none } t = some (.call c) := hj
        rw [resume, hk]
        exact ofSucceed hforgotten hp running (by simp [written, logged])
      | error f => exact hfails f (by rw [resume, hk]; rfl)
    | cancelled => simp [isAlone] at alone
    | begins | replied | rested | streamEnded | readerFinished => exact hnow.idle (by rw [resume, hk])

/-- The turns of the call. -/
theorem own (h : Attempt s file c t q es) (hc : c.IsOnDocument) (ho : Orderly q)
    (hj : q.jobOf t = some (.call c)) (profile : q.profile = s.profile) {r : Resumption}
    (alone : isAlone t file q (.resume t r) = true) :
    Attempt s file c t (q.resume t r).session (es ++ (q.resume t r).effects) := by
  cases h with
  | early p stage waits document running =>
    exact own_early hc hj stage waits (ho t _ p hj stage) profile document running alone
  | late p stage waits left running => exact own_late hj stage waits left running alone
  | ended stage left => exact (ended stage left).idle (resume_finished stage r)

/-- The turns of others: no call that is accepted, and none that forgets the document. -/
theorem elsewhere (h : Attempt s file c t q es) (ho : Orderly q) {u : Turn} (hu : u.task? ≠ some t)
    (alone : isAlone t file q u = true) :
    Attempt s file c t (q.step u).session (es ++ (q.step u).effects) := by
  have hnocall {v : Nat} {r : Resumption} (heq : u = .resume v r) (d : Call) :
      q.jobOf v ≠ some (.call d) := by
    subst heq
    intro hjob
    have hv : v ≠ t := fun hv => hu (congrArg some hv)
    simp [isAlone, hv, hjob] at alone
  have hdocument : (q.step u).session.document = q.document := by
    cases documentChange_step ho u with
    | kept untouched => exact untouched.document
    | accepted v message accepts =>
      cases accepts with
      | opening _ _ _ job => exact absurd job (hnocall rfl _)
      | change _ _ job => exact absurd job (hnocall rfl _)
    | forgotten v forgets =>
      cases forgets with
      | closing _ _ job => exact absurd job (hnocall rfl _)
      | disposal _ job => exact absurd job (hnocall rfl _)
  have hcompleted (o : Except Failure Answer) : .completed t o ∉ (q.step u).effects :=
    fun ho => hu (task?_of_completed ho)
  have hstage {p : Progress} (hp : q.progressOf t = some p) (hwait : p.wait? = none) :
      (q.step u).session.progressOf t = some p := by
    obtain ⟨x, hx, hpx⟩ := ho.progressOf_step hu hp
    rw [hx, hpx.eq_of_wait? hwait]
  cases h with
  | early p stage waits document running =>
    refine .early p (hstage stage ?_) waits (hdocument.trans document) fun o ho => ?_
    · rcases waits with rfl | rfl <;> rfl
    · exact (List.mem_append.mp ho).elim (running o) (hcompleted o)
  | late p stage waits left running =>
    refine .late p (hstage stage ?_) waits ⟨hdocument.trans left.1, left.2⟩ fun o ho => ?_
    · rcases waits with rfl | rfl | rfl | rfl <;> rfl
    · exact (List.mem_append.mp ho).elim (running o) (hcompleted o)
  | ended stage left =>
    refine .ended (hstage stage rfl) fun f hf => ?_
    have hleft := left f ((List.mem_append.mp hf).resolve_right (hcompleted _))
    exact ⟨hdocument.trans hleft.1, hleft.2⟩

/-- **Every turn while the call runs alone keeps its course.** -/
theorem step (h : Attempt s file c t q es) (hc : c.IsOnDocument) (ho : Orderly q)
    (hj : q.jobOf t = some (.call c)) (profile : q.profile = s.profile) {u : Turn}
    (alone : isAlone t file q u = true) :
    Attempt s file c t (q.step u).session (es ++ (q.step u).effects) := by
  by_cases hu : u.task? = some t
  · obtain ⟨r, rfl⟩ := Turn.exists_resume hu
    exact h.own hc ho hj profile alone
  · exact h.elsewhere ho hu alone

end Attempt

/-- The course of a call that runs alone. -/
theorem attempt_run {s q : Session} {file : Except Failure String} {c : Call} (hc : c.IsOnDocument) {t : Nat}
    (ho : Orderly q) (hj : q.jobOf t = some (.call c)) (profile : q.profile = s.profile)
    {es : List Effect} (now : Attempt s file c t q es) {h : List Turn}
    (alone : runsAlone t file q h = true) :
    Attempt s file c t (q.after h) (es ++ (q.run h).effects) := by
  induction h generalizing q es with
  | nil => simpa [run] using now
  | cons u h ih =>
    rw [runsAlone, Bool.and_eq_true] at alone
    have hnext := now.step hc ho hj profile alone.1
    have hprofile : (q.step u).session.profile = s.profile := (profile_step ho u).trans profile
    have hrest := ih (ho.step u) (ho.jobOf_step u hj) hprofile hnext alone.2
    rw [List.append_assoc] at hrest
    exact hrest

/-! ## The headline -/

/-- **What a failed call leaves.** If an opening, a change or a closing of the document fails that runs
alone, whatever happened to the session before,

* the document is the one that `leftBy` tells;
* it is the one before the call exactly if the call was a closing, or an opening whose file could not be
  read or whose document has no language;
* otherwise it is listed under the next version. -/
theorem document_after_failure {p : Profile} {g h : List Turn} {c : Call} (onDocument : c.IsOnDocument)
    {file : Except Failure String} {f : Failure}
    (alone : runsAlone ((new p).after g).tasks.length file ((new p).after (g ++ [.call c])) h = true)
    (failed : .completed ((new p).after g).tasks.length (.error f)
      ∈ (((new p).after (g ++ [.call c])).run h).effects) :
    ((new p).after (g ++ .call c :: h)).document = ((new p).after g).leftBy file c ∧
      (((new p).after (g ++ .call c :: h)).document = ((new p).after g).document ↔
        c = .closeDocument ∨
          c = .openDocument ∧ ((∃ e, file = .error e) ∨ ∃ e, p.language = .error e)) ∧
      (((new p).after (g ++ .call c :: h)).document ≠ ((new p).after g).document →
        ((new p).after (g ++ .call c :: h)).document.map DocumentHandle.version
          = some ((new p).after g).nextVersion) := by
  have hcalled : (new p).after (g ++ [.call c]) = (((new p).after g).addTask (.call c)).1 := by
    rw [after_append]
    rfl
  have hafter : (new p).after (g ++ .call c :: h) = ((new p).after (g ++ [.call c])).after h := by
    rw [← after_append, List.append_assoc]
    rfl
  have hprofile : ((new p).after g).profile = p := profile_after p g
  have hjob : ((new p).after (g ++ [.call c])).jobOf ((new p).after g).tasks.length = some (.call c) := by
    rw [hcalled, jobOf_addTask, if_pos rfl]
  have hstage : ((new p).after (g ++ [.call c])).progressOf ((new p).after g).tasks.length
      = some .created := by
    rw [hcalled, progressOf_addTask, if_pos rfl]
  have hdocument : ((new p).after (g ++ [.call c])).document = ((new p).after g).document := by
    rw [hcalled]
    rfl
  have hsame : ((new p).after (g ++ [.call c])).profile = ((new p).after g).profile := by
    rw [hcalled]
    rfl
  -- the call is followed from its beginning
  have hbegin : Attempt ((new p).after g) file c ((new p).after g).tasks.length
      ((new p).after (g ++ [.call c])) [] :=
    .early .created hstage (.inl rfl) hdocument fun o => List.not_mem_nil
  have hend := attempt_run onDocument (orderly_after p _) hjob hsame hbegin alone
  rw [List.nil_append, ← hafter] at hend
  have hleft : Left ((new p).after g) file c ((new p).after (g ++ .call c :: h)) := by
    cases hend with
    | early _ _ _ _ running => exact absurd failed (running _)
    | late _ _ _ _ running => exact absurd failed (running _)
    | ended _ left => exact left f failed
  obtain ⟨hdoc, hlisted⟩ := hleft
  rw [hdoc]
  refine ⟨rfl, ?_, version_leftBy⟩
  have hiff := leftBy_eq_iff file onDocument hlisted
  rw [hprofile] at hiff
  exact hiff

/-! ### A document that was never opened -/

/-- An opening before any handshake: the channel is not open and does not write the message. The call
fails, and a document is listed that was not listed before. -/
theorem failed_opening_lists_document :
    let p : Profile := ⟨"/a.txt", .str "text", "/", .int 0, false, false, 1⟩
    let h : List Turn := [.resume 0 .begins, .resume 0 (.returned (.ok "")),
      .resume 0 (.returned (.error Channel.notOpen))]
    runsAlone 0 (.ok "") ((new p).after [.call .openDocument]) h = true ∧
      .completed 0 (.error Channel.notOpen) ∈ (((new p).after [.call .openDocument]).run h).effects ∧
      ((new p).after []).document = none ∧
      ((new p).after (.call .openDocument :: h)).document
        = some ⟨"/a.txt", "file:///a.txt", "text", "/", 1, true⟩ := by
  intro p h
  exact ⟨by decide +kernel, completed_of_outcome (by decide +kernel), rfl, by decide +kernel⟩

/-- The general theorem says of a change that fails after the end of the inbound stream that the document
gets a version of which the server was not told. -/
theorem document_after_failure_ended :
    let p : Profile := ⟨"/a.txt", .str "text", "/", .int 0, false, false, 1⟩
    let g : List Turn := [.call .handshake, .resume 0 .begins, .resume 0 (.returned (.ok "")),
      .resume 1 .begins, .call .openDocument, .resume 2 .begins, .resume 2 (.returned (.ok "")),
      .resume 1 (.streamEnded "closed" none)]
    let c : Call := .updateDocument (.str "x")
    ((new p).after g).document.map DocumentHandle.version = some 1 ∧
      ((new p).after (g ++ [.call c, .resume 3 .begins])).document.map DocumentHandle.version = some 2 := by
  intro p g c
  have hversion : ((new p).after g).document.map DocumentHandle.version = some 1 := by decide +kernel
  have alone : runsAlone ((new p).after g).tasks.length (.ok "") ((new p).after (g ++ [.call c]))
      [.resume 3 .begins] = true := by decide +kernel
  have failed : .completed ((new p).after g).tasks.length (.error (closedFailure "closed"))
      ∈ (((new p).after (g ++ [.call c])).run [.resume 3 .begins]).effects :=
    completed_of_outcome (by decide +kernel)
  obtain ⟨-, hiff, hnext⟩ := @document_after_failure p g [.resume 3 .begins] c trivial (.ok "") _ alone failed
  have hne : ((new p).after (g ++ [.call c, .resume 3 .begins])).document ≠ ((new p).after g).document := by
    intro heq
    rcases hiff.mp heq with h | ⟨h, -⟩ <;> exact absurd h (by decide)
  refine ⟨hversion, (hnext hne).trans ?_⟩
  rw [nextVersion, hversion]
  rfl

end EditorServices.Session
