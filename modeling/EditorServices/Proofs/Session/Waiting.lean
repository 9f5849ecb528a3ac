import EditorServices.Proofs.Session.Frame

/-!
# `Proofs.Session.Waiting` — the tasks that wait for requests

A request lives in two places: in the table of pending requests, and in the progress of the task that
waits for its reply. `waitOf` is the second place. This file says how it changes when a task is moved
and when replies are given.

## Contents
- **Waits.** `Wait`, `waitOf`, and how `moveTask` and `addTask` show in it.
- **Replies.** The same for `reply`, `replyAll` and `failPending`, which leave everything else alone.
-/

namespace EditorServices.Session

/-! ## Waits -/

/-- What a task with a request waits for: the request to be written, its reply, or only its turn. -/
structure Wait where
  purpose : Purpose
  id : Nat
  written : Bool
  reply : Option Reply
deriving DecidableEq

/-- A wait after a reply was given to it. A wait that has a reply keeps that. -/
def Wait.answered (r : Reply) (w : Wait) : Wait :=
  if w.reply.isNone then { w with reply := some r } else w

def Progress.wait? : Progress → Option Wait
  | .requesting purpose id written reply => some ⟨purpose, id, written, reply⟩
  | _ => none

/-- What a task waits for, if it waits for a request. -/
def waitOf (s : Session) (t : Nat) : Option Wait := (s.progressOf t).bind Progress.wait?

@[simp] theorem Wait.id_answered (r : Reply) (w : Wait) : (w.answered r).id = w.id := by
  unfold answered; split <;> rfl

theorem Wait.reply_answered (r : Reply) (w : Wait) : (w.answered r).reply = w.reply.or (some r) := by
  unfold answered
  cases h : w.reply <;> simp [h]

theorem Wait.answered_of_reply {r q : Reply} {w : Wait} (h : w.reply = some q) : w.answered r = w := by
  simp [answered, h]

@[simp] theorem Wait.answered_answered (r : Reply) (w : Wait) :
    (w.answered r).answered r = w.answered r := by
  cases h : (w.answered r).reply with
  | none => rw [Wait.reply_answered] at h; cases hw : w.reply <;> simp [hw] at h
  | some q => exact answered_of_reply h

theorem waitOf_of_progressOf {s : Session} {t : Nat} {p : Progress} (h : s.progressOf t = some p) :
    s.waitOf t = p.wait? := by
  rw [waitOf, h]; rfl

/-- The progress of a task with a wait. -/
theorem progressOf_of_waitOf {s : Session} {t : Nat} {w : Wait} (h : s.waitOf t = some w) :
    s.progressOf t = some (.requesting w.purpose w.id w.written w.reply) := by
  unfold waitOf at h
  cases hp : s.progressOf t with
  | none => rw [hp] at h; cases h
  | some p =>
    rw [hp] at h
    cases p <;> simp [Progress.wait?] at h
    subst h; rfl

theorem waitOf_moveTask (s : Session) (t u : Nat) (p : Progress) :
    (s.moveTask t p).waitOf u
      = if u = t then (s.progressOf t).bind fun _ => p.wait? else s.waitOf u := by
  unfold waitOf
  rw [progressOf_moveTask]
  by_cases hu : u = t
  · subst hu
    rw [if_pos rfl, if_pos rfl]
    cases s.progressOf u <;> rfl
  · rw [if_neg hu, if_neg hu]

/-- A task without a wait that goes on to something else than a request shows nowhere. -/
theorem waitOf_moveTask_of_none {s : Session} {t : Nat} {p : Progress} (hp : p.wait? = none)
    (ht : s.waitOf t = none) (u : Nat) : (s.moveTask t p).waitOf u = s.waitOf u := by
  rw [waitOf_moveTask]
  by_cases hu : u = t
  · subst hu; rw [if_pos rfl, ht, hp]; cases s.progressOf u <;> rfl
  · rw [if_neg hu]

/-- A task that goes on to something else than a request has no wait. -/
theorem waitOf_moveTask_leave {s : Session} {t : Nat} {p : Progress} (hp : p.wait? = none) (u : Nat) :
    (s.moveTask t p).waitOf u = if u = t then none else s.waitOf u := by
  rw [waitOf_moveTask, hp]
  by_cases hu : u = t
  · rw [if_pos hu, if_pos hu]; cases s.progressOf t <;> rfl
  · rw [if_neg hu, if_neg hu]

@[simp] theorem waitOf_addTask (s : Session) (job : Job) (u : Nat) :
    (s.addTask job).1.waitOf u = s.waitOf u := by
  unfold waitOf
  rw [progressOf_addTask]
  by_cases hu : u = s.tasks.length
  · rw [if_pos hu, progressOf_eq_none.mpr (Nat.le_of_eq hu.symm)]; rfl
  · rw [if_neg hu]

@[simp] theorem wait?_sending {s : Session} {next : Progress} (h : next.wait? = none) :
    (s.sending next).wait? = none := by
  unfold sending; split
  · rfl
  · exact h

/-! ## Replies -/

/-- A reply changes the wait that it is given to, and nothing else. -/
theorem waitOf_reply (s : Session) (t : Nat) (r : Reply) (u : Nat) :
    (s.reply t r).session.waitOf u
      = if u = t then (s.waitOf t).map (Wait.answered r) else s.waitOf u := by
  unfold reply
  rw [show (s.tasks[t]?).map Task.progress = s.progressOf t from rfl]
  split
  · next purpose id written hp =>
    rw [waitOf_moveTask, hp, waitOf_of_progressOf hp]
    rfl
  · next hp =>
    -- no wait, or one that has its reply: both stay as they are
    by_cases hu : u = t
    · subst hu
      rw [if_pos rfl]
      cases hw : s.waitOf u with
      | none => rfl
      | some w =>
        have hpr := progressOf_of_waitOf hw
        cases hr : w.reply with
        | none => rw [hr] at hpr; exact absurd hpr (hp _ _ _)
        | some q => rw [Option.map_some, Wait.answered_of_reply hr]
    · rw [if_neg hu]

section
variable (s : Session) (t : Nat) (r : Reply)

/-- A reply moves the task that it is given to, or does nothing. -/
theorem reply_preserves {P : Session → Prop} (hs : P s) (hmove : ∀ p, P (s.moveTask t p)) :
    P (s.reply t r).session := by
  unfold reply
  split
  · exact hmove _
  · exact hs

@[simp] theorem pending_reply : (s.reply t r).session.pending = s.pending :=
  reply_preserves s t r (P := fun x => x.pending = s.pending) rfl fun _ => rfl

@[simp] theorem lastRequest_reply : (s.reply t r).session.lastRequest = s.lastRequest :=
  reply_preserves s t r (P := fun x => x.lastRequest = s.lastRequest) rfl fun _ => rfl

@[simp] theorem phase_reply : (s.reply t r).session.phase = s.phase :=
  reply_preserves s t r (P := fun x => x.phase = s.phase) rfl fun _ => rfl

@[simp] theorem ended_reply : (s.reply t r).session.ended = s.ended :=
  reply_preserves s t r (P := fun x => x.ended = s.ended) rfl fun _ => rfl

@[simp] theorem writer_reply : (s.reply t r).session.writer = s.writer :=
  reply_preserves s t r (P := fun x => x.writer = s.writer) rfl fun _ => rfl

@[simp] theorem document_reply : (s.reply t r).session.document = s.document :=
  reply_preserves s t r (P := fun x => x.document = s.document) rfl fun _ => rfl

@[simp] theorem jobOf_reply (u : Nat) : (s.reply t r).session.jobOf u = s.jobOf u :=
  reply_preserves s t r (P := fun x => x.jobOf u = s.jobOf u) rfl fun _ => jobOf_moveTask ..

end

/-- A task without a wait keeps its progress when a reply is given. -/
theorem progressOf_reply_of_none {s : Session} {u : Nat} (h : s.waitOf u = none) (t : Nat) (r : Reply) :
    (s.reply t r).session.progressOf u = s.progressOf u := by
  unfold reply
  split
  · next purpose id written hp =>
    rw [progressOf_moveTask]
    by_cases hu : u = t
    · subst hu
      rw [waitOf_of_progressOf hp] at h
      cases h
    · rw [if_neg hu]
  · rfl

/-- What holds of a session and survives every reply survives replies to many. -/
theorem replyAll_preserves {P : Session → Prop} {r : Reply}
    (hreply : ∀ s t, P s → P (s.reply t r).session) (ts : List Nat) {s : Session} (hs : P s) :
    P (replyAll r ts s).session := by
  induction ts generalizing s with
  | nil => exact hs
  | cons t ts ih => exact ih (hreply s t hs)

theorem waitOf_replyAll (r : Reply) (ts : List Nat) (s : Session) (u : Nat) :
    (replyAll r ts s).session.waitOf u
      = if u ∈ ts then (s.waitOf u).map (Wait.answered r) else s.waitOf u := by
  induction ts generalizing s with
  | nil => simp [replyAll]
  | cons t ts ih =>
    rw [replyAll, Turned.session_andThen, ih, waitOf_reply]
    by_cases hu : u = t
    · subst hu
      by_cases hm : u ∈ ts <;> simp [hm, Function.comp_def]
    · simp [hu]

/-- The pending requests are gone, and each of their tasks has the failure. -/
theorem waitOf_failPending (s : Session) (reason : String) (u : Nat) :
    (s.failPending reason).session.waitOf u
      = if u ∈ s.pending.map (·.2) then (s.waitOf u).map (Wait.answered (.error (closedFailure reason)))
        else s.waitOf u := by
  unfold failPending
  rw [waitOf_replyAll]
  rfl

@[simp] theorem pending_failPending (s : Session) (reason : String) :
    (s.failPending reason).session.pending = [] :=
  replyAll_preserves (P := fun x => x.pending = []) (fun x t h => by simpa using h) _ rfl

section
variable (s : Session) (reason : String)

@[simp] theorem lastRequest_failPending :
    (s.failPending reason).session.lastRequest = s.lastRequest :=
  replyAll_preserves (P := fun x => x.lastRequest = s.lastRequest) (fun x t h => by simpa using h) _ rfl

@[simp] theorem phase_failPending : (s.failPending reason).session.phase = s.phase :=
  replyAll_preserves (P := fun x => x.phase = s.phase) (fun x t h => by simpa using h) _ rfl

@[simp] theorem ended_failPending : (s.failPending reason).session.ended = s.ended :=
  replyAll_preserves (P := fun x => x.ended = s.ended) (fun x t h => by simpa using h) _ rfl

@[simp] theorem writer_failPending : (s.failPending reason).session.writer = s.writer :=
  replyAll_preserves (P := fun x => x.writer = s.writer) (fun x t h => by simpa using h) _ rfl

@[simp] theorem document_failPending : (s.failPending reason).session.document = s.document :=
  replyAll_preserves (P := fun x => x.document = s.document) (fun x t h => by simpa using h) _ rfl

@[simp] theorem jobOf_failPending (u : Nat) : (s.failPending reason).session.jobOf u = s.jobOf u :=
  replyAll_preserves (P := fun x => x.jobOf u = s.jobOf u) (fun x t h => by simpa using h) _ rfl

end

/-- A task that gets the reply it waits for is woken, if its request was written. -/
theorem wake_mem_reply {s : Session} {t : Nat} {w : Wait} (hw : s.waitOf t = some w)
    (written : w.written = true) (waiting : w.reply = none) (r : Reply) :
    .wake t ∈ (s.reply t r).effects := by
  have hp := progressOf_of_waitOf hw
  rw [written, waiting] at hp
  unfold reply
  rw [show (s.tasks[t]?).map Task.progress = s.progressOf t from rfl, hp]
  exact List.mem_singleton_self _

/-- So is every task whose request fails with what is pending. -/
theorem wake_mem_failPending {s : Session} {t : Nat} {w : Wait} (ht : t ∈ s.pending.map (·.2))
    (hw : s.waitOf t = some w) (written : w.written = true) (waiting : w.reply = none)
    {reason : String} : .wake t ∈ (s.failPending reason).effects := by
  have hall : ∀ (r : Reply) (ts : List Nat) (x : Session), t ∈ ts → x.waitOf t = some w →
      .wake t ∈ (replyAll r ts x).effects := by
    intro r ts
    induction ts with
    | nil => intro x hm; cases hm
    | cons v ts ih =>
      intro x hm hx
      rw [replyAll, Turned.effects_andThen, List.mem_append]
      by_cases hv : v = t
      · subst hv
        exact .inl (wake_mem_reply hx written waiting r)
      · refine .inr (ih _ ((List.mem_cons.mp hm).resolve_left (fun h => hv h.symm)) ?_)
        rw [waitOf_reply, if_neg (fun h => hv h.symm), hx]
  exact hall _ _ _ ht hw

end EditorServices.Session
