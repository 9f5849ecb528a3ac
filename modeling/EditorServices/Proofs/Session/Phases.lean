import EditorServices.Proofs.Session.Ending
import Mathlib.Data.List.Induction

/-!
# `Proofs.Session.Phases` — a session moves forward, unless a handshake revives it

A session is meant to go through its phases in one direction, and to be disposed of for good. Three
turns set the phase: the first turn of a handshake, the turn in which the end of a handshake was written,
and the first turn of a disposal. The first two do not look at the phase that they leave, so that a
handshake which begins after a disposal, or whose end was being written when the disposal began, revives
the session.

The headline `moves_forward` says that nothing else takes a session back: as long as one handshake is
begun at most, the phases that are seen never fall back exactly when no handshake revives the session,
and a session that was disposed of then stays so. `handshakes_revive` shows both ways in which it fails.

## Contents
- **Seen phases.** `phases`, `Forward` and `Revived`.
- **One handshake.** `handshake_unique`, and `Begun`: a session that is being started, or that was, has a
  handshake that has begun.
- **One turn.** `rank_step`, and `rank_lt_of_sets` for the turns that revive.
- **The headline.** `moves_forward`.
-/

namespace EditorServices.Session

/-! ## Seen phases -/

/-- The phases that are seen of a history: before its first turn, and after each of its turns. -/
def phases (s : Session) : List Turn → List Phase
  | [] => [s.phase]
  | u :: h => s.phase :: (s.step u).session.phases h

/-- No phase comes after a later one. -/
def Forward (ps : List Phase) : Prop := ps.Pairwise fun a b => a.rank ≤ b.rank

instance (ps : List Phase) : Decidable (Forward ps) := inferInstanceAs (Decidable (List.Pairwise _ ps))

/-- A turn in which a handshake sets the phase: its first one, and the one in which its end was
written. -/
inductive Sets (s : Session) : Turn → Prop where
  | begins (t : Nat) (job : s.jobOf t = some (.call .handshake))
      (created : s.progressOf t = some .created) : Sets s (.resume t .begins)
  | announced (t : Nat) (text : String) (job : s.jobOf t = some (.call .handshake))
      (announcing : s.progressOf t = some .announcing) : Sets s (.resume t (.returned (.ok text)))

/-- A handshake sets the phase of a session that was disposed of. -/
def Revived (s : Session) (h : List Turn) : Prop :=
  ∃ a u b, h = a ++ u :: b ∧ (s.after a).phase = .disposed ∧ Sets (s.after a) u

/-- The phase after each part of a history is seen. -/
theorem phase_mem_phases (s : Session) (a b : List Turn) : (s.after a).phase ∈ s.phases (a ++ b) := by
  induction a generalizing s with
  | nil => cases b <;> exact List.mem_cons_self
  | cons u a ih => exact List.mem_cons_of_mem _ (ih (s.step u).session)

/-- What is seen after a part of a history comes last of what is seen of all. -/
theorem phases_append (s : Session) (a b : List Turn) :
    ∃ before, s.phases (a ++ b) = before ++ (s.after a).phases b := by
  induction a generalizing s with
  | nil => exact ⟨[], rfl⟩
  | cons u a ih =>
    obtain ⟨before, hbefore⟩ := ih (s.step u).session
    exact ⟨s.phase :: before, by rw [List.cons_append, phases, hbefore]; rfl⟩

/-- Steps that never fall back make a history that never does. -/
theorem forward_phases {s : Session} {h : List Turn}
    (hstep : ∀ a u b, h = a ++ u :: b →
      (s.after a).phase.rank ≤ ((s.after a).step u).session.phase.rank) : Forward (s.phases h) := by
  induction h generalizing s with
  | nil => exact List.pairwise_singleton _ _
  | cons u h ih =>
    have hrest : Forward ((s.step u).session.phases h) :=
      ih fun a v b heq => hstep (u :: a) v b (by rw [heq, List.cons_append])
    have hfirst : s.phase.rank ≤ (s.step u).session.phase.rank := hstep [] u h rfl
    refine List.pairwise_cons.mpr ⟨?_, hrest⟩
    intro x hx
    -- the first phase of the rest is not below, and the rest never falls back
    cases h with
    | nil =>
      rw [List.mem_singleton.mp hx]
      exact hfirst
    | cons v h =>
      rcases List.mem_cons.mp hx with rfl | hx
      · exact hfirst
      · exact Nat.le_trans hfirst ((List.pairwise_cons.mp hrest).1 x hx)

/-- In a history that never falls back, no turn does. -/
theorem rank_le_of_forward {s : Session} {a b : List Turn} (h : Forward (s.phases (a ++ b))) {x : Phase}
    (hx : x ∈ (s.after a).phases b) : (s.after a).phase.rank ≤ x.rank := by
  obtain ⟨before, hsplit⟩ := phases_append s a b
  unfold Forward at h
  rw [hsplit] at h
  have hlater := (List.pairwise_append.mp h).2.1
  cases b with
  | nil =>
    have hsame : x = (s.after a).phase := List.mem_singleton.mp hx
    exact Nat.le_of_eq (congrArg Phase.rank hsame.symm)
  | cons u b =>
    rcases List.mem_cons.mp hx with rfl | hx
    · exact Nat.le_refl _
    · exact (List.pairwise_cons.mp hlater).1 x hx

/-! ## One handshake -/

/-- Who begins a handshake made that call. -/
theorem handshake_called {p : Profile} {h : List Turn} {t : Nat}
    (hj : ((new p).after h).jobOf t = some (.call .handshake)) : .call .handshake ∈ h := by
  induction h using List.reverseRecOn generalizing t with
  | nil => cases hj
  | append_singleton h u ih =>
    rw [after_append] at hj
    cases hjob : ((new p).after h).jobOf t with
    | none =>
      obtain ⟨rfl, -⟩ := (orderly_after p h).jobOf_fresh hjob hj
      exact List.mem_append_right h (List.mem_singleton_self _)
    | some job =>
      obtain rfl : job = .call .handshake :=
        Option.some.inj (((orderly_after p h).jobOf_step u hjob).symm.trans hj)
      exact List.mem_append_left [u] (ih hjob)

/-- A session that is called to one handshake at most has one at most. -/
theorem handshake_unique {p : Profile} {h : List Turn} (once : h.count (.call .handshake) ≤ 1)
    {t v : Nat} (ht : ((new p).after h).jobOf t = some (.call .handshake))
    (hv : ((new p).after h).jobOf v = some (.call .handshake)) : t = v := by
  induction h using List.reverseRecOn generalizing t v with
  | nil => cases ht
  | append_singleton h u ih =>
    have ho := orderly_after p h
    rw [after_append] at ht hv
    rw [List.count_append] at once
    -- a handshake that was not there before is the call that is made now
    have hcase {w : Nat} (hw : (((new p).after h).after [u]).jobOf w = some (.call .handshake)) :
        ((new p).after h).jobOf w = some (.call .handshake) ∨
          u = .call .handshake ∧ w = ((new p).after h).tasks.length := by
      cases hjob : ((new p).after h).jobOf w with
      | none => exact .inr (ho.jobOf_fresh hjob hw)
      | some job => exact .inl ((ho.jobOf_step u hjob).symm.trans hw)
    have hnot (hu : u = .call .handshake) {w : Nat} :
        ((new p).after h).jobOf w ≠ some (.call .handshake) := by
      intro hw
      have hpos := List.count_pos_iff.mpr (handshake_called hw)
      rw [hu, List.count_singleton_self] at once
      omega
    rcases hcase ht with ht | ⟨hu, rfl⟩
    · rcases hcase hv with hv | ⟨hu, -⟩
      · exact ih (by omega) ht hv
      · exact absurd ht (hnot hu)
    · rcases hcase hv with hv | ⟨-, rfl⟩
      · exact absurd hv (hnot hu)
      · rfl

/-- A session that is being started, or that was, has a handshake that has begun. -/
def Begun (s : Session) : Prop :=
  s.phase = .initializing ∨ s.phase = .ready →
    ∃ t p, s.jobOf t = some (.call .handshake) ∧ s.progressOf t = some p ∧ p ≠ .created

/-- A handshake that has begun is still there, and does not begin again. -/
theorem begun_of_kept {s : Session} (ho : Orderly s) (u : Turn)
    (h : ∃ t p, s.jobOf t = some (.call .handshake) ∧ s.progressOf t = some p ∧ p ≠ .created) :
    ∃ t p, (s.step u).session.jobOf t = some (.call .handshake) ∧
      (s.step u).session.progressOf t = some p ∧ p ≠ .created := by
  obtain ⟨t, p, hj, hp, hb⟩ := h
  have hj' := ho.jobOf_step u hj
  obtain ⟨k, hk, -⟩ := Option.map_eq_some_iff.mp hj'
  refine ⟨t, k.progress, hj', progressOf_of_get hk, ?_⟩
  intro heq
  exact ho.begun_step u hp hb (heq ▸ progressOf_of_get hk)

/-- The first turn of a handshake. -/
theorem resume_handshake {s : Session} {t : Nat} (hj : s.jobOf t = some (.call .handshake))
    (hp : s.progressOf t = some .created) : s.resume t .begins
      = ⟨{ s with phase := .initializing }.moveTask t .openingChannel, [.perform t .openChannel]⟩ := by
  rw [resume, task_of_views hj hp]
  rfl

/-- The turn in which the end of a handshake was written. -/
theorem phase_announced {s : Session} {t : Nat} (hj : s.jobOf t = some (.call .handshake))
    (hp : s.progressOf t = some .announcing) (text : String) :
    (s.resume t (.returned (.ok text))).session.phase = .ready := by
  rw [resume, task_of_views hj hp]
  show (({ s with phase := .ready }.succeed t).after _).session.phase = .ready
  rw [Turned.session_after, session_succeed]
  rfl

theorem Begun.step {s : Session} (h : Begun s) (ho : Orderly s) (u : Turn) :
    Begun (s.step u).session := by
  have hsame (same : (s.step u).session.phase = s.phase) : Begun (s.step u).session := by
    intro hphase
    rw [same] at hphase
    exact begun_of_kept ho u (h hphase)
  cases course_step ho u with
  | steady same => exact hsame same.phase
  | ended _ _ _ _ _ _ phase | wrappedUp _ _ _ _ phase | spawned phase | accounted phase => exact hsame phase
  | disposed _ _ _ _ _ phase =>
    rintro (hphase | hphase) <;> cases phase.symm.trans hphase
  | shaken t _ job _ phase =>
    rcases phase with phase | ⟨rfl, created, -⟩ | ⟨-, announcing, -⟩
    · exact hsame phase
    · intro _
      refine ⟨t, .openingChannel, ho.jobOf_step _ job, ?_, by simp⟩
      show (s.resume t .begins).session.progressOf t = some .openingChannel
      rw [resume_handshake job created, progressOf_moveTask, if_pos rfl]
      show (s.progressOf t).map _ = _
      rw [created]
      rfl
    · intro _
      exact begun_of_kept ho u ⟨t, .announcing, job, announcing, by simp⟩

theorem begun_after (p : Profile) (h : List Turn) : Orderly ((new p).after h) ∧ Begun ((new p).after h) := by
  refine after_preserves (P := fun s => Orderly s ∧ Begun s) (fun s u hs => ⟨hs.1.step u, hs.2.step hs.1 u⟩)
    ⟨orderly_new p, ?_⟩ h
  rintro (hphase | hphase) <;> cases hphase

/-! ## One turn -/

/-- **A turn takes a session forward, unless a handshake revives it.** -/
theorem rank_step {s : Session} (ho : Orderly s) (hb : Begun s)
    (hunique : ∀ t v, s.jobOf t = some (.call .handshake) → s.jobOf v = some (.call .handshake) → t = v)
    (u : Turn) : s.phase.rank ≤ (s.step u).session.phase.rank ∨ s.phase = .disposed ∧ Sets s u := by
  have hsame (same : (s.step u).session.phase = s.phase) :
      s.phase.rank ≤ (s.step u).session.phase.rank := Nat.le_of_eq (congrArg Phase.rank same.symm)
  cases course_step ho u with
  | steady same => exact .inl (hsame same.phase)
  | ended _ _ _ _ _ _ phase | wrappedUp _ _ _ _ phase | spawned phase | accounted phase =>
    exact .inl (hsame phase)
  | disposed _ _ _ _ _ phase =>
    refine .inl ?_
    rw [phase]
    cases s.phase <;> decide
  | shaken t _ job _ phase =>
    rcases phase with phase | ⟨rfl, created, phase⟩ | ⟨⟨text, rfl⟩, announcing, phase⟩
    · exact .inl (hsame phase)
    · rw [phase]
      cases hphase : s.phase with
      | uninitialized => exact .inl (by decide)
      | disposed => exact .inr ⟨rfl, .begins t job created⟩
      | initializing | ready =>
        -- then a handshake has begun, and it is this one, which has not
        obtain ⟨v, p, hv, hp, hne⟩ := hb (by simp [hphase])
        obtain rfl := hunique t v job hv
        exact absurd (Option.some.inj (hp.symm.trans created)) hne
    · rw [phase]
      cases hphase : s.phase with
      | uninitialized | initializing | ready => exact .inl (by decide)
      | disposed => exact .inr ⟨rfl, .announced t text job announcing⟩

/-- A session that a handshake revives falls back. -/
theorem rank_lt_of_sets {s : Session} (hphase : s.phase = .disposed) {u : Turn} (hu : Sets s u) :
    (s.step u).session.phase.rank < s.phase.rank := by
  rw [hphase]
  cases hu with
  | begins t job created =>
    show (s.resume t .begins).session.phase.rank < _
    rw [resume_handshake job created]
    show Phase.rank .initializing < Phase.rank .disposed
    decide
  | announced t text job announcing =>
    show (s.resume t _).session.phase.rank < _
    rw [phase_announced job announcing text]
    decide

/-! ## The headline -/

/-- **A session moves forward, unless a handshake revives it.** Of a session that is called to one
handshake at most,

* the phases that are seen never fall back exactly when no handshake sets the phase of the session after
  it was disposed of;
* and then the session is disposed of in every state after the first turn of a disposal. -/
theorem moves_forward {p : Profile} {h : List Turn} (once : h.count (.call .handshake) ≤ 1) :
    (Forward ((new p).phases h) ↔ ¬ Revived (new p) h) ∧
      (¬ Revived (new p) h → ∀ a t b, h = a ++ .resume t .begins :: b →
        ((new p).after a).jobOf t = some (.call .dispose) →
        ((new p).after a).progressOf t = some .created → ((new p).after h).phase = .disposed) := by
  have hforward : Forward ((new p).phases h) ↔ ¬ Revived (new p) h := by
    constructor
    · rintro hf ⟨a, u, b, rfl, hphase, hu⟩
      have hlt := rank_lt_of_sets hphase hu
      have hle := rank_le_of_forward hf (phase_mem_phases _ [u] b)
      change _ ≤ (((new p).after a).step u).session.phase.rank at hle
      omega
    · intro hnot
      refine forward_phases fun a u b heq => ?_
      obtain ⟨ho, hb⟩ := begun_after p a
      have honce : a.count (.call .handshake) ≤ 1 := by
        rw [heq, List.count_append] at once
        omega
      rcases rank_step ho hb (fun t v => handshake_unique honce) u with hle | ⟨hphase, hu⟩
      · exact hle
      · exact absurd ⟨a, u, b, heq, hphase, hu⟩ hnot
  refine ⟨hforward, fun hnot a t b heq hj hp => ?_⟩
  have hf := hforward.mpr hnot
  rw [heq, List.append_cons] at hf ⊢
  have hseen := phase_mem_phases ((new p).after (a ++ [.resume t .begins])) b []
  rw [List.append_nil] at hseen
  have hle := rank_le_of_forward hf hseen
  have hdisposed : ((new p).after (a ++ [.resume t .begins])).phase = .disposed := by
    rw [after_append]
    exact phase_dispose hj hp
  rw [hdisposed, ← after_append] at hle
  -- no other phase is as late
  revert hle
  cases ((new p).after (a ++ [.resume t .begins] ++ b)).phase <;> decide

/-! ### Disposals in the way of a handshake -/

/-- A handshake that begins after a disposal takes the session back to its start; one whose end was being
written when the disposal began makes it ready. -/
theorem handshakes_revive :
    let p : Profile := ⟨"/a.txt", .str "text", "/", .int 0, false, false, 1⟩
    let after : List Turn := [.call .dispose, .call .handshake, .resume 0 .begins, .resume 1 .begins]
    let meanwhile : List Turn := [.call .handshake, .resume 0 .begins, .resume 0 (.returned (.ok "")),
      .resume 1 .begins, .resume 0 (.returned (.ok "")),
      .receive (.obj [("id", .int 1), ("result", .obj [])]), .resume 0 .replied,
      .call .dispose, .resume 2 .begins, .resume 0 (.returned (.ok ""))]
    (after.count (.call .handshake) ≤ 1 ∧ ¬ Forward ((new p).phases after) ∧
      ((new p).after after).phase = .initializing) ∧
    meanwhile.count (.call .handshake) ≤ 1 ∧ ¬ Forward ((new p).phases meanwhile) ∧
      ((new p).after meanwhile).phase = .ready := by
  decide +kernel

/-- A disposal that begins while the request of the handshake is being written takes the session
forward, and the handshake fails without a change of the phase. -/
theorem moves_forward_interrupted :
    let p : Profile := ⟨"/a.txt", .str "text", "/", .int 0, false, false, 1⟩
    let h : List Turn := [.call .handshake, .resume 0 .begins, .resume 0 (.returned (.ok "")),
      .resume 1 .begins, .call .dispose, .resume 2 .begins, .resume 0 (.returned (.ok ""))]
    h.count (.call .handshake) ≤ 1 ∧ ¬ Revived (new p) h ∧ ((new p).after h).phase = .disposed := by
  intro p h
  have once : h.count (.call .handshake) ≤ 1 := by decide +kernel
  obtain ⟨hforward, hdisposed⟩ := @moves_forward p h once
  have hnot : ¬ Revived (new p) h := hforward.mp (by decide +kernel)
  exact ⟨once, hnot, hdisposed hnot [.call .handshake, .resume 0 .begins, .resume 0 (.returned (.ok "")),
    .resume 1 .begins, .call .dispose] 2 [.resume 0 (.returned (.ok ""))] rfl (by decide +kernel)
    (by decide +kernel)⟩

end EditorServices.Session
