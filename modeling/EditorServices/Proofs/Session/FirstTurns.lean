import EditorServices.Proofs.Session.Requests
import EditorServices.Proofs.Session.WireOrder

/-!
# `Proofs.Session.FirstTurns` — tasks begin in the order in which they were added

A new task waits for its first turn among the other demands of the loop. A loop that serves first turns in
the order in which they were asked for is described by `StartsInOrder`. Since the tasks that a turn adds are
those that it starts, first turns are asked for in the order of the places of the tasks, in every row of
occurrences (`queued_run`). So in such a loop the answer that begins is the oldest of those that have not
begun (`Queued.head_unbegun`).

## Contents
- **Demands.** `begins?`, the task that a demand gives its first turn.
- **The order of first turns.** `beginning`, `Overtakes` and `StartsInOrder`; `Begins`, what an occurrence
  does to the tasks that wait.
- **Queues.** `Queued`, kept by every occurrence, and `beginning_of_begins`.
-/

namespace EditorServices.Session

/-! ## Demands -/

/-- The task that a demand gives its first turn. -/
def Demand.begins? : Demand → Option Nat
  | .turn (.resume t .begins) => some t
  | _ => none

theorem eq_of_begins? {d : Demand} {t : Nat} (h : d.begins? = some t) : d = .turn (.resume t .begins) := by
  unfold Demand.begins? at h
  split at h
  · cases h
    rfl
  · cases h

/-- What is demanded by effects is to begin if the effects start it. -/
theorem filterMap_begins?_demands (es : List Effect) :
    (es.filterMap Demand.of?).filterMap Demand.begins? = es.filterMap Effect.started? := by
  rw [List.filterMap_filterMap]
  congr 1
  funext e
  cases e <;> rfl

namespace Loop

/-! ## The order of first turns -/

/-- The tasks that wait for their first turn, in the order in which it was asked for. -/
def beginning (l : Loop) : List Nat := l.demands.filterMap Demand.begins?

/-- An occurrence gives a task its first turn while one waits that asked for it earlier. -/
def Overtakes (l : Loop) : Occurrence → Prop
  | .serve place _ => ((l.demands[place]?).bind Demand.begins?).isSome = true ∧
      ((l.demands.take place).filterMap Demand.begins?).isEmpty = false
  | _ => False

instance decidableOvertakes (l : Loop) : (x : Occurrence) → Decidable (Overtakes l x)
  | .serve place _ => inferInstanceAs (Decidable (((l.demands[place]?).bind Demand.begins?).isSome = true ∧
      ((l.demands.take place).filterMap Demand.begins?).isEmpty = false))
  | .call _ | .arrive _ | .endStream _ _ | .giveUp _ => inferInstanceAs (Decidable False)

/-- The loop gives first turns in the order in which they were asked for. -/
def StartsInOrder (l : Loop) : List Occurrence → Prop
  | [] => True
  | x :: h => ¬ Overtakes l x ∧ (l.step x).StartsInOrder h

instance decidableStartsInOrder (l : Loop) : (h : List Occurrence) → Decidable (StartsInOrder l h)
  | [] => .isTrue trivial
  | x :: h =>
    have := decidableStartsInOrder (l.step x) h
    inferInstanceAs (Decidable (¬ Overtakes l x ∧ (l.step x).StartsInOrder h))

/-- What an occurrence does to the tasks that wait for their first turn. -/
inductive Begins (l : Loop) (x : Occurrence) : Loop → Prop where
  /-- No turn is taken. -/
  | idle {q : Loop} (session : q.session = l.session) (taken : q.taken = l.taken)
      (same : q.beginning = l.beginning) : Begins l x q
  /-- A first turn is taken. -/
  | first (place t : Nat) (text : Except Failure String) (served : x = .serve place text)
      (here : l.demands[place]? = some (.turn (.resume t .begins))) :
      Begins l x ({ l with demands := l.demands.eraseIdx place }.take (.resume t .begins))
  /-- Another turn is taken. -/
  | other (u : Turn) (demands : List Demand) (arrived : List Json) (hu : ∀ t, u ≠ .resume t .begins)
      (same : demands.filterMap Demand.begins? = l.beginning) :
      Begins l x ({ l with demands := demands, arrived := arrived }.take u)

theorem begins_listen {l : Loop} {x : Occurrence} {place t : Nat}
    (here : l.demands[place]? = some (.listening t)) :
    Begins l x (l.listen place t) := by
  unfold listen
  split
  · next m rest _ => exact .other (.receive m) l.demands rest (by simp) rfl
  · exact .other _ (l.demands.eraseIdx place) l.arrived (by simp) (filterMap_eraseIdx here rfl)
  · exact .idle rfl rfl rfl

/-- **First turns are taken of those that wait for them**, and no other turn takes one away. -/
theorem begins_step (l : Loop) (x : Occurrence) : Begins l x (l.step x) := by
  have hidle : Begins l x l := .idle rfl rfl rfl
  cases x with
  | call c => exact .other (.call c) l.demands l.arrived (by simp) rfl
  | arrive m =>
    show Begins l _ (if l.streamEnd.isSome then l else _)
    split
    · exact hidle
    · exact .idle rfl rfl rfl
  | endStream reason error =>
    show Begins l _ (if l.streamEnd.isSome then l else _)
    split
    · exact hidle
    · exact .idle rfl rfl rfl
  | giveUp t =>
    show Begins l _ (if isCall l.session t then _ else l)
    split
    · exact .other (.resume t .cancelled) l.demands l.arrived (by simp) rfl
    · exact hidle
  | serve place text =>
    show Begins l _ (l.serve place text)
    unfold serve
    split
    · next u here =>
      cases hu : (Demand.turn u).begins? with
      | some t =>
        cases eq_of_begins? hu
        exact .first place t text rfl here
      | none =>
        refine .other u (l.demands.eraseIdx place) l.arrived (fun t ht => ?_) (filterMap_eraseIdx here hu)
        rw [ht] at hu
        cases hu
    · next t o here =>
      -- the result of an operation is no first turn, nor was the operation
      refine .idle rfl rfl ?_
      show (l.demands.set place (.turn (.resume t (.returned _)))).filterMap Demand.begins? = l.beginning
      have hlt : place < l.demands.length := (List.getElem?_eq_some_iff.mp here).1
      unfold beginning
      rw [List.set_eq_take_append_cons_drop, if_pos hlt]
      conv => rhs; rw [eq_take_append_cons_drop here]
      rw [List.filterMap_append, List.filterMap_append]
      rfl
    · next t here => exact begins_listen here
    · exact hidle

/-! ## Queues -/

/-- First turns are asked for in the order of the tasks, and every answer that has not begun waits for
its own. -/
structure Queued (l : Loop) : Prop where
  ordered : l.beginning.Pairwise (· < ·)
  there : ∀ t ∈ l.beginning, t < l.session.tasks.length
  queued : ∀ t ∈ l.session.unbegun, t ∈ l.beginning

namespace Queued

variable {l : Loop}

/-- What the session does not know of asks for no first turn and gives none. -/
theorem congr (h : Queued l) {q : Loop} (session : q.session = l.session)
    (beginning : q.beginning = l.beginning) : Queued q := by
  constructor
  · rw [beginning]
    exact h.ordered
  · rw [beginning, session]
    exact h.there
  · rw [beginning, session]
    exact h.queued

/-- A turn asks for first turns of new tasks only. -/
theorem take (h : Queued l) (ho : Orderly l.session) {u : Turn} {demands : List Demand} (arrived : List Json)
    (fewer : (demands.filterMap Demand.begins?).Sublist l.beginning)
    (kept : ∀ t ∈ l.beginning, u ≠ .resume t .begins → t ∈ demands.filterMap Demand.begins?) :
    Queued ({ l with demands := demands, arrived := arrived }.take u) := by
  obtain ⟨k, hspawns⟩ := spawns_step l.session u
  have hbeginning : ({ l with demands := demands, arrived := arrived }.take u).beginning
      = demands.filterMap Demand.begins? ++ List.range' l.session.tasks.length k := by
    show (demands ++ (l.session.step u).effects.filterMap Demand.of?).filterMap Demand.begins? = _
    rw [List.filterMap_append, filterMap_begins?_demands, hspawns.starts]
  have hlength : ({ l with demands := demands, arrived := arrived }.take u).session.tasks.length
      = l.session.tasks.length + k := hspawns.length
  constructor
  · -- the new tasks come after all that were there
    rw [hbeginning, List.pairwise_append]
    refine ⟨h.ordered.sublist fewer, List.pairwise_lt_range', fun t ht v hv => ?_⟩
    have hold := h.there t (fewer.subset ht)
    have hnew := (List.mem_range'_1.mp hv).1
    omega
  · intro t ht
    rw [hbeginning] at ht
    rw [hlength]
    rcases List.mem_append.mp ht with ht | ht
    · have hold := h.there t (fewer.subset ht)
      omega
    · exact (List.mem_range'_1.mp ht).2
  · intro t ht
    rw [hbeginning]
    rcases ho.unbegun_before u ht with ⟨hmem, hu⟩ | hstart
    · exact List.mem_append_left _ (kept t (h.queued t hmem) hu)
    · refine List.mem_append_right _ ?_
      rw [← hspawns.starts]
      exact List.mem_filterMap.mpr ⟨_, hstart, rfl⟩

/-- Every occurrence keeps the order of first turns. -/
theorem step (h : Queued l) (ho : Orderly l.session) (x : Occurrence) : Queued (l.step x) := by
  generalize hl : l.step x = l'
  have hbegins := begins_step l x
  rw [hl] at hbegins
  cases hbegins with
  | idle session taken same => exact h.congr session same
  | first place t text served here =>
    refine h.take ho l.arrived ((List.eraseIdx_sublist _ _).filterMap _) fun v hv hne => ?_
    obtain ⟨d, hmem, hd⟩ := List.mem_filterMap.mp hv
    -- what is served is the only demand that leaves
    rcases mem_eraseIdx_or hmem here with hmem | rfl
    · exact List.mem_filterMap.mpr ⟨d, hmem, hd⟩
    · cases hd
      exact absurd rfl hne
  | other u demands arrived hu same =>
    refine h.take ho arrived ?_ fun v hv _ => ?_
    · rw [same]
    · rw [same]
      exact hv

/-- The first turn that was asked for first is that of the oldest answer. -/
theorem head_unbegun (h : Queued l) {t : Nat} (hmem : t ∈ l.session.unbegun)
    (hfirst : l.beginning.head? = some t) : l.session.unbegun.head? = some t := by
  have hsorted : l.session.unbegun.Pairwise (· < ·) := List.pairwise_lt_range.filter _
  have hqueued := h.queued
  have hordered := h.ordered
  cases hs : l.session.unbegun with
  | nil =>
    rw [hs] at hmem
    cases hmem
  | cons v rest =>
    cases hb : l.beginning with
    | nil =>
      rw [hb] at hfirst
      cases hfirst
    | cons w later =>
      rw [hb] at hfirst hordered hqueued
      rw [hs] at hmem hsorted hqueued
      obtain rfl : w = t := Option.some.inj hfirst
      -- the oldest answer waits too, so not before this one; and it is not younger
      have hle : w ≤ v := by
        rcases List.mem_cons.mp (hqueued v List.mem_cons_self) with rfl | hlater
        · exact Nat.le_refl _
        · exact Nat.le_of_lt ((List.pairwise_cons.mp hordered).1 v hlater)
      rcases List.mem_cons.mp hmem with rfl | hrest
      · rfl
      · have hlt := (List.pairwise_cons.mp hsorted).1 w hrest
        omega

end Queued

/-- What is taken of what waits is the first of it, unless it overtakes. -/
theorem beginning_of_begins {l : Loop} {x : Occurrence} {t : Nat} (order : ¬ Overtakes l x)
    (taken : (l.step x).taken = l.taken ++ [.resume t .begins]) : l.beginning.head? = some t := by
  generalize hl : l.step x = l' at taken
  have hbegins := begins_step l x
  rw [hl] at hbegins
  cases hbegins with
  | idle session same =>
    rw [same] at taken
    have hlength := congrArg List.length taken
    simp at hlength
  | first place v text served here =>
    have heq : l.taken ++ [Turn.resume v .begins] = l.taken ++ [.resume t .begins] := taken
    cases List.append_cancel_left heq
    subst served
    have hnone : (l.demands.take place).filterMap Demand.begins? = [] := by
      rw [← List.isEmpty_iff, ← Bool.not_eq_false]
      refine fun hne => order ⟨?_, hne⟩
      rw [here]
      rfl
    unfold beginning
    rw [eq_take_append_cons_drop here, List.filterMap_append, hnone]
    rfl
  | other u demands arrived hu =>
    have heq : l.taken ++ [u] = l.taken ++ [.resume t .begins] := taken
    cases List.append_cancel_left heq
    exact absurd rfl (hu t)

/-- **First turns are asked for in the order of the tasks**, in every row of occurrences. -/
theorem queued_run (p : Profile) (peer : Channel.Peer) (surroundings : Channel.Surroundings)
    (g : List Occurrence) : Queued ((new p peer surroundings).run g) := by
  have hnew : Queued (new p peer surroundings) :=
    ⟨.nil, fun t ht => (by cases ht), fun t ht => by cases ht⟩
  have hboth := run_preserves (P := fun l => Sound p l ∧ Queued l) (Q := fun _ => True)
    (fun l x _ hl => ⟨hl.1.step x, hl.2.step hl.1.orderly x⟩) (h := g) (fun _ _ => trivial)
    ⟨sound_new p peer surroundings, hnew⟩
  exact hboth.2

end Loop

end EditorServices.Session
