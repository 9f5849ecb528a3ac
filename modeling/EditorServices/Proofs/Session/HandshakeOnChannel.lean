import EditorServices.Proofs.Lists
import EditorServices.Proofs.Session.EndOfChannel
import EditorServices.Proofs.Session.Handshake
import EditorServices.Proofs.Session.WireOrder
import Mathlib.Data.List.Perm.Basic

/-!
# `Proofs.Session.HandshakeOnChannel` — the handshake gates the session, in every order of events

A session is called to one handshake, on its channel. Whatever the server sends, whenever the stream ends
or somebody disposes of the session, and in whatever order the loop serves what it was asked for: the
message that confirms the handshake reaches the channel once at most, after an answer without an error; the
session is ready only after that; an answer with an error ends the call with that error; and the call ends
in no other way than these, and by the end of the channel. The headline is `handshake_gates`.

What `Standing` says of the turns is not enough for that, since what a turn hands over is written later, if
ever, and a result that comes back could be that of an earlier operation. So the loop is balanced like an
account: `Exact` says which demand an occurrence takes away and which it adds. What is handed over is then
what was written and what still waits, in some order (`written_perm`), and for a handshake exactly that is
owed which its stage waits for (`Balanced`).

## Contents
- **Accounts.** `Exact`, what an occurrence does to the demands; `written_perm`; `outstanding`.
- **Balance.** `Balance`, `Balanced` and `balanced_run`.
- **Failures.** What the operations of a handshake fail with, and who makes it give up.
- **The only handshake.** `Sole` through a row of occurrences.
- **Disposal.** A session that is disposed of during its handshake is not revived while it sends.
- **The headline.** `Responds`, `HandshakeGates` and `handshake_gates`.
-/

namespace EditorServices.Session

/-- The task that an operation is demanded for, or that has its result to take. -/
def Demand.owedTo? : Demand → Option Nat
  | .operation t _ | .turn (.resume t (.returned _)) => some t
  | _ => none

/-- What is demanded by effects is owed to the tasks that ask for operations. -/
theorem filterMap_owedTo?_demands (es : List Effect) :
    (es.filterMap Demand.of?).filterMap Demand.owedTo? = (orders es).map Prod.fst := by
  rw [← List.filterMap_eq_map, orders, List.filterMap_filterMap, List.filterMap_filterMap]
  congr 1
  funext e
  cases e <;> rfl

/-- How many results a turn takes. -/
def Resumption.results : Resumption → Nat
  | .returned _ => 1
  | _ => 0

theorem results_cases (r : Resumption) :
    (∃ x, r = .returned x) ∧ r.results = 1 ∨ (∀ x, r ≠ .returned x) ∧ r.results = 0 := by
  cases r with
  | returned x => exact .inl ⟨⟨x, rfl⟩, rfl⟩
  | begins | replied | rested | streamEnded | readerFinished | cancelled => exact .inr ⟨by simp, rfl⟩

namespace Loop

/-! ## Accounts -/

/-- The demands that the occurrence of a turn takes away. -/
inductive Removed (l : Loop) : Occurrence → Turn → List Demand → Prop where
  | called (c : Call) : Removed l (.call c) (.call c) []
  | demanded {x : Occurrence} {u : Turn} (mem : .turn u ∈ l.demands) : Removed l x u [.turn u]
  | received {x : Occurrence} (m : Json) : Removed l x (.receive m) []
  | streamEnded {x : Occurrence} (v : Nat) (reason : String) (error : Option String) :
      Removed l x (.resume v (.streamEnded reason error)) [.listening v]
  | gaveUp (v : Nat) (call : isCall l.session v = true) : Removed l (.giveUp v) (.resume v .cancelled) []

/-- What an occurrence does to a loop, with an account of the demands and of what is written. -/
inductive Exact (l : Loop) (x : Occurrence) : Loop → Prop where
  /-- Nothing that the session knows of. -/
  | outside (arrived : List Json) (streamEnd : Option (String × Option String))
      (unwritten : l.written? x = none) : Exact l x { l with arrived := arrived, streamEnd := streamEnd }
  /-- An operation is done, and its result takes its place. -/
  | operation (t : Nat) (o : Operation) (text : Except Failure String) (demands rest : List Demand)
      (before : l.demands.Perm (.operation t o :: rest))
      (after : demands.Perm (.turn (.resume t (.returned (perform l.channel text o).2)) :: rest))
      (writes : l.written? x = Demand.sent? (.operation t o)) :
      Exact l x { l with channel := (perform l.channel text o).1, demands := demands }
  /-- A turn is taken. -/
  | turn (u : Turn) (removed rest : List Demand) (arrived : List Json) (removal : Removed l x u removed)
      (before : l.demands.Perm (removed ++ rest)) (unwritten : l.written? x = none) :
      Exact l x ({ l with demands := rest, arrived := arrived }.take u)

theorem exact_listen (l : Loop) {place t : Nat} (text : Except Failure String)
    (here : l.demands[place]? = some (.listening t)) : Exact l (.serve place text) (l.listen place t) := by
  have hx : l.written? (.serve place text) = none := by
    rw [written?, here]
    rfl
  unfold listen
  split
  · next m rest harr => exact .turn (.receive m) [] l.demands rest (.received m) (.refl _) hx
  · next reason error harr _ =>
    exact .turn _ [.listening t] (l.demands.eraseIdx place) l.arrived (.streamEnded t reason error)
      (perm_cons_eraseIdx here) hx
  · exact .outside l.arrived l.streamEnd hx

/-- **What an occurrence does, to the account.** -/
theorem exact_step (l : Loop) (x : Occurrence) : Exact l x (l.step x) := by
  have hidle (hx : l.written? x = none) : Exact l x l := .outside l.arrived l.streamEnd hx
  cases x with
  | call c => exact .turn (.call c) [] l.demands l.arrived (.called c) (.refl _) rfl
  | arrive m =>
    show Exact l _ (if l.streamEnd.isSome then l else _)
    split
    · exact hidle rfl
    · exact .outside (l.arrived ++ [m]) l.streamEnd rfl
  | endStream reason error =>
    show Exact l _ (if l.streamEnd.isSome then l else _)
    split
    · exact hidle rfl
    · exact .outside l.arrived (some (reason, error)) rfl
  | giveUp t =>
    show Exact l _ (if isCall l.session t then _ else l)
    split
    · next hcall => exact .turn _ [] l.demands l.arrived (.gaveUp t hcall) (.refl _) rfl
    · exact hidle rfl
  | serve place text =>
    show Exact l _ (l.serve place text)
    unfold serve
    split
    · next u here =>
      refine .turn u [.turn u] (l.demands.eraseIdx place) l.arrived (.demanded (List.mem_of_getElem? here))
        (perm_cons_eraseIdx here) ?_
      rw [written?, here]
      rfl
    · next t o here =>
      refine .operation t o text _ (l.demands.eraseIdx place) (perm_cons_eraseIdx here)
        (List.set_perm_cons_eraseIdx (List.getElem?_eq_some_iff.mp here).1 _) ?_
      rw [written?, here]
      rfl
    · next t here => exact exact_listen l text here
    · next here =>
      refine hidle ?_
      rw [written?, here]
      rfl

theorem written_append (l : Loop) (g h : List Occurrence) :
    l.written (g ++ h) = l.written g ++ (l.run g).written h := by
  induction g generalizing l with
  | nil => rfl
  | cons x g ih =>
    show (l.written? x).toList ++ (l.step x).written (g ++ h) = _
    rw [ih, ← List.append_assoc]
    rfl

theorem written_snoc (l : Loop) (h : List Occurrence) (x : Occurrence) :
    l.written (h ++ [x]) = l.written h ++ ((l.run h).written? x).toList := by
  rw [written_append]
  show _ ++ (((l.run h).written? x).toList ++ []) = _
  rw [List.append_nil]

theorem run_snoc (l : Loop) (h : List Occurrence) (x : Occurrence) : l.run (h ++ [x]) = (l.run h).step x :=
  run_append l h [x]

/-- What is taken away by the occurrence of a turn was no message that waits. -/
theorem Removed.unsent {l : Loop} {x : Occurrence} {u : Turn} {removed : List Demand}
    (h : Removed l x u removed) : removed.filterMap Demand.sent? = [] := by
  cases h <;> rfl

/-- **What was handed over is what was written and what still waits**, in some order. -/
theorem written_perm (p : Profile) (peer : Channel.Peer) (surroundings : Channel.Surroundings)
    (h : List Occurrence) :
    ((new p peer surroundings).written h ++ ((new p peer surroundings).run h).waiting).Perm
      (((new p peer surroundings).run h).effects.filterMap Effect.sent?) := by
  induction h using List.reverseRecOn with
  | nil => exact .refl _
  | append_singleton h x ih =>
    rw [written_snoc, run_snoc]
    generalize (new p peer surroundings).run h = l at ih ⊢
    generalize hl : l.step x = l'
    have hexact := exact_step l x
    rw [hl] at hexact
    cases hexact with
    | outside _ _ unwritten =>
      rw [unwritten, Option.toList_none, List.append_nil]
      exact ih
    | operation t o text demands rest before after writes =>
      -- it waits no longer, and is written
      have hbefore := before.filterMap Demand.sent?
      rw [filterMap_cons_toList] at hbefore
      have hafter : (demands.filterMap Demand.sent?).Perm (rest.filterMap Demand.sent?) :=
        after.filterMap Demand.sent?
      rw [writes, List.append_assoc]
      exact (((List.Perm.refl _).append ((List.Perm.refl _).append hafter)).trans
        ((List.Perm.refl _).append hbefore.symm)).trans ih
    | turn u removed rest arrived removal before unwritten =>
      -- what it hands over waits
      rw [unwritten, Option.toList_none, List.append_nil, waiting_take]
      have hbefore := before.filterMap Demand.sent?
      rw [List.filterMap_append, removal.unsent, List.nil_append] at hbefore
      show (_ ++ (rest.filterMap Demand.sent? ++ _)).Perm ((l.effects ++ _).filterMap Effect.sent?)
      rw [List.filterMap_append, ← List.append_assoc]
      exact (((List.Perm.refl _).append hbefore.symm).trans ih).append_right _

/-- How many operations are owed to a task: they are still to be done, or their results to be taken. -/
def outstanding (l : Loop) (t : Nat) : Nat := (l.demands.filterMap Demand.owedTo?).count t

theorem outstanding_pos {l : Loop} {t : Nat} {d : Demand} (hd : d ∈ l.demands) (h : d.owedTo? = some t) :
    0 < l.outstanding t := List.count_pos_iff.mpr (List.mem_filterMap.mpr ⟨d, hd, h⟩)

/-- An operation that is done leaves owed what was owed. -/
theorem outstanding_operation {l : Loop} {t : Nat} {o : Operation} {r : Except Failure String}
    {demands rest : List Demand} (before : l.demands.Perm (.operation t o :: rest))
    (after : demands.Perm (.turn (.resume t (.returned r)) :: rest)) (channel : Channel) (v : Nat) :
    { l with channel := channel, demands := demands }.outstanding v = l.outstanding v := by
  have hbefore := (before.filterMap Demand.owedTo?).count_eq v
  have hafter := (after.filterMap Demand.owedTo?).count_eq v
  exact hafter.trans hbefore.symm

/-- A turn takes the results that it takes away from what is owed, and adds the operations that it asks
for. -/
theorem outstanding_take {l : Loop} {removed rest : List Demand} (before : l.demands.Perm (removed ++ rest))
    (arrived : List Json) (u : Turn) (v : Nat) :
    ({ l with demands := rest, arrived := arrived }.take u).outstanding v +
        (removed.filterMap Demand.owedTo?).count v =
      l.outstanding v + ((orders (l.session.step u).effects).map Prod.fst).count v := by
  have hbefore := (before.filterMap Demand.owedTo?).count_eq v
  rw [List.filterMap_append, List.count_append] at hbefore
  have hafter : ({ l with demands := rest, arrived := arrived }.take u).outstanding v =
      (rest.filterMap Demand.owedTo?).count v +
        ((orders (l.session.step u).effects).map Prod.fst).count v := by
    show ((rest ++ _).filterMap Demand.owedTo?).count v = _
    rw [List.filterMap_append, List.count_append, filterMap_owedTo?_demands]
  have howed : l.outstanding v = (l.demands.filterMap Demand.owedTo?).count v := rfl
  omega

/-! ## Balance -/

/-- How many operations a handshake is owed at a stage. One that is over may still be owed what it no longer
waits for. -/
def Balance : Option Progress → Nat → Prop
  | none, n => n = 0
  | some .finished, n => n ≤ 1
  | some q, n => n = if q.isOwed then 1 else 0

theorem Balance.of_going {q : Progress} {n : Nat} (h : Balance (some q) n) (going : q ≠ .finished) :
    n = if q.isOwed then 1 else 0 := by
  cases q with
  | finished => exact absurd rfl going
  | _ => exact h

theorem Balance.le_one {q : Option Progress} {n : Nat} (h : Balance q n) : n ≤ 1 := by
  cases q with
  | none => exact (show n = 0 from h) ▸ Nat.zero_le 1
  | some q =>
    by_cases hf : q = .finished
    · subst hf
      exact h
    · rw [h.of_going hf]
      split <;> omega

/-- A reply makes no difference. -/
theorem Balance.ofUpToReply {q q' : Progress} {n : Nat} (h : Balance (some q) n) (hqq : q.UpToReply q') :
    Balance (some q') n := by
  rcases hqq with rfl | ⟨purpose, id, written, r, rfl, rfl⟩
  · exact h
  · cases written <;> exact h

section
variable {s : Session} {t : Nat} {q q' : Progress} {r : Resumption} {es : List Effect} {n n' : Nat}

/-- A turn keeps the balance of a handshake. The result of an operation that failed is the last that the
handshake takes, and so is the result that its confirmation was written. -/
structure KeepsBalance (q : Progress) (r : Resumption) (q' : Progress) (n' : Nat) : Prop where
  balance : Balance (some q') n'
  failed : (∃ f, r = .returned (.error f)) → q' = .finished ∧ n' = 0
  announced : q = .announcing → (∃ text, r = .returned (.ok text)) → q' = .finished ∧ n' = 0

/-- **Every turn of a handshake keeps its balance.** -/
theorem keepsBalance_of_turn (hturn : HandshakeTurn s t q r q' es) (hq : s.progressOf t = some q)
    (before : Balance (some q) n) (sum : n' + r.results = n + ((orders es).map Prod.fst).count t) :
    KeepsBalance q r q' n' := by
  have hone := before.le_one
  -- what is owed grows by what the turn orders and shrinks by the result that it takes
  cases hturn with
  | idle passed unowed =>
    change n' + r.results = n + 0 at sum
    rcases results_cases r with ⟨⟨x, rfl⟩, hresults⟩ | ⟨hnot, hresults⟩
    · rw [hresults] at sum
      by_cases hf : q = .finished
      · subst hf
        have hzero : n' = 0 := by omega
        exact ⟨hzero ▸ Nat.zero_le 1, fun _ => ⟨rfl, hzero⟩, nofun⟩
      · -- nothing is owed to a stage at which a result is passed over
        have hunowed : q.isOwed = false := Bool.eq_false_iff.mpr fun howed => unowed howed x rfl
        rw [before.of_going hf, hunowed] at sum
        change n' + 1 = 0 at sum
        omega
    · rw [hresults] at sum
      obtain rfl : n' = n := by omega
      exact ⟨before, fun ⟨f, hr⟩ => absurd hr (hnot _), fun _ ⟨text, hr⟩ => absurd hr (hnot _)⟩
  | begins own silent =>
    rw [own] at sum
    have hn : n = 0 := before
    have hn' : n' = 1 := by simpa [Resumption.results, hn] using sum
    exact ⟨hn', nofun, nofun⟩
  | asks own request silent =>
    rw [own] at sum
    have hn : n = 1 := before
    have hn' : n' = 1 := by simpa [Resumption.results, hn] using sum
    exact ⟨hn', nofun, nofun⟩
  | written quiet silent =>
    rw [quiet] at sum
    have hn : n = 1 := before
    have hn' : n' = 0 := by simpa [Resumption.results, hn] using sum
    exact ⟨hn', nofun, nofun⟩
  | confirms hc accepted own silent =>
    rw [own] at sum
    have hsum : n' + r.results = n + 1 := by simpa using sum
    have hn' : n' = 1 := by
      cases hc with
      | replied waits =>
        obtain rfl := Option.some.inj (hq.symm.trans waits)
        have hn : n = 0 := before
        simpa [Resumption.results, hn] using hsum
      | found waits =>
        obtain rfl := Option.some.inj (hq.symm.trans waits)
        have hn : n = 1 := before
        simpa [Resumption.results, hn] using hsum
    refine ⟨hn', fun ⟨f, hr⟩ => ?_, fun hann => ?_⟩
    · subst hr
      cases hc
    · obtain ⟨purpose, written, hp⟩ := hc.waits
      cases hann.symm.trans (Option.some.inj (hq.symm.trans hp))
  | succeeds quiet known =>
    rw [quiet] at sum
    have hn : n = 1 := before
    have hn' : n' = 0 := by simpa [Resumption.results, hn] using sum
    exact ⟨hn' ▸ Nat.zero_le 1, nofun, fun _ _ => ⟨rfl, hn'⟩⟩
  | fails why quiet known =>
    rw [quiet] at sum
    change n' + r.results = n + 0 at sum
    refine ⟨show n' ≤ 1 by omega, ?_, ?_⟩
    · rintro ⟨f, rfl⟩
      change n' + 1 = n + 0 at sum
      exact ⟨rfl, by omega⟩
    · rintro hann ⟨text, hr⟩
      exact (why.not_announced hq hann hr).elim

end

/-- A turn of a task takes away the results that it takes. -/
theorem Removed.count_results {l : Loop} {x : Occurrence} {t : Nat} {r : Resumption} {removed : List Demand}
    (h : Removed l x (.resume t r) removed) : (removed.filterMap Demand.owedTo?).count t = r.results := by
  cases h with
  | demanded =>
    cases r with
    | returned y => exact List.count_singleton_self ..
    | begins | replied | rested | streamEnded | readerFinished | cancelled => rfl
  | streamEnded | gaveUp => rfl

/-- A turn of another task takes away nothing that is owed to a task. -/
theorem Removed.count_elsewhere {l : Loop} {x : Occurrence} {u : Turn} {t : Nat} {removed : List Demand}
    (h : Removed l x u removed) (hu : u.task? ≠ some t) : (removed.filterMap Demand.owedTo?).count t = 0 := by
  refine List.count_eq_zero.mpr fun hmem => ?_
  obtain ⟨d, hd, howed⟩ := List.mem_filterMap.mp hmem
  cases h with
  | demanded =>
    rw [List.mem_singleton.mp hd] at howed
    cases u with
    | resume v r =>
      cases r <;> cases howed
      exact hu rfl
    | call | receive | account => cases howed
  | streamEnded =>
    rw [List.mem_singleton.mp hd] at howed
    cases howed
  | called | received | gaveUp => cases hd

/-- A handshake is owed what it waits for, and no more than that once it is over. -/
structure Balanced (l : Loop) (t : Nat) : Prop where
  balance : Balance (l.session.progressOf t) (l.outstanding t)
  /-- A handshake of which an operation failed is over, and is owed nothing. -/
  failed : ∀ f, .resume t (.returned (.error f)) ∈ l.taken →
    l.session.progressOf t = some .finished ∧ l.outstanding t = 0
  /-- So is one whose confirmation was written. -/
  ready : l.session.phase = .ready → l.session.progressOf t = some .finished ∧ l.outstanding t = 0
  /-- One whose request has its reply is to be told of it. -/
  replied : ∀ id r, l.session.progressOf t = some (.requesting .handshake id true (some r)) →
    .turn (.resume t .replied) ∈ l.demands

/-- A turn that is demanded is demanded still, unless it is the one that is taken. -/
theorem Removed.mem_rest {l : Loop} {x : Occurrence} {u v : Turn} {removed rest : List Demand}
    (h : Removed l x u removed) (before : l.demands.Perm (removed ++ rest)) (hv : .turn v ∈ l.demands)
    (other : v ≠ u) : .turn v ∈ rest := by
  refine (List.mem_append.mp (before.mem_iff.mp hv)).resolve_left fun hmem => ?_
  cases h with
  | demanded =>
    cases List.mem_singleton.mp hmem
    exact other rfl
  | streamEnded => cases List.mem_singleton.mp hmem
  | called | received | gaveUp => cases hmem

namespace Balanced

variable {p : Profile} {l : Loop} {t : Nat} (h : Balanced l t) (hs : Sound p l)
include h hs

/-- A turn of another task. -/
theorem elsewhere (sole : Sole l.session t) {x : Occurrence} {u : Turn} (hu : u.task? ≠ some t)
    {removed rest : List Demand} (arrived : List Json) (removal : Removed l x u removed)
    (before : l.demands.Perm (removed ++ rest)) :
    Balanced ({ l with demands := rest, arrived := arrived }.take u) t := by
  have ho := hs.orderly
  have hquiet : ((orders (l.session.step u).effects).map Prod.fst).count t = 0 := by
    refine List.count_eq_zero.mpr fun hmem => ?_
    obtain ⟨⟨v, o⟩, horder, rfl⟩ := List.mem_map.mp hmem
    exact hu (operation_of_perform (mem_orders.mp horder)).1
  have howed : ({ l with demands := rest, arrived := arrived }.take u).outstanding t = l.outstanding t := by
    have hsum := outstanding_take before arrived u t
    rw [removal.count_elsewhere hu, hquiet] at hsum
    exact hsum
  refine ⟨?_, fun f hmem => ?_, fun hphase => ?_, fun id r hp => ?_⟩
  · rw [howed]
    show Balance ((l.session.step u).session.progressOf t) (l.outstanding t)
    have hbalance := h.balance
    cases hq : l.session.progressOf t with
    | none =>
      rw [hq] at hbalance
      rcases ho.progressOf_fresh u hq with hnone | hcreated
      · rw [hnone]
        exact hbalance
      · rw [hcreated]
        exact hbalance
    | some q =>
      rw [hq] at hbalance
      obtain ⟨q', hq', hqq⟩ := ho.progressOf_step hu hq
      rw [hq']
      exact hbalance.ofUpToReply hqq
  · rcases List.mem_append.mp hmem with hmem | hmem
    · obtain ⟨hf, hzero⟩ := h.failed f hmem
      exact ⟨ho.finished_step u hf, howed.trans hzero⟩
    · rw [← List.mem_singleton.mp hmem] at hu
      exact absurd rfl hu
  · rcases announced_of_ready ho hphase with hready | ⟨v, text, rfl, hj, -⟩
    · obtain ⟨hf, hzero⟩ := h.ready hready
      exact ⟨ho.finished_step u hf, howed.trans hzero⟩
    · obtain rfl := (sole v _ hj).mp rfl
      exact absurd rfl hu
  · change (l.session.step u).session.progressOf t = _ at hp
    cases hq : l.session.progressOf t with
    | none =>
      rcases ho.progressOf_fresh u hq with hnew | hnew
      · rw [hnew] at hp
        cases hp
      · rw [hnew] at hp
        cases hp
    | some q =>
      obtain ⟨q', hq', rfl | ⟨_, _, _, r', rfl, rfl⟩⟩ := ho.progressOf_step hu hq
      · obtain rfl := Option.some.inj (hq'.symm.trans hp)
        refine List.mem_append_left _ (removal.mem_rest before (h.replied id r hq) ?_)
        rintro rfl
        exact hu rfl
      · -- it is given its reply, and is told of it
        cases hq'.symm.trans hp
        have hwake := wake_of_reply hs.consistent (waitOf_of_progressOf hq) rfl rfl
          (waitOf_of_progressOf hq') (by simp)
        exact List.mem_append_right _ (List.mem_filterMap.mpr ⟨_, hwake, rfl⟩)

/-- A turn of the handshake. -/
theorem own (sole : Sole l.session t) {x : Occurrence} {r : Resumption} {removed rest : List Demand}
    (arrived : List Json) (removal : Removed l x (.resume t r) removed)
    (before : l.demands.Perm (removed ++ rest)) :
    Balanced ({ l with demands := rest, arrived := arrived }.take (.resume t r)) t := by
  have ho := hs.orderly
  have hsum := outstanding_take before arrived (.resume t r) t
  rw [removal.count_results] at hsum
  change _ = _ + ((orders (l.session.resume t r).effects).map Prod.fst).count t at hsum
  cases hk : l.session.tasks[t]? with
  | none =>
    -- the task is not there: nothing is owed to it, and the turn does nothing
    have hidle : l.session.resume t r = ⟨l.session, []⟩ := by rw [resume, hk]
    have hnone : l.session.progressOf t = none := by rw [progressOf, hk]; rfl
    have hbalance := h.balance
    rw [hnone] at hbalance
    have hzero : l.outstanding t = 0 := hbalance
    rw [hidle, hzero] at hsum
    change _ = 0 + 0 at hsum
    have hsame : ({ l with demands := rest, arrived := arrived }.take (.resume t r)).session = l.session :=
      congrArg Turned.session hidle
    refine ⟨?_, fun f hmem => ?_, fun hphase => ?_, fun id rep hp => ?_⟩
    · rw [hsame, hnone]
      show _ = 0
      omega
    · rcases List.mem_append.mp hmem with hmem | hmem
      · cases hnone.symm.trans (h.failed f hmem).1
      · cases List.mem_singleton.mp hmem
        change _ + 1 = _ at hsum
        omega
    · rw [hsame] at hphase
      cases hnone.symm.trans (h.ready hphase).1
    · rw [hsame, hnone] at hp
      cases hp
  | some k =>
    obtain ⟨job, q⟩ := k
    have hq := progressOf_of_get hk
    obtain rfl : job = .call .handshake := (sole t job (jobOf_of_get hk)).mpr rfl
    obtain ⟨q', hq', hturn⟩ := handshakeTurn_resume ho (jobOf_of_get hk) hq r
    have hbalance := h.balance
    rw [hq] at hbalance
    have hkeeps := keepsBalance_of_turn hturn hq hbalance hsum
    -- a handshake that is over stays so, and is owed no more
    have hover (hf : l.session.progressOf t = some .finished ∧ l.outstanding t = 0) :
        ({ l with demands := rest, arrived := arrived }.take (.resume t r)).session.progressOf t
            = some .finished ∧
          ({ l with demands := rest, arrived := arrived }.take (.resume t r)).outstanding t = 0 := by
      refine ⟨ho.finished_step (.resume t r) hf.1, ?_⟩
      rw [resume_finished hf.1, hf.2] at hsum
      change _ = 0 + 0 at hsum
      omega
    refine ⟨?_, fun f hmem => ?_, fun hphase => ?_, fun id rep hp => ?_⟩
    · show Balance ((l.session.resume t r).session.progressOf t) _
      rw [hq']
      exact hkeeps.balance
    · rcases List.mem_append.mp hmem with hmem | hmem
      · exact hover (h.failed f hmem)
      · cases List.mem_singleton.mp hmem
        obtain ⟨rfl, hzero⟩ := hkeeps.failed ⟨f, rfl⟩
        exact ⟨hq', hzero⟩
    · rcases announced_of_ready (u := .resume t r) ho hphase with hready | ⟨v, text, heq, -, hann⟩
      · exact hover (h.ready hready)
      · cases heq
        obtain ⟨rfl, hzero⟩ := hkeeps.announced (Option.some.inj (hq.symm.trans hann)) ⟨text, rfl⟩
        exact ⟨hq', hzero⟩
    · change (l.session.resume t r).session.progressOf t = _ at hp
      obtain rfl := Option.some.inj (hq'.symm.trans hp)
      -- of all turns, only one that is passed over leaves a handshake at this stage
      generalize (l.session.resume t r).effects = es at hturn
      cases hturn with
      | idle passed =>
        refine List.mem_append_left _ (removal.mem_rest before (h.replied id rep hq) ?_)
        intro heq
        cases heq
        cases passed

/-- **Every occurrence keeps the balance of a handshake.** -/
theorem step (sole : Sole l.session t) (x : Occurrence) : Balanced (l.step x) t := by
  generalize hl : l.step x = l'
  have hexact := exact_step l x
  rw [hl] at hexact
  cases hexact with
  | outside => exact ⟨h.balance, h.failed, h.ready, h.replied⟩
  | operation v o text demands rest before after =>
    have howed := outstanding_operation before after (perform l.channel text o).1 t
    refine ⟨?_, fun f hmem => ?_, fun hphase => ?_, fun id r hp => ?_⟩
    · rw [howed]
      exact h.balance
    · rw [howed]
      exact h.failed f hmem
    · rw [howed]
      exact h.ready hphase
    · have hmem := (List.mem_cons.mp (before.mem_iff.mp (h.replied id r hp))).resolve_left (by simp)
      exact after.mem_iff.mpr (List.mem_cons_of_mem _ hmem)
  | turn u removed rest arrived removal before =>
    by_cases hu : u.task? = some t
    · obtain ⟨r, rfl⟩ := Turn.exists_resume hu
      exact h.own hs sole arrived removal before
    · exact h.elsewhere hs sole hu arrived removal before

end Balanced

/-! ## The only handshake -/

/-- It was the only one before. -/
theorem sole_before {p : Profile} {l : Loop} (hs : Sound p l) {h : List Occurrence} {t : Nat}
    (sole : Sole (l.run h).session t) : Sole l.session t :=
  fun v job hj => sole v job (jobOf_run hs h hj)

/-- While no further handshake is called, it stays the only one. -/
theorem sole_step {p : Profile} {l : Loop} (hs : Sound p l) {t : Nat} (sole : Sole l.session t)
    (hj : l.session.jobOf t = some (.call .handshake)) {x : Occurrence} (hx : x ≠ .call .handshake) :
    Sole (l.step x).session t := by
  rcases session_step l x with heq | ⟨u, prompted, heq⟩
  · rw [heq]
    exact sole
  · rw [heq]
    intro v job hv
    cases hjob : l.session.jobOf v with
    | some job' =>
      obtain rfl := Option.some.inj ((hs.orderly.jobOf_step u hjob).symm.trans hv)
      exact sole v job' hjob
    | none =>
      -- a task that appears is no handshake
      constructor
      · rintro rfl
        obtain ⟨rfl, -⟩ := hs.orderly.jobOf_fresh hjob hv
        exact absurd (prompted.eq_call hs) hx
      · rintro rfl
        cases hjob.symm.trans hj

/-- Before a handshake is called, there is none. -/
theorem no_handshake (p : Profile) (peer : Channel.Peer) (surroundings : Channel.Surroundings)
    {g : List Occurrence} (none_called : ∀ x ∈ g, x ≠ .call .handshake) (v : Nat) :
    ((new p peer surroundings).run g).session.jobOf v ≠ some (.call .handshake) := by
  have hboth := run_preserves (P := fun l => Sound p l ∧ ∀ v, l.session.jobOf v ≠ some (.call .handshake))
    (fun l x hx hl => ⟨hl.1.step x, fun v hv => ?_⟩) none_called
    ⟨sound_new p peer surroundings, fun v hv => by cases hv⟩
  · exact hboth.2 v
  · rcases session_step l x with heq | ⟨u, prompted, heq⟩
    · rw [heq] at hv
      exact hl.2 v hv
    · rw [heq] at hv
      cases hjob : l.session.jobOf v with
      | none =>
        obtain ⟨rfl, -⟩ := hl.1.orderly.jobOf_fresh hjob hv
        exact hx (prompted.eq_call hl.1)
      | some job =>
        obtain rfl := Option.some.inj ((hl.1.orderly.jobOf_step u hjob).symm.trans hv)
        exact hl.2 v hjob

/-- **A handshake that is called once is the only one.** -/
theorem sole_run (p : Profile) (peer : Channel.Peer) (surroundings : Channel.Surroundings)
    {g h : List Occurrence} (before : ∀ x ∈ g, x ≠ .call .handshake)
    (after : ∀ x ∈ h, x ≠ .call .handshake) {t : Nat}
    (ht : t = ((new p peer surroundings).run g).session.tasks.length) :
    Sole ((new p peer surroundings).run (g ++ .call .handshake :: h)).session t ∧
      ((new p peer surroundings).run (g ++ .call .handshake :: h)).session.jobOf t
        = some (.call .handshake) := by
  have hs := sound_run p peer surroundings g
  have hnone := no_handshake p peer surroundings before
  rw [run_append]
  generalize (new p peer surroundings).run g = l at hs hnone ht ⊢
  have hcalled : Sole (l.step (.call .handshake)).session t ∧
      (l.step (.call .handshake)).session.jobOf t = some (.call .handshake) := by
    have hjobs (v : Nat) : (l.step (.call .handshake)).session.jobOf v =
        if v = t then some (.call .handshake) else l.session.jobOf v := by
      rw [ht]
      exact jobOf_addTask l.session (.call .handshake) v
    refine ⟨fun v job hv => ?_, (hjobs t).trans (if_pos rfl)⟩
    rw [hjobs v] at hv
    split at hv
    · next heq =>
      cases hv
      exact ⟨fun _ => heq, fun _ => rfl⟩
    · next hne =>
      refine ⟨?_, fun heq => absurd heq hne⟩
      rintro rfl
      exact absurd hv (hnone v)
  have hboth := run_preserves (P := fun l => Sound p l ∧ Sole l.session t ∧
      l.session.jobOf t = some (.call .handshake))
    (fun l x hx hl => ⟨hl.1.step x, sole_step hl.1 hl.2.1 hl.2.2 hx, jobOf_run hl.1 [x] hl.2.2⟩) after
    ⟨hs.step (.call .handshake), hcalled⟩
  exact hboth.2

/-- **A handshake is balanced after every row of occurrences.** -/
theorem balanced_run (p : Profile) (peer : Channel.Peer) (surroundings : Channel.Surroundings)
    {h : List Occurrence} {t : Nat} (sole : Sole ((new p peer surroundings).run h).session t) :
    Balanced ((new p peer surroundings).run h) t := by
  induction h using List.reverseRecOn with
  | nil => exact ⟨rfl, nofun, nofun, nofun⟩
  | append_singleton h x ih =>
    have hs := sound_run p peer surroundings h
    rw [run_snoc] at sole ⊢
    have hbefore := sole_before hs (h := [x]) sole
    exact (ih hbefore).step hs hbefore x

/-! ## Failures -/

/-- Opening a channel fails as one that is closed. -/
theorem isClosed_of_start {c : Channel} {f : Failure} (h : c.start.result = .error f) :
    IsClosed (.error f) := by
  have hopening {es : List Channel.Effect} {g : Failure} (ho : c.opening = (es, .error g)) :
      IsClosed (.error g) := by
    unfold Channel.opening at ho
    split at ho
    · cases ho
    · dsimp only at ho
      split at ho
      · cases ho
        exact ⟨_, _, rfl⟩
      · cases ho
    · dsimp only at ho
      split at ho
      · cases ho
        exact ⟨_, _, rfl⟩
      · cases ho
  unfold Channel.start at h
  split at h
  · cases h
    exact ⟨_, _, rfl⟩
  · split at h
    · cases h
    · split at h
      · cases h
      · next ho =>
        cases h
        exact hopening ho

/-- So does every operation of a handshake. -/
theorem isClosed_of_perform {c : Channel} {text : Except Failure String} {o : Operation}
    (hof : o.IsOf (.call .handshake)) {f : Failure} (h : (perform c text o).2 = .error f) :
    IsClosed (.error f) := by
  cases o with
  | openChannel =>
    refine isClosed_of_start (c := c) ?_
    change c.start.result.map _ = _ at h
    cases hr : c.start.result with
    | ok => rw [hr] at h; cases h
    | error g => rw [hr] at h; cases h; rfl
  | send m =>
    rw [result_perform_send] at h
    split at h
    · cases h
      exact ⟨_, _, rfl⟩
    · cases h
  | closeChannel | readFile => cases hof

/-- What a handshake is told has its reason in what happened. -/
structure Warranted (h : List Occurrence) (l : Loop) (t : Nat) : Prop where
  demanded : ∀ f, .turn (.resume t (.returned (.error f))) ∈ l.demands → IsClosed (.error f)
  taken : ∀ f, .resume t (.returned (.error f)) ∈ l.taken → IsClosed (.error f)
  gaveUp : .resume t .cancelled ∈ l.taken → .giveUp t ∈ h
  /-- Every operation that is demanded was asked for. -/
  asked : ∀ v o, .operation v o ∈ l.demands → .perform v o ∈ l.effects

theorem Warranted.step {p : Profile} {h : List Occurrence} {l : Loop} {t : Nat} (hw : Warranted h l t)
    (hs : Sound p l) (sole : Sole l.session t) (x : Occurrence) : Warranted (h ++ [x]) (l.step x) t := by
  have hdemanded : ∀ f, .turn (.resume t (.returned (.error f))) ∈ (l.step x).demands →
      IsClosed (.error f) := by
    intro f hmem
    rcases returned_mem_step hmem with hmem | ⟨o, text, hmem, hresult⟩
    · exact hw.demanded f hmem
    · obtain ⟨job, hj, hof⟩ := hs.fits _ hmem
      obtain rfl := (sole t job hj).mpr rfl
      exact isClosed_of_perform hof hresult
  generalize hl : l.step x = l' at hdemanded
  have hstepped := stepped_step l x
  rw [hl] at hstepped
  cases hstepped with
  | outside => exact ⟨hdemanded, hw.taken, fun hc => List.mem_append_left _ (hw.gaveUp hc), hw.asked⟩
  | operation =>
    refine ⟨hdemanded, hw.taken, fun hc => List.mem_append_left _ (hw.gaveUp hc), fun v o hmem => ?_⟩
    rcases List.mem_or_eq_of_mem_set hmem with hmem | heq
    · exact hw.asked v o hmem
    · cases heq
  | turn u demands arrived prompted old =>
    refine ⟨hdemanded, fun f hmem => ?_, fun hmem => ?_, fun v o hmem => ?_⟩
    · rcases List.mem_append.mp hmem with hmem | hmem
      · exact hw.taken f hmem
      · cases List.mem_singleton.mp hmem
        cases prompted with
        | demanded mem => exact hw.demanded f mem
    · rcases List.mem_append.mp hmem with hmem | hmem
      · exact List.mem_append_left _ (hw.gaveUp hmem)
      · cases List.mem_singleton.mp hmem
        cases prompted with
        | demanded mem =>
          -- no call is made to give up by what a turn asks for
          obtain ⟨job, hj, hno⟩ := hs.fits _ mem
          exact absurd ((sole t job hj).mpr rfl) (hno _)
        | gaveUp => exact List.mem_append_right _ (List.mem_singleton_self _)
    · rcases operation_mem_take hmem with hmem | he
      · exact List.mem_append_left _ (hw.asked v o (old _ hmem))
      · exact List.mem_append_right _ he

theorem warranted_run (p : Profile) (peer : Channel.Peer) (surroundings : Channel.Surroundings)
    {h : List Occurrence} {t : Nat} (sole : Sole ((new p peer surroundings).run h).session t) :
    Warranted h ((new p peer surroundings).run h) t := by
  induction h using List.reverseRecOn with
  | nil => exact ⟨nofun, nofun, nofun, nofun⟩
  | append_singleton h x ih =>
    have hs := sound_run p peer surroundings h
    rw [run_snoc] at sole ⊢
    have hbefore := sole_before hs (h := [x]) sole
    exact (ih hbefore).step hs hbefore x

/-! ## The headline -/

/-- A message is the response to the request of a task: it is handed over while the request is pending, and
the request did not fail to be written. What bears the id of a request that reached nobody responds to
nothing. -/
structure Responds (p : Profile) (l : Loop) (t : Nat) (m : Json) : Prop where
  answered : Answered p l.taken t m
  written : ∀ f, .resume t (.returned (.error f)) ∉ l.taken

/-- A task hands over a message in an occurrence. -/
def HandsOver (l : Loop) (x : Occurrence) (t : Nat) : Prop :=
  ∃ es m, (l.step x).effects = l.effects ++ es ∧ .perform t (.send m) ∈ es

/-- The session was not disposed of before a handshake began. -/
def BeginsFresh (start : Loop) (h : List Occurrence) (t : Nat) : Prop :=
  ∀ a b, h = a ++ b →
    (start.run a).session.progressOf t = none ∨ (start.run a).session.progressOf t = some .created →
    (start.run a).session.phase ≠ .disposed

/-- A handshake gates its session, in a row of occurrences. -/
structure HandshakeGates (p : Profile) (start : Loop) (h : List Occurrence) (t : Nat) : Prop where
  /-- The message that confirms it is written once at most. -/
  once : (confirmations (start.written h)).length ≤ 1
  /-- It is written after a response without an error. -/
  confirms : ∀ a x b v, h = a ++ x :: b → (start.run a).written? x = some (v, handshakeDone) →
    v = t ∧ ∃ m, Responds p (start.run a) t m ∧ errorOf? m = none
  /-- The session is ready only after it was written. -/
  ready : ∀ a b, h = a ++ b → (start.run a).session.phase = .ready → (t, handshakeDone) ∈ start.written a
  /-- After a response with an error the call ends with exactly that error, the message is never written,
  and the session is never ready. -/
  rejected : ∀ m e, Responds p (start.run h) t m → errorOf? m = some e →
    EndsWith (· = .error (.handshakeRejected e)) (start.run h) h t ∧ confirmations (start.written h) = [] ∧
      ∀ a b, h = a ++ b → (start.run a).session.phase ≠ .ready
  /-- The call succeeds after an answer without an error, fails with the error of an answer, or fails because
  the channel is closed, unless its caller gives up or its writer was stopped. -/
  outcome : ∀ o, .completed t o ∈ (start.run h).effects →
    (o = .ok .done ∧ ∃ m, Answered p (start.run h).taken t m ∧ errorOf? m = none) ∨
    (∃ m e, o = .error (.handshakeRejected e) ∧ Answered p (start.run h).taken t m ∧ errorOf? m = some e) ∨
    IsClosed o ∨ (o = .error .cancelled ∧ .giveUp t ∈ h) ∨ o = .error writerStopped
  /-- It fails for a stopped writer exactly if that is to write a message of an open session. -/
  stopped : .completed t (.error writerStopped) ∈ (start.run h).effects ↔
    Refused p (start.run h).taken t writerStopped
  /-- Unless the session was disposed of before the handshake began, the writer was not stopped. -/
  running : BeginsFresh start h t → ¬ Refused p (start.run h).taken t writerStopped
  /-- Unless the session was disposed of before the handshake began, it was not disposed of before the
  handshake hands over a message: there still is a writer for it. -/
  unshut : BeginsFresh start h t → ∀ a x b, h = a ++ x :: b → HandsOver (start.run a) x t →
    ∀ c d, a = c ++ d → (start.run c).session.phase ≠ .disposed

section
variable {p : Profile} {peer : Channel.Peer} {surroundings : Channel.Surroundings} {h : List Occurrence}
  {t : Nat}

/-- What is written was demanded to be. -/
theorem operation_of_written {l : Loop} {x : Occurrence} {v : Nat} {m : Json}
    (hx : l.written? x = some (v, m)) : .operation v (.send m) ∈ l.demands := by
  cases x with
  | serve place text =>
    obtain ⟨d, hd, hm⟩ := Option.bind_eq_some_iff.mp hx
    have hmem := List.mem_of_getElem? hd
    cases d with
    | operation v' o =>
      cases o with
      | send m' =>
        cases hm
        exact hmem
      | openChannel | closeChannel | readFile => cases hm
    | turn | listening => cases hm
  | call | arrive | endStream | giveUp => cases hx

/-- The effects so far are those of the turns so far. -/
theorem effects_taken (p : Profile) (peer : Channel.Peer) (surroundings : Channel.Surroundings)
    (h : List Occurrence) : ((new p peer surroundings).run h).effects =
      ((Session.new p).run ((new p peer surroundings).run h).taken).effects := by
  obtain ⟨hs, htaken, -, heffects, -⟩ := exists_turns (new p peer surroundings) h
  rw [heffects, htaken]
  rfl

/-- What is seen of the session between occurrences is seen between turns. -/
theorem BeginsFresh.began (fresh : BeginsFresh (new p peer surroundings) h t) :
    BeganFresh p ((new p peer surroundings).run h).taken t := by
  intro a b heq created
  obtain ⟨hs, htaken, -, -, hseen⟩ := exists_turns (new p peer surroundings) h
  obtain ⟨c, d, hcd, hsession⟩ := hseen a b (htaken.symm.trans heq)
  have hnow : ((new p peer surroundings).run c).session = (Session.new p).after a := hsession
  rw [← hnow] at created ⊢
  exact fresh c d hcd (.inr created)

/-- What a session on its channel shows of the standing of its handshake. -/
structure StandsOnChannel (p : Profile) (l : Loop) (t : Nat) (answer : Option Json) (n : Nat) : Prop where
  reached : Reached (l.session.progressOf t) answer n
  answers : ∀ m, Answered p l.taken t m ↔ answer = some m
  count : confirmed l.effects = List.replicate n (t, handshakeDone)
  ready : l.session.phase = .ready → n = 1
  verdict : ∀ o, .completed t o ∈ l.effects → Verdict p l.taken t answer n o
  known : l.session.progressOf t = some .finished → ∃ o, .completed t o ∈ l.effects

theorem exists_standsOnChannel (sole : Sole ((new p peer surroundings).run h).session t) :
    ∃ answer n, StandsOnChannel p ((new p peer surroundings).run h) t answer n := by
  have hsession := (sound_run p peer surroundings h).session
  have heffects := effects_taken p peer surroundings h
  rw [hsession] at sole
  obtain ⟨answer, n, hstanding⟩ := exists_standing sole
  refine ⟨answer, n, ?_, hstanding.answers, ?_, ?_, fun o ho => ?_, ?_⟩
  · rw [hsession]
    exact hstanding.reached
  · rw [heffects]
    exact hstanding.count
  · rw [hsession]
    exact fun hphase => (hstanding.ready hphase).1
  · rw [heffects] at ho
    exact (hstanding.verdict o ho).2
  · rw [hsession, heffects]
    exact hstanding.known

/-- What was confirmed was written, or waits to be. -/
theorem confirmations_perm (p : Profile) (peer : Channel.Peer) (surroundings : Channel.Surroundings)
    (h : List Occurrence) :
    (confirmations ((new p peer surroundings).written h) ++
        confirmations ((new p peer surroundings).run h).waiting).Perm
      (confirmed ((new p peer surroundings).run h).effects) := by
  rw [← confirmations_append]
  exact (written_perm p peer surroundings h).filter _

section
variable (sole : Sole ((new p peer surroundings).run h).session t)
include sole

/-- The message that confirms a handshake is written once at most. -/
theorem confirmations_le_one : (confirmations ((new p peer surroundings).written h)).length ≤ 1 := by
  obtain ⟨answer, n, hstands⟩ := exists_standsOnChannel sole
  have hlength := (confirmations_perm p peer surroundings h).length_eq
  rw [hstands.count, List.length_append, List.length_replicate] at hlength
  have hn := hstands.reached.le_one
  omega

/-- The message that confirms a handshake is written after a response without an error. -/
theorem responds_of_confirms {x : Occurrence} {v : Nat}
    (hx : ((new p peer surroundings).run h).written? x = some (v, handshakeDone)) :
    v = t ∧ ∃ m, Responds p ((new p peer surroundings).run h) t m ∧ errorOf? m = none := by
  obtain ⟨answer, n, hstands⟩ := exists_standsOnChannel sole
  have hdemanded := operation_of_written hx
  have hasked := (warranted_run p peer surroundings sole).asked v _ hdemanded
  -- what is written was handed over, and only the handshake hands it over
  have hconfirmed : (v, handshakeDone) ∈ confirmed ((new p peer surroundings).run h).effects :=
    mem_confirmations.mpr ⟨mem_sent.mpr hasked, rfl⟩
  rw [hstands.count, List.mem_replicate] at hconfirmed
  obtain ⟨hn, heq⟩ := hconfirmed
  obtain rfl : v = t := congrArg Prod.fst heq
  obtain ⟨m, rfl, haccepted⟩ := hstands.reached.accepted hn
  refine ⟨rfl, m, ⟨(hstands.answers m).mpr rfl, fun f hmem => ?_⟩, haccepted⟩
  -- a handshake of which an operation failed has none left to be done
  have hzero := ((balanced_run p peer surroundings sole).failed f hmem).2
  have hpos := outstanding_pos hdemanded (t := v) rfl
  omega

/-- A session that is ready has confirmed its handshake. -/
theorem written_of_ready (hphase : ((new p peer surroundings).run h).session.phase = .ready) :
    (t, handshakeDone) ∈ (new p peer surroundings).written h := by
  obtain ⟨answer, n, hstands⟩ := exists_standsOnChannel sole
  have hcount := hstands.count
  rw [hstands.ready hphase] at hcount
  have hmem := (confirmations_perm p peer surroundings h).mem_iff.mpr
    (show (t, handshakeDone) ∈ _ from hcount ▸ List.mem_singleton_self _)
  rcases List.mem_append.mp hmem with hmem | hmem
  · exact (mem_confirmations.mp hmem).1
  · -- nothing of it waits any longer
    obtain ⟨d, hd, hsent⟩ := List.mem_filterMap.mp (mem_confirmations.mp hmem).1
    have hzero := ((balanced_run p peer surroundings sole).ready hphase).2
    have howed : d.owedTo? = some t := by
      cases d with
      | operation v o =>
        cases o with
        | send m => cases hsent; rfl
        | openChannel | closeChannel | readFile => cases hsent
      | turn | listening => cases hsent
    have hpos := outstanding_pos hd howed
    omega

/-- What a handshake waits for that has an answer with an error is to be served, unless it is over. -/
theorem remembered_of_error {m e : Json} (answered : Answered p ((new p peer surroundings).run h).taken t m)
    (error : errorOf? m = some e) : Remembered ((new p peer surroundings).run h) t := by
  obtain ⟨answer, n, hstands⟩ := exists_standsOnChannel sole
  obtain rfl := (hstands.answers m).mp answered
  have hbalanced := balanced_run p peer surroundings sole
  generalize (new p peer surroundings).run h = l at hstands hbalanced
  have hreached := hstands.reached
  have hbalance := hbalanced.balance
  generalize hq : l.session.progressOf t = q at hreached hbalance
  cases hreached with
  | announcing _ accepted => cases error.symm.trans accepted
  | confirmed _ accepted => cases error.symm.trans accepted
  | unconfirmed => exact .inl (hstands.known hq)
  | answered id written =>
    cases written with
    | true => exact .inr ⟨_, _, hq, hbalanced.replied id _ hq, _, rfl, rfl⟩
    | false =>
      -- the request is still to be written, or its result to be taken
      have hone : 0 < l.outstanding t := by
        rw [show l.outstanding t = 1 from hbalance]
        exact Nat.one_pos
      obtain ⟨d, hd, howed⟩ := List.mem_filterMap.mp (List.count_pos_iff.mp hone)
      refine .inr ⟨_, d, hq, hd, ?_⟩
      cases d with
      | operation v o =>
        cases howed
        exact ⟨rfl, rfl⟩
      | listening => cases howed
      | turn u =>
        cases u with
        | resume v r =>
          cases r <;> cases howed
          exact ⟨_, rfl, rfl⟩
        | call | receive | account => cases howed

/-- A handshake that has an answer with an error is never confirmed, and makes no session ready. -/
theorem unconfirmed_of_error {m e : Json} (answered : Answered p ((new p peer surroundings).run h).taken t m)
    (error : errorOf? m = some e) : confirmations ((new p peer surroundings).written h) = [] := by
  obtain ⟨answer, n, hstands⟩ := exists_standsOnChannel sole
  obtain rfl := (hstands.answers m).mp answered
  have hperm := confirmations_perm p peer surroundings h
  rw [hstands.count, hstands.reached.unconfirmed_of_error error] at hperm
  exact (List.append_eq_nil_iff.mp hperm.eq_nil).1

/-- A handshake whose request was answered with an error ends with that error. -/
theorem endsWith_error {m e : Json} (responds : Responds p ((new p peer surroundings).run h) t m)
    (error : errorOf? m = some e) :
    EndsWith (· = .error (.handshakeRejected e)) ((new p peer surroundings).run h) h t := by
  refine ⟨fun o ho => ?_, remembered_of_error sole responds.answered error⟩
  obtain ⟨answer, n, hstands⟩ := exists_standsOnChannel sole
  obtain rfl := (hstands.answers m).mp responds.answered
  cases hstands.verdict o ho with
  | succeeded once => cases once.symm.trans (hstands.reached.unconfirmed_of_error error)
  | rejected m' e' here error' =>
    cases here
    cases error.symm.trans error'
    exact .inl rfl
  | lost reason unrejected => cases error.symm.trans (unrejected m rfl)
  | refused f refused unrejected => cases error.symm.trans (unrejected m rfl)
  | failed f mem => exact absurd mem (responds.written f)
  | cancelled mem => exact .inr ⟨rfl, (warranted_run p peer surroundings sole).gaveUp mem⟩

/-- What may come of a handshake. -/
theorem outcome_of_handshake {o : Except Failure Answer}
    (ho : .completed t o ∈ ((new p peer surroundings).run h).effects) :
    (o = .ok .done ∧ ∃ m, Answered p ((new p peer surroundings).run h).taken t m ∧ errorOf? m = none) ∨
    (∃ m e, o = .error (.handshakeRejected e) ∧ Answered p ((new p peer surroundings).run h).taken t m ∧
      errorOf? m = some e) ∨
    IsClosed o ∨ (o = .error .cancelled ∧ .giveUp t ∈ h) ∨
    o = .error writerStopped ∧ Refused p ((new p peer surroundings).run h).taken t writerStopped := by
  obtain ⟨answer, n, hstands⟩ := exists_standsOnChannel sole
  have hwarranted := warranted_run p peer surroundings sole
  cases hstands.verdict o ho with
  | succeeded once =>
    obtain ⟨m, rfl, haccepted⟩ := hstands.reached.accepted (by rw [once]; exact Nat.one_ne_zero)
    exact .inl ⟨rfl, m, (hstands.answers m).mpr rfl, haccepted⟩
  | rejected m e here error => exact .inr (.inl ⟨m, e, rfl, (hstands.answers m).mpr here, error⟩)
  | lost reason => exact .inr (.inr (.inl (isClosed_closedFailure reason)))
  | failed f mem => exact .inr (.inr (.inl (hwarranted.taken f mem)))
  | cancelled mem => exact .inr (.inr (.inr (.inl ⟨rfl, hwarranted.gaveUp mem⟩)))
  | refused f refused =>
    obtain ⟨a, u, b, heq, sends, why⟩ := id refused
    rcases refusal?_cases why with ⟨reason, -, rfl⟩ | ⟨-, -, rfl⟩
    · exact .inr (.inr (.inl (isClosed_closedFailure reason)))
    · exact .inr (.inr (.inr (.inr ⟨rfl, refused⟩)))

/-- A session that was disposed of during its handshake is disposed of as long as that goes on. -/
theorem barred_run (fresh : BeginsFresh (new p peer surroundings) h t) {c d : List Occurrence}
    (hcd : h = c ++ d) (disposed : ((new p peer surroundings).run c).session.phase = .disposed) :
    Barred ((new p peer surroundings).run h).session t := by
  have hbegan := fresh.began
  subst hcd
  have hsession := (sound_run p peer surroundings (c ++ d)).session
  rw [hsession] at sole ⊢
  rw [(sound_run p peer surroundings c).session] at disposed
  obtain ⟨hs, htaken, -⟩ := exists_turns ((new p peer surroundings).run c) d
  rw [← run_append] at htaken
  rw [htaken] at sole hbegan ⊢
  exact barred_after sole hbegan disposed

/-- A handshake that hands over a message does so in a session that was never disposed of. -/
theorem undisposed_of_handsOver (fresh : BeginsFresh (new p peer surroundings) h t) {x : Occurrence}
    (hands : HandsOver ((new p peer surroundings).run h) x t) {c d : List Occurrence} (hcd : h = c ++ d) :
    ((new p peer surroundings).run c).session.phase ≠ .disposed := by
  intro disposed
  have hbarred := barred_run sole fresh hcd disposed
  obtain ⟨es, m, heffects, hmem⟩ := hands
  generalize (new p peer surroundings).run h = l at hbarred heffects
  generalize hl : l.step x = l' at heffects
  have hstepped := stepped_step l x
  rw [hl] at hstepped
  cases hstepped with
  | outside | operation =>
    obtain rfl : es = [] := List.append_cancel_left (heffects.symm.trans (List.append_nil _).symm)
    cases hmem
  | turn u =>
    obtain rfl : (l.session.step u).effects = es := List.append_cancel_left heffects
    rcases hbarred with hphase | hf
    · -- a closed session sends nothing, and a task that is over does nothing
      exact (whyClosed?_eq_none.mp (whyClosed?_of_sends hmem)).1 hphase
    · obtain ⟨r, rfl⟩ := Turn.exists_resume (operation_of_perform hmem).1
      change _ ∈ (l.session.resume t r).effects at hmem
      rw [resume_finished hf] at hmem
      cases hmem

end

/-- **A handshake gates its session.** A session on its channel, whatever it was through before, is called
to one handshake. Then, in every order in which the loop serves what it was asked for, whatever the server
sends, and whenever the stream ends, somebody disposes of the session or a caller gives up:

* the message that confirms the handshake is written once at most, after a response to its request without
  an error;
* the session is ready only after that message was written;
* after a response with an error the call ends with exactly that error, the message is never written and
  the session never ready;
* the call ends in no other way than by success, by the error of an answer, and as on a channel that is
  closed, unless its caller gives up, or a disposal that was over stopped the writer of its messages;
* that has stopped no writer if the session was not disposed of before the handshake began, and no message
  of the handshake is then handed over after a disposal. -/
theorem handshake_gates (p : Profile) (peer : Channel.Peer) (surroundings : Channel.Surroundings)
    {g h : List Occurrence} (before : ∀ x ∈ g, x ≠ .call .handshake)
    (after : ∀ x ∈ h, x ≠ .call .handshake) :
    HandshakeGates p (new p peer surroundings) (g ++ .call .handshake :: h)
      ((new p peer surroundings).run g).session.tasks.length := by
  obtain ⟨hsole, -⟩ := sole_run p peer surroundings before after rfl
  generalize g ++ .call .handshake :: h = xs at hsole ⊢
  -- it is the only one after each part of the row
  have hpart (a b : List Occurrence) (heq : xs = a ++ b) :
      Sole ((new p peer surroundings).run a).session
        ((new p peer surroundings).run g).session.tasks.length := by
    rw [heq, run_append] at hsole
    exact sole_before (sound_run p peer surroundings a) hsole
  refine ⟨confirmations_le_one hsole, fun a x b v heq => responds_of_confirms (hpart a _ heq),
    fun a b heq => written_of_ready (hpart a b heq), fun m e responds error => ?_,
    fun o ho => ?_, ⟨fun ho => ?_, fun hr => ?_⟩, fun fresh => ?_, fun fresh a x b heq => ?_⟩
  · have hnone := unconfirmed_of_error hsole responds.answered error
    refine ⟨endsWith_error hsole responds error, hnone, fun a b heq hphase => ?_⟩
    have hmem := written_of_ready (hpart a b heq) hphase
    rw [heq, written_append, confirmations_append] at hnone
    have hnil := (List.append_eq_nil_iff.mp hnone).1
    exact absurd (mem_confirmations.mpr ⟨hmem, rfl⟩) (by rw [hnil]; simp)
  · rcases outcome_of_handshake hsole ho with hdone | hrejected | hclosed | hcancelled | ⟨hstopped, -⟩
    · exact .inl hdone
    · exact .inr (.inl hrejected)
    · exact .inr (.inr (.inl hclosed))
    · exact .inr (.inr (.inr (.inl hcancelled)))
    · exact .inr (.inr (.inr (.inr hstopped)))
  · rcases outcome_of_handshake hsole ho with
      ⟨hdone, -⟩ | ⟨m, e, hrejected, -⟩ | ⟨reason, cause, hclosed⟩ | ⟨hcancelled, -⟩ | ⟨-, hr⟩
    · cases hdone
    · cases hrejected
    · cases hclosed
    · cases hcancelled
    · exact hr
  · rw [effects_taken]
    rw [(sound_run p peer surroundings xs).session] at hsole
    exact hr.completed hsole
  · rw [(sound_run p peer surroundings xs).session] at hsole
    exact not_refused_of_fresh hsole fresh.began
  · refine undisposed_of_handsOver (hpart a _ heq) fun c d hcd => ?_
    exact fresh c (d ++ x :: b) (by rw [heq, hcd, List.append_assoc])

/-- The server answers a handshake with an error, and the session is disposed of before the handshake takes
the answer. The call still ends with that error, and nothing was written to confirm it; with an answer that
has no error, the session is ready, and the confirmation was written. -/
theorem refused_and_accepted_handshakes :
    let p : Profile := ⟨"/a.txt", .str "text", "/", .int 0, false, false, 1⟩
    let start := new p .streams ⟨⟨"linux", none⟩, [], none, none, false, false, false, 0⟩
    let now (place : Nat) : Occurrence := .serve place (.ok "")
    let asked := [now 0, now 0, now 0, now 0, now 0, now 0]
    let refusal : Json := .obj [("id", .int 1), ("error", .str "no")]
    let refused := asked ++ [.arrive refusal, now 0, .call .dispose, now 2, now 1]
    let accepted := asked ++ [.arrive (.obj [("id", .int 1)]), now 0, now 1, now 1, now 1]
    (Responds p (start.run (.call .handshake :: refused)) 0 refusal ∧
      endings (start.run (.call .handshake :: refused)).effects =
        [(0, .error (.handshakeRejected (.str "no")))] ∧
      confirmations (start.written (.call .handshake :: refused)) = []) ∧
    (start.run (.call .handshake :: accepted)).session.phase = .ready ∧
      (0, handshakeDone) ∈ start.written (.call .handshake :: accepted) := by
  intro p start now asked refusal refused accepted
  have htaken : (start.run (.call .handshake :: refused)).taken = [.call .handshake, .resume 0 .begins,
      .resume 0 (.returned (.ok "")), .resume 1 .begins, .resume 0 (.returned (.ok "")), .receive refusal,
      .call .dispose, .resume 2 .begins, .resume 0 .replied] := by decide +kernel
  have hresponds : Responds p (start.run (.call .handshake :: refused)) 0 refusal := by
    refine ⟨?_, fun f => by rw [htaken]; simp⟩
    rw [htaken]
    exact ⟨[.call .handshake, .resume 0 .begins, .resume 0 (.returned (.ok "")), .resume 1 .begins,
      .resume 0 (.returned (.ok ""))], [.call .dispose, .resume 2 .begins, .resume 0 .replied], 1, rfl,
      by decide +kernel, _, rfl, rfl, by decide +kernel⟩
  have hrefused : HandshakeGates p start (.call .handshake :: refused) 0 :=
    handshake_gates p .streams _ (g := []) nofun (by simp [refused, asked, now])
  have haccepted : HandshakeGates p start (.call .handshake :: accepted) 0 :=
    handshake_gates p .streams _ (g := []) nofun (by simp [accepted, asked, now])
  have hready : (start.run (.call .handshake :: accepted)).session.phase = .ready := by decide +kernel
  have hended : endings (start.run (.call .handshake :: refused)).effects =
      [(0, .error (.handshakeRejected (.str "no")))] := by decide +kernel
  clear_value start
  obtain ⟨-, hnone, -⟩ := hrefused.rejected refusal (.str "no") hresponds rfl
  exact ⟨⟨hresponds, hended, hnone⟩, hready, haccepted.ready _ [] (List.append_nil _).symm hready⟩

/-- A handshake begins while a session is disposed of, and its channel is opened before the disposal closes
it. When the handshake goes on, the disposal is over: the call fails neither by an answer nor because the
channel is closed. -/
theorem handshake_finds_writer_stopped :
    let p : Profile := ⟨"/a.txt", .str "text", "/", .int 0, false, false, 1⟩
    let start := new p .streams ⟨⟨"linux", none⟩, [], none, none, false, false, false, 0⟩
    let now (place : Nat) : Occurrence := .serve place (.ok "")
    let h := [.call .dispose, now 0, .call .handshake, now 1, now 1, now 0, now 0, now 0]
    (start.run h).outcome? 0 = some (.ok .done) ∧
      (start.run h).outcome? 1 = some (.error writerStopped) ∧
      ¬ IsClosed (.error writerStopped) ∧ ∀ e, writerStopped ≠ .handshakeRejected e := by
  intro p start now h
  refine ⟨by decide +kernel, by decide +kernel, ?_, fun e heq => by cases heq⟩
  rintro ⟨reason, cause, heq⟩
  cases heq

end

end Loop

end EditorServices.Session
