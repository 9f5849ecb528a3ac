import EditorServices.Proofs.Lists
import EditorServices.Proofs.Session.Attendance
import EditorServices.Proofs.Session.Versions
import Mathlib.Data.List.Infix

/-!
# `Proofs.Session.WireOrder` — versions reach the channel in their order

The messages of a session are written by one writer, in the order in which they were handed over. The
loop leaves open in which order its demands are served; `WritesInOrder` is what one writer makes of it:
a message is written only when none that was handed over earlier waits. Then nothing overtakes: what
waited, and what is handed over, is what is written and what still waits, in this order.

With that, the versions that `versions_in_order` finds in the turns of a session are the versions on the
wire.

## Contents
- **The writer.** `waiting`, `written` and `WritesInOrder`; `waiting_append_run`, the conservation law.
- **Turns.** `turns`, the turns that are taken in a row of occurrences, and `staysOpen_turns`.
- **The headline.** `versions_on_the_wire`.
-/

namespace EditorServices.Session

/-- The message that is written when a demand is served, with the task that sends it. -/
def Demand.sent? : Demand → Option (Nat × Json)
  | .operation t (.send m) => some (t, m)
  | _ => none

/-- What is demanded by effects is to be written if the effects hand it over. -/
theorem filterMap_sent?_demands (es : List Effect) :
    (es.filterMap Demand.of?).filterMap Demand.sent? = es.filterMap Effect.sent? := by
  rw [List.filterMap_filterMap]
  congr 1
  funext e
  cases e with
  | perform t o => cases o <;> rfl
  | _ => rfl

namespace Loop

/-! ## The writer -/

/-- The messages that wait for the writer, in the order in which they were handed over. -/
def waiting (l : Loop) : List (Nat × Json) := l.demands.filterMap Demand.sent?

/-- The message that is written in an occurrence. -/
def written? (l : Loop) : Occurrence → Option (Nat × Json)
  | .serve place _ => (l.demands[place]?).bind Demand.sent?
  | _ => none

/-- The messages that are written in a row of occurrences, in their order. -/
def written (l : Loop) : List Occurrence → List (Nat × Json)
  | [] => []
  | x :: h => (l.written? x).toList ++ (l.step x).written h

/-- An occurrence disturbs the order of writing: a message is written while one waits that was handed over
earlier, or a caller gives up, who may take back a message that waits. -/
def Disturbs (l : Loop) : Occurrence → Prop
  | .serve place text =>
    (l.written? (.serve place text)).isSome = true ∧ (l.demands.take place).filterMap Demand.sent? ≠ []
  | .giveUp _ => True
  | _ => False

instance (l : Loop) (x : Occurrence) : Decidable (Disturbs l x) := by
  cases x <;> unfold Disturbs <;> infer_instance

/-- One writer writes the messages in the order in which they are handed over. -/
def WritesInOrder (l : Loop) : List Occurrence → Prop
  | [] => True
  | x :: h => ¬ Disturbs l x ∧ (l.step x).WritesInOrder h

instance decidableWritesInOrder (l : Loop) : (h : List Occurrence) → Decidable (WritesInOrder l h)
  | [] => .isTrue trivial
  | x :: h =>
    have := decidableWritesInOrder (l.step x) h
    inferInstanceAs (Decidable (¬ Disturbs l x ∧ (l.step x).WritesInOrder h))

/-- Taking a turn lets the messages wait that the turn hands over. -/
theorem waiting_take (l : Loop) (u : Turn) :
    (l.take u).waiting = l.waiting ++ (l.session.step u).effects.filterMap Effect.sent? := by
  show (l.demands ++ (l.session.step u).effects.filterMap Demand.of?).filterMap Demand.sent? = _
  rw [List.filterMap_append, filterMap_sent?_demands]
  rfl

/-- Nothing is lost in an occurrence: what waited, and what is handed over, is written or waits. -/
def Conserves (l : Loop) (x : Occurrence) (l' : Loop) : Prop :=
  ∃ es, l'.effects = l.effects ++ es ∧
    l.waiting ++ es.filterMap Effect.sent? = (l.written? x).toList ++ l'.waiting

/-- Nothing is written, and nothing that matters happens. -/
theorem conserves_idle {l q : Loop} {x : Occurrence} (hx : l.written? x = none)
    (effects : q.effects = l.effects) (waiting : q.waiting = l.waiting) : Conserves l x q := by
  refine ⟨[], ?_, ?_⟩
  · rw [effects, List.append_nil]
  · rw [hx, waiting]
    exact List.append_nil _

/-- Nothing is written, and a turn is taken. -/
theorem conserves_take {l q : Loop} {x : Occurrence} (hx : l.written? x = none)
    (effects : q.effects = l.effects) (waiting : q.waiting = l.waiting) (u : Turn) :
    Conserves l x (q.take u) := by
  refine ⟨(q.session.step u).effects, ?_, ?_⟩
  · rw [← effects]
    rfl
  · rw [hx, waiting_take, waiting]
    rfl

/-- The inbound stream is listened to. -/
theorem conserves_listen {l : Loop} {place t : Nat} {text : Except Failure String}
    (here : l.demands[place]? = some (.listening t)) :
    Conserves l (.serve place text) (l.listen place t) := by
  have hx : l.written? (.serve place text) = none := by
    rw [written?, here]
    rfl
  unfold listen
  split
  · exact conserves_take hx rfl rfl _
  · exact conserves_take (q := { l with demands := l.demands.eraseIdx place }) hx rfl
      (filterMap_eraseIdx here rfl) _
  · exact conserves_idle hx rfl rfl

/-- An operation is done; a message is the first that waits. -/
theorem conserves_operation {l : Loop} {place t : Nat} {o : Operation} {text : Except Failure String}
    (order : ¬ Disturbs l (.serve place text)) (here : l.demands[place]? = some (.operation t o))
    {l' : Loop} (effects : l'.effects = l.effects) {u : Turn}
    (demands : l'.demands = l.demands.set place (.turn u)) : Conserves l (.serve place text) l' := by
  have hx : l.written? (.serve place text) = Demand.sent? (.operation t o) := by
    rw [written?, here]
    rfl
  have hlt : place < l.demands.length := (List.getElem?_eq_some_iff.mp here).1
  have hbefore : l.waiting = (l.demands.take place).filterMap Demand.sent?
      ++ ((Demand.sent? (.operation t o)).toList ++ (l.demands.drop (place + 1)).filterMap Demand.sent?) := by
    conv => lhs; rw [waiting, eq_take_append_cons_drop here]
    rw [List.filterMap_append, List.filterMap_cons]
    cases Demand.sent? (.operation t o) <;> rfl
  have hafter : l'.waiting = (l.demands.take place).filterMap Demand.sent?
      ++ (l.demands.drop (place + 1)).filterMap Demand.sent? := by
    rw [waiting, demands, List.set_eq_take_append_cons_drop, if_pos hlt, List.filterMap_append]
    rfl
  refine ⟨[], by rw [effects, List.append_nil], ?_⟩
  rw [List.filterMap_nil, List.append_nil, hx, hbefore, hafter]
  cases hsent : Demand.sent? (.operation t o) with
  | none => rfl
  | some m =>
    -- a message: nothing waits before it
    have hfirst : (l.demands.take place).filterMap Demand.sent? = [] := by
      rw [hsent] at hx
      refine Decidable.not_not.mp fun hne => order ⟨?_, hne⟩
      rw [hx]
      rfl
    rw [hfirst]
    rfl

/-- **One writer loses nothing and lets nothing overtake.** -/
theorem conserves_step {l : Loop} {x : Occurrence} (order : ¬ Disturbs l x) : Conserves l x (l.step x) := by
  cases x with
  | call c => exact conserves_take rfl rfl rfl _
  | arrive m =>
    show Conserves l _ (if l.streamEnd.isSome then l else _)
    split
    · exact conserves_idle rfl rfl rfl
    · exact conserves_idle rfl rfl rfl
  | endStream reason error =>
    show Conserves l _ (if l.streamEnd.isSome then l else _)
    split
    · exact conserves_idle rfl rfl rfl
    · exact conserves_idle rfl rfl rfl
  | giveUp t => exact absurd trivial order
  | serve place text =>
    show Conserves l _ (l.serve place text)
    unfold serve
    split
    · next u here =>
      have hx : l.written? (.serve place text) = none := by
        rw [written?, here]
        rfl
      exact conserves_take (q := { l with demands := l.demands.eraseIdx place }) hx rfl
        (filterMap_eraseIdx here rfl) u
    · next t o here => exact conserves_operation order here rfl rfl
    · next t here => exact conserves_listen here
    · next here =>
      refine conserves_idle ?_ rfl rfl
      rw [written?, here]
      rfl

/-- What waited at first, and what was handed over since, is what was written since and what waits. -/
theorem waiting_append_run {l : Loop} {h : List Occurrence} (order : WritesInOrder l h) :
    ∃ es, (l.run h).effects = l.effects ++ es ∧
      l.waiting ++ es.filterMap Effect.sent? = l.written h ++ (l.run h).waiting := by
  induction h generalizing l with
  | nil => exact ⟨[], (List.append_nil _).symm, List.append_nil _⟩
  | cons x h ih =>
    obtain ⟨es, heffects, hnow⟩ := conserves_step order.1
    obtain ⟨fs, hmore, hlater⟩ := ih order.2
    refine ⟨es ++ fs, ?_, ?_⟩
    · show ((l.step x).run h).effects = _
      rw [hmore, heffects, List.append_assoc]
    · calc l.waiting ++ (es ++ fs).filterMap Effect.sent?
          = (l.waiting ++ es.filterMap Effect.sent?) ++ fs.filterMap Effect.sent? := by
            rw [List.filterMap_append, List.append_assoc]
        _ = (l.written? x).toList ++ ((l.step x).waiting ++ fs.filterMap Effect.sent?) := by
            rw [hnow, List.append_assoc]
        _ = l.written (x :: h) ++ ((l.step x).run h).waiting := by
            rw [hlater, written, List.append_assoc]

/-! ## Turns -/

/-- The turns that are taken in a row of occurrences. -/
def turns (l : Loop) (h : List Occurrence) : List Turn := (l.run h).taken.drop l.taken.length

/-- An occurrence takes one turn at most. -/
theorem exists_turns_step (l : Loop) (x : Occurrence) :
    ∃ us, us.length ≤ 1 ∧ (l.step x).taken = l.taken ++ us ∧ (l.step x).session = l.session.after us ∧
      (l.step x).effects = l.effects ++ (l.session.run us).effects := by
  generalize hl : l.step x = l'
  have hstepped := stepped_step l x
  rw [hl] at hstepped
  cases hstepped with
  | outside | operation => exact ⟨[], by simp, (List.append_nil _).symm, rfl, (List.append_nil _).symm⟩
  | turn u =>
    refine ⟨[u], by simp, rfl, rfl, ?_⟩
    show _ = l.effects ++ ((l.session.step u).effects ++ [])
    rw [List.append_nil]
    rfl

/-- A row of occurrences takes its turns, and is seen from the session between any two of them. -/
theorem exists_turns (l : Loop) (h : List Occurrence) :
    ∃ hs, (l.run h).taken = l.taken ++ hs ∧ (l.run h).session = l.session.after hs ∧
      (l.run h).effects = l.effects ++ (l.session.run hs).effects ∧
      ∀ a b, hs = a ++ b → ∃ c d, h = c ++ d ∧ (l.run c).session = l.session.after a := by
  induction h generalizing l with
  | nil =>
    refine ⟨[], (List.append_nil _).symm, rfl, (List.append_nil _).symm, fun a b heq => ?_⟩
    obtain ⟨rfl, rfl⟩ := List.append_eq_nil_iff.mp heq.symm
    exact ⟨[], [], rfl, rfl⟩
  | cons x h ih =>
    obtain ⟨us, hone, htaken, hsession, heffects⟩ := exists_turns_step l x
    obtain ⟨hs, htaken', hsession', heffects', hseen⟩ := ih (l.step x)
    refine ⟨us ++ hs, ?_, ?_, ?_, fun a b heq => ?_⟩
    · show ((l.step x).run h).taken = _
      rw [htaken', htaken, List.append_assoc]
    · show ((l.step x).run h).session = _
      rw [hsession', hsession, after_append]
    · show ((l.step x).run h).effects = _
      rw [heffects', heffects, hsession, Session.run_append, List.append_assoc]
      rfl
    · -- the turns so far are none, or the one of this occurrence and some of the rest
      rcases List.append_eq_append_iff.mp heq with ⟨a', rfl, hrest⟩ | ⟨b', hus, -⟩
      · obtain ⟨c, d, rfl, hc⟩ := hseen a' b hrest
        refine ⟨x :: c, d, rfl, ?_⟩
        show ((l.step x).run c).session = _
        rw [hc, hsession, after_append]
      · cases a with
        | nil => exact ⟨[], x :: h, rfl, rfl⟩
        | cons u a =>
          have hall : us = u :: a := by
            have hlength := congrArg List.length hus
            rw [List.length_append, List.length_cons] at hlength
            obtain rfl : b' = [] := List.length_eq_zero_iff.mp (by omega)
            rw [hus, List.append_nil]
          refine ⟨[x], h, rfl, ?_⟩
          show (l.step x).session = _
          rw [hsession, hall]

theorem turns_eq {l : Loop} {h : List Occurrence} {hs : List Turn}
    (taken : (l.run h).taken = l.taken ++ hs) : l.turns h = hs := by
  rw [turns, taken, List.drop_left]

/-- The session stays open in its turns if it does between occurrences. -/
theorem staysOpen_turns {l : Loop} {h : List Occurrence}
    (opened : ∀ a b, h = a ++ b → (l.run a).session.refusal? = none)
    (unclosing : ∀ t, (l.run h).session.jobOf t = some (.call .closeDocument) →
      l.session.progressOf t = some .finished) : StaysOpen l.session (l.turns h) := by
  obtain ⟨hs, htaken, hsession, -, hseen⟩ := exists_turns l h
  rw [turns_eq htaken]
  refine ⟨fun a b heq => ?_, fun t hj => ?_⟩
  · obtain ⟨c, d, rfl, hc⟩ := hseen a b heq
    rw [← hc]
    exact opened c d rfl
  · rw [← hsession] at hj
    exact unclosing t hj

/-! ## The headline -/

/-- **The order of versions on the wire.** Let a session on its channel stay open and its writer at work, as
it is while its channel is not closed, through a row of occurrences `h` in which no closing of the document
goes on, whatever came before and in whatever order calls, messages and operations follow each other in `h`.
Then

* the messages about texts of the document are handed over in the order of their versions, one for each
  call that is accepted and none for others, an opening first if no document was listed, and the document
  has the version of the last one;
* and if one writer writes what is handed over, and no such message waited at first, then the messages
  that are written, followed by those that still wait, are the ones that were handed over. -/
theorem versions_on_the_wire (p : Profile) (peer : Channel.Peer) (surroundings : Channel.Surroundings)
    (g h : List Occurrence)
    (opened : ∀ a b, h = a ++ b → (((new p peer surroundings).run g).run a).session.refusal? = none)
    (unclosing : ∀ t,
      (((new p peer surroundings).run g).run h).session.jobOf t = some (.call .closeDocument) →
      ((new p peer surroundings).run g).session.progressOf t = some .finished) :
    InVersionOrder ((new p peer surroundings).run g).session (((new p peer surroundings).run g).turns h) ∧
    (announcementsIn ((new p peer surroundings).run g).waiting = [] →
      WritesInOrder ((new p peer surroundings).run g) h →
      announcementsIn (((new p peer surroundings).run g).written h)
          ++ announcementsIn (((new p peer surroundings).run g).run h).waiting
        = ((new p peer surroundings).run g).session.announcedIn
          (((new p peer surroundings).run g).turns h)) := by
  generalize hbefore : (new p peer surroundings).run g = before at opened unclosing ⊢
  have hsound : Sound p before := hbefore ▸ sound_run p peer surroundings g
  refine ⟨versions_in_order hsound.orderly (staysOpen_turns opened unclosing), fun idle order => ?_⟩
  obtain ⟨hs, htaken, -, heffects, -⟩ := exists_turns before h
  obtain ⟨es, hes, hlaw⟩ := waiting_append_run order
  obtain rfl : es = (before.session.run hs).effects := List.append_cancel_left (hes.symm.trans heffects)
  rw [turns_eq htaken]
  have hmessages := congrArg announcementsIn hlaw
  simp only [announcementsIn, List.filterMap_append] at hmessages idle ⊢
  rw [idle, List.nil_append] at hmessages
  exact hmessages.symm

/-- An opening reads its file while a change begins that finds no document; a second change begins before
the opening is written. The first change has no message; the opening and the second change are written
under the versions 1 and 2. -/
theorem opening_and_changes_on_the_wire :
    let p : Profile := ⟨"/a.txt", .str "text", "/", .int 0, false, false, 1⟩
    let now (place : Nat) : Occurrence := .serve place (.ok "")
    let change (text : String) : Occurrence := .call (.updateDocument (.str text))
    let handshake := [.call .handshake, now 0, now 0, now 0, now 0, now 0, now 0,
      .arrive (.obj [("id", .int 1)]), now 0, now 1, now 1, now 1]
    let h := [.call .openDocument, now 1, change "x", now 2, now 1, now 1, change "y", now 2, now 1, now 2]
    let before := (new p .streams ⟨⟨"linux", none⟩, [], none, none, false, false, false, 0⟩).run handshake
    before.session.phase = .ready ∧ before.session.announcedBy (before.turns h) 3 = [] ∧
      announcementsIn (before.written h) = [⟨.opened, .int 1, 2⟩, ⟨.changed, .int 2, 4⟩] ∧
      announcementsIn (before.written h) = before.session.announcedIn (before.turns h) := by
  intro p now change handshake h before
  have hopened : ∀ a ∈ h.inits, (before.run a).session.refusal? = none := by decide +kernel
  have hjobs : ∀ k ∈ (before.run h).session.tasks, k.job ≠ .call .closeDocument := by decide +kernel
  obtain ⟨horder, hwire⟩ := versions_on_the_wire p .streams
    ⟨⟨"linux", none⟩, [], none, none, false, false, false, 0⟩ handshake h
    (fun a b heq => hopened a ((List.mem_inits a h).mpr ⟨b, heq.symm⟩))
    fun t hj => absurd hj (jobOf_ne_of_tasks hjobs t)
  have hrow := hwire (by decide +kernel) (by decide +kernel)
  have hnone : announcementsIn (before.run h).waiting = [] := by decide +kernel
  rw [hnone, List.append_nil] at hrow
  refine ⟨by decide +kernel, ?_, by decide +kernel, hrow⟩
  exact horder.unlisted [.call .openDocument, .resume 2 .begins, .call (.updateDocument (.str "x"))]
    ((before.turns h).drop 4) 3 (.str "x") (by decide +kernel) (by decide +kernel) (by decide +kernel)
    (by decide +kernel)

end Loop

end EditorServices.Session
