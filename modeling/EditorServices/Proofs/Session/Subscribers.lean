import EditorServices.Proofs.Session.AnswerOrder
import EditorServices.Proofs.Session.TellingOrder

/-!
# `Proofs.Session.Subscribers` — what subscribers see of the messages of the server

The laws about tellings hold of histories in which nobody disposes of the session, no telling gives up, and,
for the order, tellings go on in turn. This file shows when the turns of a loop are such a history. Nothing
but a disposal makes a telling give up. First turns are asked for in the order of the tasks, so a loop that
serves them in that order lets tellings begin in the order of the messages. Pauses can be of any length: that
they end in the order of the messages has to be said (`RestsInOrder`), and without it a later message can
reach a subscriber first (`later_message_first`).

## Contents
- **Pauses.** `RestsInOrder`, and that it holds where nobody pauses.
- **Tellings in a loop.** `Attending`, kept by every occurrence but a disposal.
- **Turns of a loop.** `undisturbed_turns` and `allInTurn_turns`.
- **The headline.** `messages_told`.
-/

namespace EditorServices.Session

/-! ## Pauses -/

/-- The subscriber whose pause a telling waits for. -/
def waitsFor? (s : Session) (t : Nat) : Option Subscriber :=
  match s.progressOf t with
  | some (.telling who _) => some who
  | _ => none

/-- A turn ends a pause of one of some subscribers that pauses for an earlier message too. -/
def RestsEarly (early : List Subscriber) (s : Session) : Turn → Prop
  | .resume t .rested => ∃ who ∈ early, s.waitsFor? t = some who ∧ ∃ v < t, s.waitsFor? v = some who
  | _ => False

instance decidableRestsEarly (early : List Subscriber) (s : Session) (u : Turn) :
    Decidable (RestsEarly early s u) := by
  unfold RestsEarly
  split <;> infer_instance

/-- The pauses of each of some subscribers end in the order of the messages. -/
def RestsInOrder (early : List Subscriber) (s : Session) : List Turn → Prop
  | [] => True
  | u :: hs => ¬ RestsEarly early s u ∧ RestsInOrder early (s.step u).session hs

instance decidableRestsInOrder (early : List Subscriber) (s : Session) :
    (hs : List Turn) → Decidable (RestsInOrder early s hs)
  | [] => .isTrue trivial
  | u :: hs =>
    have := decidableRestsInOrder early (s.step u).session hs
    inferInstanceAs (Decidable (¬ RestsEarly early s u ∧ RestsInOrder early (s.step u).session hs))

theorem waitsFor?_eq_some {s : Session} {t : Nat} {who : Subscriber} :
    s.waitsFor? t = some who ↔ ∃ rest, s.progressOf t = some (.telling who rest) := by
  unfold waitsFor?
  constructor
  · intro h
    split at h
    · next rest hp =>
      cases h
      exact ⟨rest, hp⟩
    · cases h
  · rintro ⟨rest, hp⟩
    rw [hp]

/-- Only a telling waits for a subscriber, and for one that pauses. -/
theorem Attuned.pauses {s : Session} {whos : List Subscriber} (h : Attuned s whos) {t : Nat} {who : Subscriber}
    (hwaits : s.waitsFor? t = some who) : who.behaviour = .pauses := by
  obtain ⟨rest, hp⟩ := waitsFor?_eq_some.mp hwaits
  obtain ⟨⟨job, p⟩, hk, rfl⟩ := Option.map_eq_some_iff.mp hp
  obtain ⟨n, rfl⟩ : ∃ n, job = .publish n := h.orderly t _ _ (jobOf_of_get hk) (progressOf_of_get hk)
  exact (h.paused _ (mem_tellings hk) who rest rfl).1

/-- Where nobody pauses, no pause ends early. -/
theorem restsInOrder_of_prompt {whos early : List Subscriber} (distinct : (whos.map Subscriber.name).Nodup)
    (prompt : ∀ who ∈ early, who.behaviour ≠ .pauses) {s : Session} {hs : List Turn} (h : Attuned s whos)
    (undisturbed : Undisturbed s hs) : RestsInOrder early s hs := by
  induction hs generalizing s with
  | nil => trivial
  | cons u hs ih =>
    refine ⟨fun hearly => ?_, ih (h.step distinct undisturbed.1) undisturbed.2⟩
    unfold RestsEarly at hearly
    split at hearly
    · obtain ⟨who, hwho, hwaits, -⟩ := hearly
      exact prompt who hwho (h.pauses hwaits)
    · exact hearly

theorem mem_tellingsBefore {s : Session} {t : Nat} {x : Telling} (h : x ∈ s.tellingsBefore t) :
    ∃ v < t, s.tasks[v]? = some ⟨.publish x.message, x.stage⟩ := by
  obtain ⟨k, hk, hx⟩ := List.mem_filterMap.mp h
  obtain ⟨v, hv⟩ := List.getElem?_of_mem hk
  rw [List.getElem?_take] at hv
  split at hv
  · next hlt =>
    refine ⟨v, hlt, ?_⟩
    obtain ⟨job, p⟩ := k
    cases job with
    | publish n =>
      cases hx
      exact hv
    | call | listen | answer => cases hx
  · cases hv

namespace Loop

/-! ## Tellings in a loop -/

/-- A loop before anything happened, with a session to which some have subscribed. -/
def newFor (p : Profile) (peer : Channel.Peer) (surroundings : Channel.Surroundings) (whos : List Subscriber) :
    Loop :=
  { new p peer surroundings with session := (Session.new p).subscribeAll whos }

/-- In a loop of which nobody disposes, every telling that is not over is going to go on. -/
structure Attending (whos : List Subscriber) (l : Loop) : Prop where
  attuned : Attuned l.session whos
  /-- Nobody is called on demand, and nobody is made to give up. -/
  routine : ∀ u, .turn u ∈ l.demands → (∀ c, u ≠ .call c) ∧ ∀ t, u ≠ .resume t .cancelled
  attended : ∀ t n p, l.session.tasks[t]? = some ⟨.publish n, p⟩ → p ≠ .finished →
    ∃ r, p.Runs r ∧ .turn (.resume t r) ∈ l.demands

namespace Attending

variable {whos : List Subscriber} {l : Loop} (h : Attending whos l)
include h

/-- No turn disposes of the session, or makes a telling give up. -/
theorem spares {x : Occurrence} {u : Turn} (prompted : Prompted l x u)
    (taken : (l.step x).taken = l.taken ++ [u]) (hx : x ≠ .call .dispose) : Spares l.session u := by
  cases prompted with
  | called c => exact ⟨fun heq => hx (by rw [Turn.call.inj heq]), fun t n _ => by simp⟩
  | demanded mem => exact ⟨(h.routine u mem).1 .dispose, fun t n _ => (h.routine u mem).2 t⟩
  | received m => exact ⟨by simp, fun t n _ => by simp⟩
  | streamEnded => exact ⟨by simp, fun t n _ => by simp⟩
  | gaveUp v =>
    refine ⟨by simp, fun t n hj heq => ?_⟩
    -- the caller of a call gives up, and a telling is none
    obtain rfl : v = t := by
      injection heq
    have hcall := isCall_of_taken taken
    unfold isCall at hcall
    split at hcall
    · next c hc => cases hj.symm.trans hc
    · cases hcall

/-- What a turn demands calls nobody, and makes nobody give up. -/
theorem routine_of_effect {u v : Turn} {e : Effect} (he : e ∈ (l.session.step u).effects)
    (hdemand : Demand.of? e = some (.turn v)) : (∀ c, v ≠ .call c) ∧ ∀ t, v ≠ .resume t .cancelled := by
  have hundisposed : Undisposed l.session := fun t ht => h.attuned.undisposed t (ht.job h.attuned.orderly)
  cases e with
  | cancel t => exact absurd he (hundisposed.not_cancel u t)
  | start | wake | pause | sleep | rejoin | account =>
    cases hdemand
    exact ⟨by simp, by simp⟩
  | perform | listen | completed | told | refused | log => cases hdemand

section

variable {u : Turn} {demands : List Demand}

omit h in
/-- What has been asked for still is, apart from the turn that is given. -/
theorem still_asked (kept : ∀ d ∈ l.demands, d ∈ demands ∨ d = .turn u ∨ ∃ t, d = .listening t) {v : Turn}
    (asked : .turn v ∈ l.demands) (other : u ≠ v) :
    .turn v ∈ demands ++ (l.session.step u).effects.filterMap Demand.of? := by
  rcases kept _ asked with hd | heq | ⟨t, heq⟩
  · exact List.mem_append_left _ hd
  · exact absurd (Demand.turn.inj heq).symm other
  · cases heq

omit h in
/-- What a turn asks for is asked for after it. -/
theorem newly_asked {e : Effect} {d : Demand} (he : e ∈ (l.session.step u).effects)
    (hd : Demand.of? e = some d) : d ∈ demands ++ (l.session.step u).effects.filterMap Demand.of? :=
  List.mem_append_right _ (List.mem_filterMap.mpr ⟨e, he, hd⟩)

variable (kept : ∀ d ∈ l.demands, d ∈ demands ∨ d = .turn u ∨ ∃ t, d = .listening t)
  {t : Nat} {n : Notification} {q : Progress}
  (moved : (l.session.step u).session.tasks[t]? = some ⟨.publish n, q⟩) (unfinished : q ≠ .finished)
include kept moved unfinished

/-- A telling that goes on asks for the end of a pause; one that is resumed in vain has been asked for. -/
theorem attended_own (distinct : (whos.map Subscriber.name).Nodup) (spares : Spares l.session u) {p : Progress}
    (before : l.session.tasks[t]? = some ⟨.publish n, p⟩) (own : u.task? = some t) :
    ∃ r, q.Runs r ∧ .turn (.resume t r) ∈ demands ++ (l.session.step u).effects.filterMap Demand.of? := by
  obtain ⟨r, rfl⟩ := Turn.exists_resume own
  -- a run that does not end the telling asks for the end of a pause; otherwise nothing has happened
  by_cases runs : p.Runs r
  · obtain ⟨q', ran⟩ := h.attuned.exists_ran distinct before runs
    have hq' := progressOf_of_get moved
    rw [ran.moved, progressOf_moveTask_self (progressOf_of_get before)] at hq'
    obtain rfl : q' = q := Option.some.inj hq'
    rcases ran.next with hover | ⟨who, rest, rfl, -, -, hpause⟩
    · exact absurd hover unfinished
    · exact ⟨.rested, .inr ⟨who, rest, rfl, rfl⟩, newly_asked hpause rfl⟩
  · have hidle := h.attuned.step_of_not_runs before runs fun heq =>
      spares.2 t n (jobOf_of_get before) (by rw [heq])
    rw [hidle, before] at moved
    obtain rfl : p = q := (Task.mk.inj (Option.some.inj moved)).2
    obtain ⟨r', runs', hmem⟩ := h.attended t n p before unfinished
    refine ⟨r', runs', still_asked kept hmem fun heq => ?_⟩
    cases heq
    exact runs runs'

/-- In a turn of something else a telling stays where it was. -/
theorem attended_apart (present : t < l.session.tasks.length) (apart : u.task? ≠ some t) :
    ∃ r, q.Runs r ∧ .turn (.resume t r) ∈ demands ++ (l.session.step u).effects.filterMap Demand.of? := by
  obtain ⟨⟨job, p⟩, hbefore⟩ : ∃ k, l.session.tasks[t]? = some k := ⟨_, List.getElem?_eq_getElem present⟩
  have hsame := telling?_step h.attuned.orderly present fun _ _ => apart
  rw [moved, hbefore] at hsame
  have htelling : Task.telling? ⟨job, p⟩ = some ⟨n, q⟩ := hsame.symm
  cases job with
  | publish n' =>
    cases htelling
    obtain ⟨r, runs, hmem⟩ := h.attended t _ _ hbefore unfinished
    exact ⟨r, runs, still_asked kept hmem fun heq => apart (by rw [heq]; rfl)⟩
  | call | listen | answer => cases htelling

omit kept unfinished in
/-- A telling that comes in with a turn is started by it. -/
theorem attended_new (absent : l.session.tasks.length ≤ t) :
    ∃ r, q.Runs r ∧ .turn (.resume t r) ∈ demands ++ (l.session.step u).effects.filterMap Demand.of? := by
  obtain ⟨k, hspawns⟩ := spawns_step l.session u
  have hstart := hspawns.start_of_le absent (List.getElem?_eq_some_iff.mp moved).1
  have hcreated : q = .created := by
    have hq := progressOf_of_get moved
    rcases h.attuned.orderly.progressOf_fresh u (progressOf_eq_none.mpr absent) with hnew | hnew
    · cases hnew.symm.trans hq
    · exact Option.some.inj (hq.symm.trans hnew)
  exact ⟨.begins, .inl ⟨hcreated, rfl⟩, newly_asked hstart rfl⟩

/-- A turn leaves every telling going on, or asks for it to go on. -/
theorem attended_step (distinct : (whos.map Subscriber.name).Nodup) (spares : Spares l.session u) :
    ∃ r, q.Runs r ∧ .turn (.resume t r) ∈ demands ++ (l.session.step u).effects.filterMap Demand.of? := by
  by_cases hlt : t < l.session.tasks.length
  · by_cases own : u.task? = some t
    · obtain ⟨⟨job, p⟩, hbefore⟩ : ∃ k, l.session.tasks[t]? = some k := ⟨_, List.getElem?_eq_getElem hlt⟩
      obtain rfl : job = .publish n := by
        have hj := h.attuned.orderly.jobOf_step u (jobOf_of_get hbefore)
        exact Option.some.inj (hj.symm.trans (jobOf_of_get moved))
      exact h.attended_own kept moved unfinished distinct spares hbefore own
    · exact h.attended_apart kept moved unfinished hlt own
  · exact h.attended_new moved (Nat.le_of_not_lt hlt)

end

/-- **Every occurrence but a disposal leaves the tellings attended.** -/
theorem step (distinct : (whos.map Subscriber.name).Nodup) {x : Occurrence} (hx : x ≠ .call .dispose) :
    Attending whos (l.step x) := by
  generalize hl : l.step x = l'
  have hstepped := stepped_step l x
  rw [hl] at hstepped
  cases hstepped with
  | outside => exact ⟨h.attuned, h.routine, h.attended⟩
  | operation place t o text here =>
    refine ⟨h.attuned, fun u hu => ?_, fun v n p hk hp => ?_⟩
    · rcases List.mem_or_eq_of_mem_set hu with hu | heq
      · exact h.routine u hu
      · cases heq
        exact ⟨by simp, by simp⟩
    · obtain ⟨r, runs, hmem⟩ := h.attended v n p hk hp
      refine ⟨r, runs, (mem_set_or hmem here).resolve_right fun heq => by cases heq⟩
  | turn u demands arrived prompted old kept =>
    have hspares := h.spares prompted (by rw [hl]; rfl) hx
    refine ⟨h.attuned.step distinct hspares, fun v hv => ?_, fun t n p hk hp =>
      h.attended_step kept hk hp distinct hspares⟩
    rcases List.mem_append.mp hv with hv | hv
    · exact h.routine v (old _ hv)
    · obtain ⟨e, he, hdemand⟩ := List.mem_filterMap.mp hv
      exact h.routine_of_effect he hdemand

end Attending

section

variable (p : Profile) (peer : Channel.Peer) (surroundings : Channel.Surroundings) (whos : List Subscriber)

theorem newFor_spec : (newFor p peer surroundings whos).session.hearers = whos ∧
    (newFor p peer surroundings whos).session.bus.closed = false ∧
    (newFor p peer surroundings whos).session.tasks = [] ∧
    (newFor p peer surroundings whos).session.profile = p := by
  have hsubscribable : Subscribable (Session.new p) := ⟨rfl, fun r hr => by cases hr⟩
  obtain ⟨hhearers, hopened, htasks, hprofile⟩ := subscribeAll_spec hsubscribable whos
  exact ⟨hhearers, hopened.opened, htasks, hprofile⟩

/-- Before anything happened nothing is told. -/
theorem tellings_newFor : (newFor p peer surroundings whos).session.tellings = [] := by
  rw [tellings, (newFor_spec p peer surroundings whos).2.2.1]
  rfl

theorem attending_newFor : Attending whos (newFor p peer surroundings whos) := by
  obtain ⟨hhearers, hopened, htasks, -⟩ := newFor_spec p peer surroundings whos
  have hnone (t : Nat) : (newFor p peer surroundings whos).session.tasks[t]? = none := by
    rw [htasks]
    rfl
  refine ⟨⟨fun t job q hj => ?_, fun t hj => ?_, hopened, hhearers, fun x hx => ?_⟩, fun u hu => (by cases hu),
    fun t n q hk => ?_⟩
  · rw [jobOf, hnone] at hj
    cases hj
  · rw [jobOf, hnone] at hj
    cases hj
  · rw [tellings_newFor] at hx
    cases hx
  · rw [hnone] at hk
    cases hk

theorem queued_newFor : Queued (newFor p peer surroundings whos) := by
  refine ⟨.nil, fun t ht => (by cases ht), fun t ht => ?_⟩
  obtain ⟨id, method, params, hj, -⟩ := exists_of_mem_unbegun ht
  rw [jobOf, (newFor_spec p peer surroundings whos).2.2.1] at hj
  cases hj

end

/-! ## Turns of a loop -/

section

variable {whos : List Subscriber} (distinct : (whos.map Subscriber.name).Nodup)
include distinct

/-- **Without a disposal no telling gives up.** -/
theorem undisturbed_turns {l : Loop} {xs : List Occurrence} (h : Attending whos l)
    (alone : ∀ x ∈ xs, x ≠ .call .dispose) : Undisturbed l.session (l.turns xs) := by
  induction xs generalizing l with
  | nil =>
    have hnone : l.turns [] = [] := turns_eq (List.append_nil _).symm
    rw [hnone]
    trivial
  | cons x xs ih =>
    have hx := alone x List.mem_cons_self
    have hlater := ih (h.step distinct hx) fun y hy => alone y (List.mem_cons_of_mem _ hy)
    rcases turns_cons l x xs with ⟨hsession, hturns⟩ | ⟨u, prompted, taken, hsession, hturns⟩
    · rw [hturns, ← hsession]
      exact hlater
    · rw [hturns]
      exact ⟨h.spares prompted taken hx, hsession ▸ hlater⟩

omit distinct in
/-- When a first turn is given in the order in which first turns were asked for, all earlier tellings have
begun. -/
theorem Attending.begun_before {l : Loop} (h : Attending whos l) (queued : Queued l) {x : Occurrence}
    (next : ¬ Overtakes l x) {t : Nat} (taken : (l.step x).taken = l.taken ++ [.resume t .begins]) {y : Telling}
    (hy : y ∈ l.session.tellingsBefore t) : y.stage ≠ .created := by
  intro hcreated
  obtain ⟨v, hlt, hv⟩ := mem_tellingsBefore hy
  rw [hcreated] at hv
  -- one that has not begun waits for its first turn, and in front of this one
  obtain ⟨r, runs, hmem⟩ := h.attended v _ _ hv (by simp)
  obtain rfl : r = .begins := by
    rcases runs with ⟨-, rfl⟩ | ⟨_, _, heq, -⟩
    · rfl
    · cases heq
  have hwaiting : v ∈ l.beginning := List.mem_filterMap.mpr ⟨_, hmem, rfl⟩
  have hhead := beginning_of_begins next taken
  have hordered := queued.ordered
  cases hb : l.beginning with
  | nil =>
    rw [hb] at hwaiting
    cases hwaiting
  | cons first others =>
    rw [hb] at hhead hwaiting hordered
    obtain rfl : first = t := Option.some.inj hhead
    rcases List.mem_cons.mp hwaiting with rfl | hothers
    · exact Nat.lt_irrefl _ hlt
    · have hle := (List.pairwise_cons.mp hordered).1 v hothers
      omega

/-- **Tellings go on in turn** if first turns are given in the order in which they were asked for, and the
pauses of those before a subscriber end in the order of the messages. -/
theorem allInTurn_turns {l : Loop} {xs : List Occurrence} {early : List Subscriber} (h : Attending whos l)
    (queued : Queued l) (alone : ∀ x ∈ xs, x ≠ .call .dispose) (starts : StartsInOrder l xs)
    (rests : RestsInOrder early l.session (l.turns xs)) : AllInTurn early l.session (l.turns xs) := by
  induction xs generalizing l with
  | nil =>
    have hnone : l.turns [] = [] := turns_eq (List.append_nil _).symm
    rw [hnone]
    trivial
  | cons x xs ih =>
    obtain ⟨hx, hstarts⟩ := starts
    have hnext := h.step distinct (alone x List.mem_cons_self)
    have hqueued := queued.step h.attuned.orderly x
    have hlater := ih hnext hqueued (fun y hy => alone y (List.mem_cons_of_mem _ hy)) hstarts
    rcases turns_cons l x xs with ⟨hsession, hturns⟩ | ⟨u, -, taken, hsession, hturns⟩
    · rw [hturns, ← hsession] at rests ⊢
      exact hlater rests
    · rw [hturns] at rests ⊢
      rw [hsession] at hlater
      refine ⟨⟨fun t n hk hu y hy hcreated => ?_, fun t n who rest hk hu hwho y hy rest' hstage => ?_⟩,
        hlater rests.2⟩
      · exact h.begun_before queued hx (hu ▸ taken) hy hcreated
      · obtain ⟨v, hlt, hv⟩ := mem_tellingsBefore hy
        rw [hstage] at hv
        subst hu
        exact rests.1 ⟨who, hwho, waitsFor?_eq_some.mpr ⟨rest, progressOf_of_get hk⟩, v, hlt,
          waitsFor?_eq_some.mpr ⟨rest', progressOf_of_get hv⟩⟩

end

/-! ## The headline -/

/-- What messages are told as. -/
structure News (p : Profile) : Prop where
  /-- A message with a text as its method is told under its method, its parameters and its id; a report has
  to have a list of diagnostics, or none. -/
  told : ∀ ms method, Named.get? ms "method" = some (.str method) →
    (method = diagnosticsMethod → ∀ params, Json.field (.obj ms) "params" = .obj params →
      Json.field (.obj params) "diagnostics" = .null ∨ ∃ xs, Json.field (.obj params) "diagnostics" = .arr xs) →
    news? p (.obj ms) = some ⟨method, Json.field (.obj ms) "params", Json.field (.obj ms) "id"⟩
  /-- Nothing else is told. -/
  other : ∀ m, (∀ ms method, m = .obj ms → Named.get? ms "method" ≠ some (.str method)) → news? p m = none

theorem news (p : Profile) : News p := by
  refine ⟨fun ms method hmethod readable => news?_of_method hmethod readable, fun m hm => ?_⟩
  unfold news?
  split
  · next ms =>
    split
    · next method hmethod => exact absurd hmethod (hm ms method rfl)
    · rfl
  · rfl

/-- What a subscriber sees of the messages in a row of occurrences, if some are told before it. -/
structure Heard (p : Profile) (before : Loop) (xs : List Occurrence) (early : List Subscriber)
    (who : Subscriber) : Prop where
  /-- It was told of each message once, or is still to be told of it. -/
  once : (invocations who (before.run xs).effects ++ (before.run xs).session.owed who).Perm
    (newsIn p (before.run xs).taken)
  /-- A telling that has not reached it is going to go on. -/
  attended : ∀ n ∈ (before.run xs).session.owed who, ∃ t stage r,
    (before.run xs).session.tasks[t]? = some ⟨.publish n, stage⟩ ∧ stage.Runs r ∧
      .turn (.resume t r) ∈ (before.run xs).demands
  /-- It was told of the messages in their order, if first turns were given in the order in which they were
  asked for and the pauses of those before it ended in the order of the messages. -/
  inOrder : StartsInOrder before xs → RestsInOrder early before.session (before.turns xs) →
    invocations who (before.run xs).effects ++ (before.run xs).session.owed who = newsIn p (before.run xs).taken
  /-- That is so if nobody before it pauses. -/
  prompt : (∀ x ∈ early, x.behaviour ≠ .pauses) → RestsInOrder early before.session (before.turns xs)

theorem Attending.mem_owed {whos : List Subscriber} {l : Loop} (h : Attending whos l) {who : Subscriber}
    {n : Notification} (hn : n ∈ l.session.owed who) : ∃ t stage r,
      l.session.tasks[t]? = some ⟨.publish n, stage⟩ ∧ stage.Runs r ∧ .turn (.resume t r) ∈ l.demands := by
  obtain ⟨x, hx, hn⟩ := List.mem_filterMap.mp hn
  obtain ⟨⟨job, p⟩, hk, htelling⟩ := List.mem_filterMap.mp hx
  obtain ⟨t, ht⟩ := List.getElem?_of_mem hk
  unfold owes? at hn
  split at hn
  · next hmem =>
    cases hn
    cases job with
    | publish n =>
      cases htelling
      have hopen : p ≠ .finished := by
        rintro rfl
        cases hmem
      obtain ⟨r, runs, hdemand⟩ := h.attended t n p ht hopen
      exact ⟨t, p, r, ht, runs, hdemand⟩
    | call | listen | answer => cases htelling
  · cases hn

/-- **Subscribers and the messages of the server.** Let some subscribe, told apart by their names, and let
nobody dispose of the session, in whatever order calls, messages, operations and pauses follow each other.
Messages are handed to the session in the order in which they arrive, and each subscriber is told of them as
`Heard` says; what they are told as is what `News` says. -/
theorem messages_told (p : Profile) (peer : Channel.Peer) (surroundings : Channel.Surroundings)
    (whos : List Subscriber) (distinct : (whos.map Subscriber.name).Nodup) (xs : List Occurrence)
    (alone : ∀ x ∈ xs, x ≠ .call .dispose) :
    News p ∧
    ((newFor p peer surroundings whos).run xs).taken.filterMap Turn.message? ++
      ((newFor p peer surroundings whos).run xs).arrived = arrivals xs ∧
    ∀ early who late, whos = early ++ who :: late → Heard p (newFor p peer surroundings whos) xs early who := by
  have hattending := attending_newFor p peer surroundings whos
  have hqueued := queued_newFor p peer surroundings whos
  obtain ⟨-, -, -, hprofile⟩ := newFor_spec p peer surroundings whos
  have htellings := tellings_newFor p peer surroundings whos
  have hreceived : ((newFor p peer surroundings whos).run xs).received = arrivals xs := by
    have hunprompted : Unprompted (newFor p peer surroundings whos) := fun m hm => by cases hm
    exact hunprompted.received_run xs
  have htaken : (newFor p peer surroundings whos).taken = [] := rfl
  have heffects : (newFor p peer surroundings whos).effects = [] := rfl
  generalize newFor p peer surroundings whos = before at *
  refine ⟨news p, hreceived, fun early who late heq => ?_⟩
  subst heq
  have hrun : Attending _ (before.run xs) := run_preserves (fun l x hx hl => hl.step distinct hx) alone hattending
  obtain ⟨hs, htaken', hsession, heffects', -⟩ := exists_turns before xs
  have hturns : before.turns xs = hs := turns_eq htaken'
  -- the turns of the loop are a history of its session, of the kind that the laws about tellings are about
  have hundisturbed := undisturbed_turns distinct hattending alone
  have howed : before.session.owed who = [] := by
    rw [owed, htellings]
    rfl
  rw [htaken, List.nil_append] at htaken'
  rw [heffects, List.nil_append] at heffects'
  constructor
  · have hperm := invocations_perm distinct (List.mem_append_right _ List.mem_cons_self) hattending.attuned
      hundisturbed
    rw [hturns, howed, hprofile, List.nil_append] at hperm
    rwa [heffects', hsession, htaken']
  · exact fun n hn => hrun.mem_owed hn
  · intro starts rests
    have hlined : Lined before.session late.length := by
      rw [Lined, htellings]
      exact .nil
    have hlaw := invocations_eq distinct hattending.attuned hlined hundisturbed
      (allInTurn_turns distinct hattending hqueued alone starts rests)
    rw [hturns, howed, hprofile, List.nil_append] at hlaw
    rwa [heffects', hsession, htaken']
  · exact fun prompt => restsInOrder_of_prompt distinct prompt hattending.attuned hundisturbed

/-- Two messages arrive while `slow` pauses for the first. Its pauses end in the order of the messages, and
`quick`, which is told after it, is told of them in their order. -/
theorem two_messages_told :
    let p : Profile := ⟨"/a.txt", .str "text", "/", .int 0, false, false, 1⟩
    let surroundings : Channel.Surroundings := ⟨⟨"linux", none⟩, [], none, none, false, false, false, 0⟩
    let slow : Subscriber := ⟨"slow", .pauses⟩
    let quick : Subscriber := ⟨"quick", .notes⟩
    let now (place : Nat) : Occurrence := .serve place (.ok "")
    let message (method : String) : Json := .obj [("method", .str method)]
    let xs := [.call .handshake, now 0, now 0, now 0, now 0, now 0, now 0, .arrive (.obj [("id", .int 1)]),
      now 0, now 1, now 1, now 1, .arrive (message "first"), .arrive (message "second"),
      now 0, now 0, now 1, now 1, now 1, now 1]
    let before := newFor p .streams surroundings [slow, quick]
    StartsInOrder before xs ∧ RestsInOrder [slow] before.session (before.turns xs) ∧
      invocations quick (before.run xs).effects = [⟨"first", .null, .null⟩, ⟨"second", .null, .null⟩] := by
  intro p surroundings slow quick now message xs before
  obtain ⟨-, -, hheard⟩ := messages_told p .streams surroundings [slow, quick] (by decide) xs
    (by simp [xs, now])
  have hlaw := (hheard [slow] quick [] rfl).inOrder (by decide +kernel) (by decide +kernel)
  have howed : (before.run xs).session.owed quick = [] := by decide +kernel
  have hnews : newsIn p (before.run xs).taken = [⟨"first", .null, .null⟩, ⟨"second", .null, .null⟩] := by
    decide +kernel
  change invocations quick (before.run xs).effects ++ (before.run xs).session.owed quick
    = newsIn p (before.run xs).taken at hlaw
  rw [howed, hnews, List.append_nil] at hlaw
  exact ⟨by decide +kernel, by decide +kernel, hlaw⟩

/-- The pauses of `slow` can end the other way round: then `quick` is told of the second message first, though
the messages were handed over in their order and first turns were given in the order of the requests for
them. -/
theorem later_message_first :
    let p : Profile := ⟨"/a.txt", .str "text", "/", .int 0, false, false, 1⟩
    let surroundings : Channel.Surroundings := ⟨⟨"linux", none⟩, [], none, none, false, false, false, 0⟩
    let slow : Subscriber := ⟨"slow", .pauses⟩
    let quick : Subscriber := ⟨"quick", .notes⟩
    let now (place : Nat) : Occurrence := .serve place (.ok "")
    let message (method : String) : Json := .obj [("method", .str method)]
    let xs := [.call .handshake, now 0, now 0, now 0, now 0, now 0, now 0, .arrive (.obj [("id", .int 1)]),
      now 0, now 1, now 1, now 1, .arrive (message "first"), .arrive (message "second"),
      now 0, now 0, now 1, now 1, now 2, now 1]
    let before := newFor p .streams surroundings [slow, quick]
    StartsInOrder before xs ∧ Occurrence.call .dispose ∉ xs ∧
      arrivals xs = [.obj [("id", .int 1)], message "first", message "second"] ∧
      (before.run xs).arrived = [] ∧
      newsIn p (before.run xs).taken = [⟨"first", .null, .null⟩, ⟨"second", .null, .null⟩] ∧
      invocations slow (before.run xs).effects = [⟨"first", .null, .null⟩, ⟨"second", .null, .null⟩] ∧
      invocations quick (before.run xs).effects = [⟨"second", .null, .null⟩, ⟨"first", .null, .null⟩] := by
  intro p surroundings slow quick now message xs before
  exact ⟨by decide +kernel, by simp [xs, now], by decide +kernel, by decide +kernel, by decide +kernel,
    by decide +kernel, by decide +kernel⟩

end Loop

end EditorServices.Session
