import EditorServices.Proofs.Bus.Interleaving

/-!
# `Proofs.Bus.Tickets` — which subscription ends when a ticket is given back

A ticket says what was subscribed to what. A callback that is subscribed to an event several times gets equal
tickets, and of the equal subscriptions that stand a ticket ends the earliest. Here the subscriptions are
numbered in the order in which they are made, so that one can tell which of them end. A ticket ends its own
subscription, and no other, exactly as long as no equal one stands before it, or in its place when it has ended
already. So it is for callbacks that are subscribed to an event once, and for all subscriptions for a single
delivery, whose wrappers are never equal.

## Contents
- **The register.** `History.made`, `History.register`: the subscriptions that stand, with their numbers.
- **One ticket.** `EndsOwn`, and `eraseP_eq_filter_iff` on which of several equal entries ends.
- **Wrappers.** `Reaches.wrapped`: no two are equal.
- **The headline.** `ends_own_iff_earliest`.
-/

namespace EditorServices.Bus

/-! ## The register -/

namespace History

/-- The subscriptions that were made, in their order; they are known by their positions in it. -/
def made (h : History) : List Subscription :=
  h.filterMap fun
    | .subscribed s => some s
    | _ => none

/-- The number of the next subscription, and those that stand. -/
abbrev Register := Nat × List (Nat × Subscription)

/-- The register after something happened. Of equal subscriptions the earliest is ended. -/
def enrolled (r : Register) : Event → Register
  | .subscribed s => (r.1 + 1, r.2 ++ [(r.1, s)])
  | .unsubscribed t => (r.1, r.2.eraseP (·.2 == t))
  | .closed => (r.1, [])
  | _ => r

/-- The subscriptions that stand, in the order in which they were made, with their numbers. -/
def register (h : History) : List (Nat × Subscription) := (h.foldl enrolled (0, [])).2

variable {h m : History} {k : Nat} {s t : Subscription}

theorem made_append (h m : History) : made (h ++ m) = made h ++ made m := List.filterMap_append

theorem fst_foldl_enrolled (h : History) : (h.foldl enrolled (0, [])).1 = (made h).length := by
  induction h using List.reverseRecOn with
  | nil => rfl
  | append_singleton h e ih =>
    rw [List.foldl_append, made_append, List.length_append, ← ih]
    cases e <;> rfl

theorem register_concat (h : History) (e : Event) :
    register (h ++ [e]) = (enrolled ((made h).length, register h) e).2 := by
  unfold register
  rw [List.foldl_append, ← fst_foldl_enrolled]
  rfl

/-- The register lists the subscriptions that stand. -/
theorem map_register (h : History) : (register h).map (·.2) = h.subscriptions := by
  induction h using List.reverseRecOn with
  | nil => rfl
  | append_singleton h e ih =>
    rw [register_concat, subscriptions_concat, ← ih]
    cases e with
    | subscribed s => simp [enrolled, resubscribed]
    | unsubscribed t =>
      show ((register h).eraseP (·.2 == t)).map (·.2) = ((register h).map (·.2)).erase t
      rw [List.erase_eq_eraseP, List.eraseP_map]
      congr 2
      funext e
      exact Bool.beq_comm
    | closed | amended | publishing | called | delivered => rfl

/-- The subscriptions that stand are some of those that were made, in their order. -/
theorem subscriptions_sublist_made (h : History) : h.subscriptions.Sublist (made h) := by
  induction h using List.reverseRecOn with
  | nil => exact .slnil
  | append_singleton h e ih =>
    rw [subscriptions_concat, made_append]
    cases e with
    | subscribed s => exact ih.append (.refl _)
    | unsubscribed t => exact (List.erase_sublist.trans ih).trans (List.sublist_append_left _ _)
    | closed => exact List.nil_sublist _
    | amended | publishing | called | delivered => exact ih.trans (List.sublist_append_left _ _)

/-- Each entry is a subscription that was made under its number. -/
theorem made_of_mem_register (hmem : (k, t) ∈ register h) : (made h)[k]? = some t := by
  induction h using List.reverseRecOn with
  | nil => cases hmem
  | append_singleton h e ih =>
    have hold (hold : (k, t) ∈ register h) : (made (h ++ [e]))[k]? = some t := by
      have hmade := ih hold
      obtain ⟨hlt, -⟩ := List.getElem?_eq_some_iff.mp hmade
      rw [made_append, List.getElem?_append_left hlt, hmade]
    rw [register_concat] at hmem
    cases e with
    | subscribed s =>
      rcases List.mem_append.mp hmem with hmem | hmem
      · exact hold hmem
      · cases List.mem_singleton.mp hmem
        rw [made_append]
        exact List.getElem?_concat_length
    | unsubscribed t' => exact hold (List.mem_of_mem_eraseP hmem)
    | closed => cases hmem
    | amended | publishing | called | delivered => exact hold hmem

theorem lt_of_mem_register (hmem : (k, t) ∈ register h) : k < (made h).length :=
  (List.getElem?_eq_some_iff.mp (made_of_mem_register hmem)).1

/-- The register is in the order of the numbers. -/
theorem ascending_register (h : History) : (register h).Pairwise fun e e' => e.1 < e'.1 := by
  induction h using List.reverseRecOn with
  | nil => exact .nil
  | append_singleton h e ih =>
    rw [register_concat]
    cases e with
    | subscribed s =>
      refine List.pairwise_append.mpr ⟨ih, List.pairwise_singleton _ _, fun e he e' he' => ?_⟩
      cases List.mem_singleton.mp he'
      exact lt_of_mem_register he
    | unsubscribed t => exact ih.sublist List.eraseP_sublist
    | closed => exact .nil
    | amended | publishing | called | delivered => exact ih

/-- What has ended stays so. -/
theorem not_mem_register_append (hmade : k < (made h).length) (hended : ∀ t, (k, t) ∉ register h) :
    ∀ t, (k, t) ∉ register (h ++ m) := by
  induction m using List.reverseRecOn with
  | nil => simpa using hended
  | append_singleton m e ih =>
    intro t hmem
    rw [← List.append_assoc, register_concat] at hmem
    cases e with
    | subscribed s =>
      rcases List.mem_append.mp hmem with hmem | hmem
      · exact ih t hmem
      · cases List.mem_singleton.mp hmem
        rw [made_append, List.length_append] at hmade
        omega
    | unsubscribed t' => exact ih t (List.mem_of_mem_eraseP hmem)
    | closed => cases hmem
    | amended | publishing | called | delivered => exact ih t hmem

/-! ## One ticket -/

/-- Giving back the ticket of the subscription with a number ends that one, if it still stands, and no other. -/
def EndsOwn (h : History) (k : Nat) (t : Ticket) : Prop :=
  register (h ++ [.unsubscribed t]) = (register h).filter (·.1 ≠ k)

theorem endsOwn_iff : EndsOwn h k t ↔ (register h).eraseP (·.2 == t) = (register h).filter (·.1 ≠ k) := by
  rw [EndsOwn, register_concat]
  rfl

/-- In a list of entries with ascending numbers, an entry is not among those around it. -/
theorem not_mem_around {before after : List (Nat × Subscription)} {t' : Subscription}
    (hascending : (before ++ (k, t) :: after).Pairwise fun e e' => e.1 < e'.1) :
    (k, t') ∉ before ++ after := by
  obtain ⟨-, hcons, hcross⟩ := List.pairwise_append.mp hascending
  intro hmem
  rcases List.mem_append.mp hmem with hmem | hmem
  · exact Nat.lt_irrefl k (hcross _ hmem _ List.mem_cons_self)
  · exact Nat.lt_irrefl k (List.rel_of_pairwise_cons hcons hmem)

/-- A ticket ends the earliest of the equal subscriptions, if any stands, and leaves the others in their
order. -/
theorem eraseP_register (h : History) (t : Ticket) :
    (∀ j, (j, t) ∉ register h) ∧ (register h).eraseP (·.2 == t) = register h ∨
      ∃ j before after, (∀ i, (i, t) ∉ before) ∧ register h = before ++ (j, t) :: after ∧
        (register h).eraseP (·.2 == t) = before ++ after := by
  by_cases hstands : ∃ j, (j, t) ∈ register h
  · obtain ⟨j, hj⟩ := hstands
    obtain ⟨⟨i, t'⟩, before, after, hbefore, ht', hr, hends⟩ :=
      List.exists_of_eraseP (p := (·.2 == t)) hj (beq_self_eq_true t)
    obtain rfl : t' = t := eq_of_beq ht'
    exact .inr ⟨i, before, after, fun i hi => hbefore _ hi (beq_self_eq_true t'), hr, hends⟩
  · have hnone : ∀ j, (j, t) ∉ register h := not_exists.mp hstands
    refine .inl ⟨hnone, List.eraseP_of_forall_not fun e he heq => hnone e.1 ?_⟩
    rw [← eq_of_beq heq]
    exact he

/-- Of equal entries the first has the lowest number. -/
theorem le_of_mem_register {before after : List (Nat × Subscription)} {i : Nat} (hbefore : ∀ i, (i, t) ∉ before)
    (hr : register h = before ++ (k, t) :: after) (hi : (i, t) ∈ register h) : k ≤ i := by
  have hascending := ascending_register h
  rw [hr] at hascending hi
  rcases List.mem_append.mp hi with hi | hi
  · exact absurd hi (hbefore i)
  · rcases List.mem_cons.mp hi with hi | hi
    · exact Nat.le_of_eq (congrArg Prod.fst hi).symm
    · exact Nat.le_of_lt (List.rel_of_pairwise_cons (List.pairwise_append.mp hascending).2.1 hi)

/-- **A ticket ends its own subscription alone** exactly if no equal one stands, or the own one stands and is
the earliest of those that do. -/
theorem endsOwn_iff_earliest (hmade : (made h)[k]? = some t) :
    EndsOwn h k t ↔ ∀ j, (j, t) ∈ register h → (k, t) ∈ register h ∧ k ≤ j := by
  have hown (t' : Subscription) (hmem : (k, t') ∈ register h) : t' = t := by
    rw [made_of_mem_register hmem] at hmade
    exact Option.some.inj hmade
  rw [endsOwn_iff]
  rcases eraseP_register h t with ⟨hnone, hends⟩ | ⟨j, before, after, hbefore, hr, hends⟩
  · rw [hends]
    refine ⟨fun _ j hj => absurd hj (hnone j), fun _ => (List.filter_eq_self.mpr fun e he => ?_).symm⟩
    refine decide_eq_true fun heq => hnone k ?_
    rw [← hown e.2 (heq ▸ he), ← heq]
    exact he
  · have hascending := ascending_register h
    rw [hr] at hascending
    have hfirst (i : Nat) (hi : (i, t) ∈ register h) : j ≤ i := le_of_mem_register hbefore hr hi
    rw [hends, hr]
    constructor
    · intro heq
      -- the entry that ended is missing on the right as well
      obtain rfl : j = k := by
        by_contra hne
        have hkept : (j, t) ∈ (before ++ (j, t) :: after).filter (·.1 ≠ k) :=
          List.mem_filter.mpr ⟨by simp, decide_eq_true hne⟩
        exact not_mem_around hascending (heq ▸ hkept)
      exact fun i hi => ⟨by simp, hfirst i (hr ▸ hi)⟩
    · intro hearliest
      obtain ⟨hk, hle⟩ := hearliest j (by simp)
      obtain rfl : k = j := Nat.le_antisymm hle (hfirst k (hr ▸ hk))
      have hothers : ∀ e ∈ before ++ after, decide (e.1 ≠ k) = true := by
        intro e he
        refine decide_eq_true fun heq => ?_
        have hmem : (k, e.2) ∈ before ++ after := by
          rw [← heq]
          exact he
        exact not_mem_around hascending hmem
      rw [List.filter_append, List.filter_cons_of_neg (by simp), ← List.filter_append,
        List.filter_eq_self.mpr hothers]

/-! ## Wrappers -/

/-- The number of the wrapper that a subscription calls, if it is for a single delivery. -/
def wrapper? (s : Subscription) : Option Nat :=
  match s.callee with
  | .once number _ => some number
  | .listener _ => none

/-- No two subscriptions were made for one wrapper. -/
def Wrapped (h : History) : Prop :=
  (made h).Pairwise fun s s' => ∀ n, wrapper? s = some n → wrapper? s' ≠ some n

/-- With a wrapper of its own, a subscription was made once. -/
theorem Wrapped.eq (hwrapped : Wrapped h) {i j n : Nat} (hi : (made h)[i]? = some s) (hj : (made h)[j]? = some t)
    (hs : wrapper? s = some n) (ht : wrapper? t = some n) : i = j := by
  obtain ⟨hilt, rfl⟩ := List.getElem?_eq_some_iff.mp hi
  obtain ⟨hjlt, rfl⟩ := List.getElem?_eq_some_iff.mp hj
  have hrel := List.pairwise_iff_getElem.mp hwrapped
  rcases Nat.lt_trichotomy i j with hlt | heq | hgt
  · exact absurd ht (hrel i j hilt hjlt hlt n hs)
  · exact heq
  · exact absurd hs (hrel j i hjlt hilt hgt n ht)

theorem Wrapped.left (hwrapped : Wrapped (h ++ m)) : Wrapped h := by
  unfold Wrapped at hwrapped ⊢
  rw [made_append] at hwrapped
  exact (List.pairwise_append.mp hwrapped).1

theorem Wrapped.count_le_one (hwrapped : Wrapped h) {n : Nat} (hs : wrapper? s = some n) :
    (made h).count s ≤ 1 := by
  by_contra hmore
  have htwice : [s, s].Sublist (made h) := List.replicate_sublist_iff.mpr (Nat.lt_of_not_le hmore)
  exact List.rel_of_pairwise_cons (hwrapped.sublist htwice) List.mem_cons_self n hs hs

/-- A wrapper is that of one subscription. -/
theorem Wrapped.eq_of_wrapper (hwrapped : Wrapped h) {n : Nat} (hs : s ∈ made h) (ht : t ∈ made h)
    (hns : wrapper? s = some n) (hnt : wrapper? t = some n) : s = t := by
  obtain ⟨i, hi⟩ := List.mem_iff_getElem?.mp hs
  obtain ⟨j, hj⟩ := List.mem_iff_getElem?.mp ht
  obtain rfl := hwrapped.eq hi hj hns hnt
  exact Option.some.inj (hi.symm.trans hj)

end History

namespace Floor

open History

variable {σ : Type} {behave : Behaviour σ} {depth : Nat} {shared : σ}

/-- Wrappers are numbered by the bus, which uses no number twice. -/
structure Numbers (f : Floor σ) : Prop where
  wrapped : f.history.Wrapped
  below : ∀ s n, s ∈ made f.history → wrapper? s = some n → n < f.bus.next

/-- A subscription is for the next wrapper or for none. -/
theorem enter_numbers (b : Bus) (mode : Mode) (type : String) (listener : Nat) :
    b.next ≤ (enter b mode type listener).1.next ∧ ∀ s, (enter b mode type listener).2 = some s →
      ∀ n, wrapper? s = some n → n = b.next ∧ n < (enter b mode type listener).1.next := by
  cases mode <;>
    simp only [enter, Bus.subscribe, Bus.subscribeAll, Bus.subscribeOnce, Bus.add] <;>
    by_cases hclosed : b.closed = true <;> simp +contextual [hclosed, wrapper?, eq_comm]

theorem Numbers.subscribe {f : Floor σ} (hf : f.Numbers) (mode : Mode) (type : String) (listener : Nat) :
    (f.subscribe mode type listener).1.Numbers := by
  obtain ⟨hle, hnew⟩ := enter_numbers f.bus mode type listener
  have hhistory : (f.subscribe mode type listener).1.history =
      f.history ++ ((enter f.bus mode type listener).2.map Event.subscribed).toList := rfl
  have hnext : (f.subscribe mode type listener).1.bus.next = (enter f.bus mode type listener).1.next := rfl
  cases hticket : (enter f.bus mode type listener).2 with
  | none =>
    rw [hticket, Option.map_none, Option.toList_none, List.append_nil] at hhistory
    constructor
    · rw [hhistory]
      exact hf.wrapped
    · intro s n hs hn
      rw [hhistory] at hs
      exact Nat.lt_of_lt_of_le (hf.below s n hs hn) hle
  | some t =>
    have hmade : made (f.subscribe mode type listener).1.history = made f.history ++ [t] := by
      rw [hhistory, hticket, made_append]
      rfl
    constructor
    · unfold Wrapped
      rw [hmade]
      refine List.pairwise_append.mpr ⟨hf.wrapped, List.pairwise_singleton _ _, fun s hs s' hs' n hn hn' => ?_⟩
      cases List.mem_singleton.mp hs'
      have := hf.below s n hs hn
      obtain ⟨heq, -⟩ := hnew t hticket n hn'
      omega
    · intro s n hs hn
      rw [hmade] at hs
      rcases List.mem_append.mp hs with hs | hs
      · exact Nat.lt_of_lt_of_le (hf.below s n hs hn) hle
      · cases List.mem_singleton.mp hs
        exact (hnew t hticket n hn).2

/-- Nothing else makes a subscription or changes how wrappers are numbered. -/
theorem Numbers.of_eq {f f' : Floor σ} (hf : f.Numbers) (hmade : made f'.history = made f.history)
    (hnext : f'.bus.next = f.bus.next) : f'.Numbers := by
  constructor
  · unfold Wrapped
    rw [hmade]
    exact hf.wrapped
  · rw [hmade, hnext]
    exact hf.below

theorem Numbers.act {f f' : Floor σ} {frames frames' : List (Frame σ)} (hf : f.Numbers)
    (h : Act f f' frames frames') : f'.Numbers := by
  have hone (e : Event) (he : made [e] = []) : made (f.history ++ [e]) = made f.history := by
    rw [made_append, he, List.append_nil]
  cases h with
  | idle | skip => exact hf
  | subscribe mode type listener => exact hf.subscribe mode type listener
  | unsubscribe | close | amend | spare | begin | deliver => exact hf.of_eq (hone _ rfl) rfl
  | @call number type s rest next _ p payload =>
    have hcalled : (f.happened [.called number s.callee p]).Numbers := hf.of_eq (hone _ rfl) rfl
    unfold release
    split
    · refine hcalled.of_eq ?_ rfl
      show made (_ ++ [_]) = _
      rw [made_append]
      exact List.append_nil _
    · exact hcalled

/-- **No two wrappers are equal.** -/
theorem Reaches.numbers {f : Floor σ} {tasks : List (Task σ)} (reached : Reaches behave depth shared f tasks) :
    f.Numbers := by
  refine reached.preserves (P := fun f _ => f.Numbers) ⟨.nil, nofun⟩ (fun _ _ _ _ hf => hf) ?_ ?_
  · intro f f' _ halike hf
    exact hf.of_eq (congrArg made halike.history) (congrArg Bus.next halike.bus)
  · intro f f' frames frames' _ _ _ hact hf
    exact hf.act hact

/-! ## The headline -/

/-- **What giving back a ticket ends.** Whatever is reached on a bus, by any tasks and callbacks in any order,
take the subscription that was made under some number, and its ticket.

* The bus lists what the register says, also after the ticket is given back.
* Giving it back ends this subscription, if it still stands, and no other, and leaves the others in their order,
  exactly if no equal subscription stands, or this one stands and is the earliest of the equal ones.
* Otherwise it ends another one, the earliest that is equal.
* So it ends its own whenever no equal subscription was ever made, and always if it is for a single delivery.

What has ended never stands again, so that a ticket that ends its own does nothing when it is given back
again. -/
theorem ends_own_iff_earliest {f : Floor σ} {tasks : List (Task σ)}
    (reached : Reaches behave depth shared f tasks) :
    let h := f.history
    (∀ k t, (made h)[k]? = some t →
      f.bus.subscriptions = (register h).map (·.2) ∧
      (f.unsubscribe t).bus.subscriptions = (register (h ++ [.unsubscribed t])).map (·.2) ∧
      (EndsOwn h k t ↔ ∀ j, (j, t) ∈ register h → (k, t) ∈ register h ∧ k ≤ j) ∧
      (¬ EndsOwn h k t → ∃ j before after, j ≠ k ∧ (∀ i, (i, t) ∉ before) ∧
        register h = before ++ (j, t) :: after ∧ register (h ++ [.unsubscribed t]) = before ++ after) ∧
      ((∀ j, (made h)[j]? = some t → j = k) → EndsOwn h k t) ∧
      (∀ n id, t.callee = .once n id → EndsOwn h k t)) ∧
    ∀ before after k, h = before ++ after → k < (made before).length → (∀ t, (k, t) ∉ register before) →
      ∀ t, (k, t) ∉ register h := by
  intro h
  constructor
  · intro k t hmade
    have hiff : EndsOwn h k t ↔ _ := endsOwn_iff_earliest hmade
    have hlists (g : Floor σ) {level : Nat} (hg : g.Kept level) :
        g.bus.subscriptions = (register g.history).map (·.2) := by
      rw [map_register, hg.subscriptions]
    have hunsubscribed : Proceeds depth _ none [] f (f.unsubscribe t) := reached.kept.unsubscribe t
    have hunique (hunique : ∀ j, (made h)[j]? = some t → j = k) : EndsOwn h k t := by
      refine hiff.mpr fun j hj => ?_
      obtain rfl := hunique j (made_of_mem_register hj)
      exact ⟨hj, Nat.le_refl j⟩
    refine ⟨hlists f reached.kept, hlists _ hunsubscribed.kept, hiff, fun hnot => ?_, hunique, fun n id ht => ?_⟩
    · rcases eraseP_register h t with ⟨hnone, -⟩ | ⟨j, before, after, hbefore, hr, hends⟩
      · exact absurd (hiff.mpr fun j hj => absurd hj (hnone j)) hnot
      · refine ⟨j, before, after, ?_, hbefore, hr, (register_concat h _).trans hends⟩
        -- its own would be the earliest
        rintro rfl
        exact hnot (hiff.mpr fun i hi => ⟨by simp [hr], le_of_mem_register hbefore hr hi⟩)
    · have hwrapper : wrapper? t = some n := by simp [wrapper?, ht]
      exact hunique fun j hj => reached.numbers.wrapped.eq hj hmade hwrapper hwrapper
  · intro before after k hh hmade hended
    rw [hh]
    exact not_mem_register_append hmade hended

/-- Two wrappers for one callback, and a callback that is subscribed twice: of the four tickets all end their
own subscription but the last one, which ends the third. -/
theorem last_of_four_ends_third :
    let program : Program Unit := .subscribe .once "saved" 0 fun _ => .subscribe .once "saved" 0 fun _ =>
      .subscribe .event "saved" 1 fun _ => .subscribe .event "saved" 1 fun _ => .done
    let h := (run (publishTo (fun _ _ => .done) 1) program (new ())).1.history
    let t : Ticket := ⟨"saved", .listener 1⟩
    EndsOwn h 0 ⟨"saved", .once 0 0⟩ ∧ EndsOwn h 1 ⟨"saved", .once 1 0⟩ ∧ EndsOwn h 2 t ∧ ¬ EndsOwn h 3 t ∧
      ∃ before after, register h = before ++ (2, t) :: after ∧ register (h ++ [.unsubscribed t]) = before ++ after := by
  intro program h t
  have hreached : Reaches (fun _ _ => .done) 1 () _ _ := Reaches.new.run program
  obtain ⟨hends, -⟩ := ends_own_iff_earliest hreached
  have hstand : ∀ j, (j, t) ∈ register h → j = 2 ∨ j = 3 := by
    have hr : register h = [(0, ⟨"saved", .once 0 0⟩), (1, ⟨"saved", .once 1 0⟩), (2, t), (3, t)] := by rfl
    intro j hj
    rw [hr] at hj
    simpa [t] using hj
  obtain ⟨-, -, -, -, -, hfirst⟩ := hends 0 ⟨"saved", .once 0 0⟩ rfl
  obtain ⟨-, -, -, -, -, hsecond⟩ := hends 1 ⟨"saved", .once 1 0⟩ rfl
  obtain ⟨-, -, hthird, -, -, -⟩ := hends 2 t rfl
  obtain ⟨-, -, hlast, hother, -, -⟩ := hends 3 t rfl
  have hmem : (2, t) ∈ register h := by decide
  have hnot : ¬ EndsOwn h 3 t := fun hown => absurd (hlast.mp hown 2 hmem).2 (by decide)
  refine ⟨hfirst 0 0 rfl, hsecond 1 0 rfl, hthird.mpr fun j hj => ⟨hmem, ?_⟩, hnot, ?_⟩
  · rcases hstand j hj with rfl | rfl <;> decide
  · obtain ⟨j, before, after, hj, -, heq, hended⟩ := hother hnot
    have hstood : (j, t) ∈ before ++ (j, t) :: after := by simp
    rcases hstand j (heq ▸ hstood) with rfl | rfl
    · exact ⟨before, after, heq, hended⟩
    · exact absurd rfl hj

/-- A callback is subscribed to an event, then another one, and then the first again. The ticket of the third
subscription ends the first one. When it was given back, the ticket of the first ends the third. -/
theorem equal_tickets_end_each_other :
    let program (more : Ticket → Program Unit) : Program Unit := .subscribe .event "saved" 0 fun _ =>
      .subscribe .event "saved" 1 fun _ => .subscribe .event "saved" 0 fun t => (t.map more).getD .done
    let history (more : Ticket → Program Unit) : History :=
      (run (publishTo (fun _ _ => .done) 1) (program more) (new ())).1.history
    let t : Ticket := ⟨"saved", .listener 0⟩
    let h := history fun _ => .done
    let h' := history fun t => .unsubscribe t .done
    (made h)[2]? = some t ∧ register (h ++ [.unsubscribed t]) = [(1, ⟨"saved", .listener 1⟩), (2, t)] ∧
      ¬ EndsOwn h 2 t ∧
    (made h')[0]? = some t ∧ (∀ s, (0, s) ∉ register h') ∧
      register (h' ++ [.unsubscribed t]) = [(1, ⟨"saved", .listener 1⟩)] ∧ ¬ EndsOwn h' 0 t := by
  intro program history t h h'
  have hr' : register h' = [(1, ⟨"saved", .listener 1⟩), (2, t)] := by rfl
  refine ⟨rfl, by rfl, ?_, rfl, ?_, by rfl, ?_⟩
  · unfold EndsOwn
    decide
  · simp [hr']
  · unfold EndsOwn
    decide

end Floor

end EditorServices.Bus
