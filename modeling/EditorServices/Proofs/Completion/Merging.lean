import EditorServices.Completion.Registry

/-!
# `Proofs.Completion.Merging` — the items of all providers in one order

Providers work side by side and end in any order, but what comes of each is noted at its place, so that the
items are read off in the order of the providers. They are then sorted by a key that is no full order on items,
so that the sort has to be stable.

## Contents
- **Keys.** `SortKey.le_iff`: unranked items come last, then priorities count, then labels.
- **Sorting.** What a sort keeps: `perm_sorted`, `pairwise_sorted` and `filter_sorted`; together they leave one
  result, `OneOrder.unique`.
- **Gathering.** `noteAll_start`: the order in which providers end leaves no trace.
- **Turns.** `endings_eq`: in their turns, all of them end.
- **The headline.** `items_of_all_in_order`.
-/

namespace EditorServices.Completion.Registry

/-! ## Keys -/

namespace SortKey

variable {a b c : SortKey}

theorem le_iff : a.le b = true ↔
    (a.unranked = false ∧ b.unranked = true) ∨
      (a.unranked = b.unranked ∧
        (a.priority < b.priority ∨ (a.priority = b.priority ∧ a.label ≤ b.label))) := by
  unfold SortKey.le
  by_cases hranked : a.unranked = b.unranked
  · rw [if_neg (fun h => h hranked), hranked]
    by_cases hpriority : a.priority = b.priority
    · rw [if_neg (fun h => h hpriority), hpriority, decide_eq_true_iff, String.not_lt]
      simp
    · rw [if_pos hpriority, decide_eq_true_iff]
      simp [hpriority]
  · rw [if_pos hranked]
    cases ha : a.unranked <;> cases hb : b.unranked <;> simp_all

theorem le_refl (a : SortKey) : a.le a = true :=
  le_iff.mpr (Or.inr ⟨rfl, Or.inr ⟨rfl, String.le_refl _⟩⟩)

theorem le_trans (hab : a.le b = true) (hbc : b.le c = true) : a.le c = true := by
  rw [le_iff] at hab hbc ⊢
  rcases hab with ⟨ha, hb⟩ | ⟨hab, hlt⟩
  · -- an unranked key is below unranked keys only
    rcases hbc with ⟨hb', -⟩ | ⟨hbc, -⟩
    · rw [hb] at hb'
      cases hb'
    · exact Or.inl ⟨ha, hbc ▸ hb⟩
  · rcases hbc with ⟨hb, hc⟩ | ⟨hbc, hlt'⟩
    · exact Or.inl ⟨hab.trans hb, hc⟩
    · refine Or.inr ⟨hab.trans hbc, ?_⟩
      rcases hlt with hlt | ⟨heq, hle⟩
      · rcases hlt' with hlt' | ⟨heq', -⟩ <;> exact Or.inl (by omega)
      · rcases hlt' with hlt' | ⟨heq', hle'⟩
        · exact Or.inl (by omega)
        · exact Or.inr ⟨heq.trans heq', String.le_trans hle hle'⟩

theorem le_total (a b : SortKey) : a.le b = true ∨ b.le a = true := by
  rw [le_iff, le_iff]
  by_cases hranked : a.unranked = b.unranked
  · rcases Int.lt_trichotomy a.priority b.priority with hlt | heq | hgt
    · exact Or.inl (Or.inr ⟨hranked, Or.inl hlt⟩)
    · rcases String.le_total a.label b.label with hle | hle
      · exact Or.inl (Or.inr ⟨hranked, Or.inr ⟨heq, hle⟩⟩)
      · exact Or.inr (Or.inr ⟨hranked.symm, Or.inr ⟨heq.symm, hle⟩⟩)
    · exact Or.inr (Or.inr ⟨hranked.symm, Or.inl hgt⟩)
  · cases ha : a.unranked <;> cases hb : b.unranked <;> simp_all

theorem le_antisymm (hab : a.le b = true) (hba : b.le a = true) : a = b := by
  rw [le_iff] at hab hba
  obtain ⟨ua, pa, la⟩ := a
  obtain ⟨ub, pb, lb⟩ := b
  simp only at hab hba
  rcases hab with ⟨ha, hb⟩ | ⟨hranked, hab⟩
  · -- the other way round the ranks do not fit
    rcases hba with ⟨hb', -⟩ | ⟨heq, -⟩ <;> simp_all
  · have hba' := hba.resolve_left fun h => by simp_all
    have hpriority : pa = pb := by omega
    have hle : la ≤ lb := (hab.resolve_left (by omega)).2
    have hge : lb ≤ la := (hba'.2.resolve_left (by omega)).2
    rw [hranked, hpriority, String.le_antisymm hle hge]

/-- A key without a priority comes before no key with one. -/
theorem unranked_of_le (h : a.le b = true) (ha : a.unranked = true) : b.unranked = true := by
  rcases le_iff.mp h with ⟨-, hb⟩ | ⟨heq, -⟩
  · exact hb
  · exact heq ▸ ha

end SortKey

/-! ## Sorting -/

variable {items : List Item}

theorem perm_sorted (items : List Item) : (sorted items).Perm items := List.mergeSort_perm ..

/-- The keys of items are compared transitively. -/
theorem keys_trans (a b c : Item) (hab : (sortKey a).le (sortKey b) = true)
    (hbc : (sortKey b).le (sortKey c) = true) : (sortKey a).le (sortKey c) = true :=
  SortKey.le_trans hab hbc

/-- Of two items one has a key that comes first. -/
theorem keys_total (a b : Item) : ((sortKey a).le (sortKey b) || (sortKey b).le (sortKey a)) = true := by
  rw [Bool.or_eq_true]
  exact SortKey.le_total _ _

theorem pairwise_sorted (items : List Item) :
    (sorted items).Pairwise fun a b => (sortKey a).le (sortKey b) = true :=
  List.pairwise_mergeSort keys_trans keys_total items

/-- Items of one key stay in their order. -/
theorem filter_sorted (items : List Item) (key : SortKey) :
    (sorted items).filter (fun i => decide (sortKey i = key)) =
      items.filter fun i => decide (sortKey i = key) := by
  -- they are in order as they are, so that the sort keeps them as a sublist; and none is new
  have hinorder : (items.filter fun i => decide (sortKey i = key)).Pairwise
      fun a b => (sortKey a).le (sortKey b) = true := by
    apply List.pairwise_of_forall_mem_list
    intro a ha b hb
    simp only [List.mem_filter, decide_eq_true_eq] at ha hb
    rw [ha.2, hb.2]
    exact SortKey.le_refl key
  have hsublist : (items.filter fun i => decide (sortKey i = key)).Sublist (sorted items) :=
    List.sublist_mergeSort keys_trans keys_total hinorder List.filter_sublist
  have hkept := hsublist.filter fun i => decide (sortKey i = key)
  simp only [List.filter_filter, Bool.and_self] at hkept
  have hlength := ((perm_sorted items).filter fun i => decide (sortKey i = key)).length_eq
  exact (hkept.eq_of_length hlength.symm).symm

/-- Items in one order: those that were offered, none lost and none twice, by their keys, and as they were
offered where the keys are equal. -/
structure OneOrder (offered items : List Item) : Prop where
  perm : items.Perm offered
  byKey : items.Pairwise fun a b => (sortKey a).le (sortKey b) = true
  unrankedLast : items.Pairwise fun a b => a.sortPriority = none → b.sortPriority = none
  stable : ∀ key, items.filter (fun i => decide (sortKey i = key)) =
    offered.filter fun i => decide (sortKey i = key)

/-- What comes first of items in order has the least key. -/
theorem le_of_first {first i : Item} {rest : List Item}
    (horder : (first :: rest).Pairwise fun a b => (sortKey a).le (sortKey b) = true)
    (hi : i ∈ first :: rest) : (sortKey first).le (sortKey i) = true := by
  rcases List.mem_cons.mp hi with rfl | hi
  · exact SortKey.le_refl _
  · exact (List.pairwise_cons.mp horder).1 i hi

theorem mem_iff_of_filters {items items' : List Item}
    (hfilters : ∀ key, items.filter (fun i => decide (sortKey i = key)) =
      items'.filter fun i => decide (sortKey i = key)) (i : Item) : i ∈ items ↔ i ∈ items' := by
  have hi : i ∈ items.filter (fun j => decide (sortKey j = sortKey i)) ↔
      i ∈ items'.filter fun j => decide (sortKey j = sortKey i) := by rw [hfilters]
  simpa using hi

/-- Items in order are the same if for each key they are. -/
theorem eq_of_filters {items items' : List Item}
    (horder : items.Pairwise fun a b => (sortKey a).le (sortKey b) = true)
    (horder' : items'.Pairwise fun a b => (sortKey a).le (sortKey b) = true)
    (hfilters : ∀ key, items.filter (fun i => decide (sortKey i = key)) =
      items'.filter fun i => decide (sortKey i = key)) : items = items' := by
  have hmem := mem_iff_of_filters hfilters
  induction items generalizing items' with
  | nil =>
    symm
    apply List.eq_nil_iff_forall_not_mem.mpr
    intro i hi
    simpa using (hmem i).mpr hi
  | cons first rest ih =>
    cases items' with
    | nil => simpa using (hmem first).mp List.mem_cons_self
    | cons first' rest' =>
      -- both begin with an item of the least key, and so with the first item of that key
      have hkey : sortKey first = sortKey first' :=
        SortKey.le_antisymm (le_of_first horder ((hmem first').mpr List.mem_cons_self))
          (le_of_first horder' ((hmem first).mp List.mem_cons_self))
      have hfirst : first = first' := by
        have hheads := hfilters (sortKey first)
        rw [List.filter_cons_of_pos (by simp), List.filter_cons_of_pos (by simp [hkey])] at hheads
        exact (List.cons.inj hheads).1
      subst hfirst
      have hrests : ∀ key, rest.filter (fun i => decide (sortKey i = key)) =
          rest'.filter fun i => decide (sortKey i = key) := by
        intro key
        have hboth := hfilters key
        simp only [List.filter_cons] at hboth
        split at hboth
        · exact (List.cons.inj hboth).2
        · exact hboth
      rw [ih (List.pairwise_cons.mp horder).2 (List.pairwise_cons.mp horder').2 hrests
        (mem_iff_of_filters hrests)]

/-- There is no other order of that kind. -/
theorem OneOrder.unique {offered items items' : List Item} (h : OneOrder offered items)
    (h' : OneOrder offered items') : items = items' :=
  eq_of_filters h.byKey h'.byKey fun key => (h.stable key).trans (h'.stable key).symm

theorem oneOrder_sorted (items : List Item) : OneOrder items (sorted items) where
  perm := perm_sorted items
  byKey := pairwise_sorted items
  unrankedLast := (pairwise_sorted items).imp fun hle ha =>
    Option.isNone_iff_eq_none.mp (SortKey.unranked_of_le hle (Option.isNone_iff_eq_none.mpr ha))
  stable := filter_sorted items

/-! ## Gathering -/

variable {selected : List Provider} {outcomes : Nat → Outcome} {order : List Nat}

/-- At each place stands what was noted there first. -/
theorem getElem?_noteAll (g : Gathering) (endings : List (Nat × Outcome)) (place : Nat) :
    (g.noteAll endings)[place]? = g[place]?.map fun p => (p.1, p.2.or (endings.lookup place)) := by
  induction endings generalizing g with
  | nil =>
    simp only [List.lookup_nil, Option.or_none, Gathering.noteAll, List.foldl_nil]
    cases g[place]? <;> rfl
  | cons ending rest ih =>
    obtain ⟨here, outcome⟩ := ending
    show ((g.note (here, outcome)).noteAll rest)[place]? = _
    rw [ih, Gathering.note, List.getElem?_modify, List.lookup_cons]
    cases g[place]? with
    | none => rfl
    | some p =>
      by_cases hplace : here = place
      · subst hplace
        simp
      · have hbeq : (place == here) = false := by simpa using Ne.symm hplace
        simp [hplace, hbeq]

theorem lookup_endings (outcomes : Nat → Outcome) {order : List Nat} {place : Nat} (h : place ∈ order) :
    (order.map fun place => (place, outcomes place)).lookup place = some (outcomes place) := by
  induction order with
  | nil => exact absurd h List.not_mem_nil
  | cons here rest ih =>
    rw [List.map_cons, List.lookup_cons]
    by_cases hplace : place = here
    · rw [hplace, beq_self_eq_true]
    · rw [beq_eq_false_iff_ne.mpr hplace]
      exact ih ((List.mem_cons.mp h).resolve_left hplace)

/-- **The order in which providers end leaves no trace**: when all have ended, each has its outcome. -/
theorem noteAll_start (selected : List Provider) (outcomes : Nat → Outcome) {order : List Nat}
    (hall : ∀ place < selected.length, place ∈ order) :
    (Gathering.start selected).noteAll (order.map fun place => (place, outcomes place)) =
      selected.zipIdx.map fun p => (p.1, some (outcomes p.2)) := by
  refine List.ext_getElem? fun place => ?_
  rw [getElem?_noteAll, Gathering.start, List.getElem?_map, List.getElem?_map, List.getElem?_zipIdx]
  cases hp : selected[place]? with
  | none => rfl
  | some p =>
    obtain ⟨hlt, -⟩ := List.getElem?_eq_some_iff.mp hp
    simp [lookup_endings outcomes (hall place hlt)]

/-- What a provider gives in the end: its items, or none if it failed. -/
def given (outcome : Outcome) : List Item := outcome.toOption.getD []

/-- What is logged about a provider: one entry if it failed. -/
def warning? (p : Provider) : Outcome → Option Log.Entry
  | .ok _ => none
  | .error f => some ⟨.warn, service, "completion provider failed",
      [("id", .str p.id), ("error", .str f.described)]⟩

theorem itemsOf_outcome (p : Provider) (outcome : Outcome) :
    itemsOf p (some outcome) = ⟨(warning? p outcome).toList, .ok (given outcome)⟩ := by
  cases outcome <;> rfl

/-- A failure of a provider is logged and is no failure of the whole. -/
theorem gather_ended (ended : List (Provider × Outcome)) :
    gather (ended.map fun p => (p.1, some p.2)) =
      ⟨ended.filterMap fun p => warning? p.1 p.2, .ok (ended.flatMap fun p => given p.2)⟩ := by
  induction ended with
  | nil => rfl
  | cons p rest ih =>
    have hentries : (p :: rest).filterMap (fun p => warning? p.1 p.2) =
        (warning? p.1 p.2).toList ++ rest.filterMap fun p => warning? p.1 p.2 := by
      cases hp : warning? p.1 p.2 <;> simp [hp]
    rw [List.map_cons, gather, itemsOf_outcome, ih, ok_bind, ok_bind, hentries]
    show Reporting.mk (_ ++ (_ ++ [])) _ = _
    rw [List.append_nil]
    rfl

/-- **Providers that all ended**, in whatever order, are logged if they failed, and else gave their items in one
order. -/
theorem merged_ended (selected : List Provider) (outcomes : Nat → Outcome) {order : List Nat}
    (hall : ∀ place < selected.length, place ∈ order) :
    let ended := selected.zipIdx.map fun p => (p.1, outcomes p.2)
    merged selected (order.map fun place => (place, outcomes place)) =
      ⟨ended.filterMap fun p => warning? p.1 p.2, .ok (sorted (ended.flatMap fun p => given p.2))⟩ := by
  intro ended
  have hgathered : (Gathering.start selected).noteAll (order.map fun place => (place, outcomes place)) =
      ended.map fun p => (p.1, some p.2) := by
    rw [noteAll_start selected outcomes hall, List.map_map]
    rfl
  unfold merged
  rw [hgathered, gather_ended, ok_bind]
  show Reporting.mk (_ ++ []) _ = _
  rw [List.append_nil]
  rfl

theorem result_merged (selected : List Provider) (outcomes : Nat → Outcome) {order : List Nat}
    (hall : ∀ place < selected.length, place ∈ order) :
    (merged selected (order.map fun place => (place, outcomes place))).result =
      .ok (sorted ((List.range selected.length).flatMap fun place => given (outcomes place))) := by
  have hplaces : (selected.zipIdx.map fun p => (p.1, outcomes p.2)).flatMap (fun p => given p.2) =
      (List.range selected.length).flatMap fun place => given (outcomes place) := by
    rw [List.flatMap_map, ← List.flatMap_map Prod.snd fun place => given (outcomes place), List.zipIdx_map_snd,
      List.range_eq_range']
  rw [merged_ended selected outcomes hall, hplaces]

/-! ## Turns -/

theorem turnsOf_le_lastTurn {selected : List Provider} {p : Provider} (hp : p ∈ selected) :
    turnsOf p ≤ lastTurn selected :=
  List.le_max?_getD_of_mem (List.mem_map_of_mem hp)

/-- The selected providers all end, each with what comes of it. -/
theorem endings_eq (selected : List Provider) :
    ∃ order : List Nat, (∀ place < selected.length, place ∈ order) ∧
      endings selected = order.map fun place => (place, (selected[place]?.map resultOf).getD (.ok [])) := by
  let placesIn (turn : Nat) : List Nat :=
    (selected.zipIdx.filter fun p => turnsOf p.1 == turn).map Prod.snd
  refine ⟨(List.range (lastTurn selected + 1)).flatMap placesIn, ?_, ?_⟩
  · intro place hplace
    have hp : selected[place] ∈ selected := List.getElem_mem hplace
    have hturn := turnsOf_le_lastTurn hp
    simp only [List.mem_flatMap, List.mem_range, placesIn, List.mem_map, List.mem_filter]
    refine ⟨turnsOf selected[place], by omega, (selected[place], place), ⟨?_, beq_self_eq_true _⟩, rfl⟩
    exact List.mem_zipIdx_iff_getElem?.mpr (List.getElem?_eq_getElem hplace)
  · simp only [endings, List.map_flatMap, placesIn]
    refine congrArg (List.flatMap · _) (funext fun turn => ?_)
    simp only [turnEndings, List.map_map]
    apply List.map_congr_left
    rintro ⟨p, place⟩ hp
    have hget : selected[place]? = some p := List.mem_zipIdx_iff_getElem?.mp (List.mem_filter.mp hp).1
    simp [hget]

/-- What all gave, read by their places or from the providers themselves. -/
theorem given_by_place (selected : List Provider) :
    ((List.range selected.length).flatMap fun place =>
        given ((selected[place]?.map resultOf).getD (.ok []))) =
      selected.flatMap fun p => given (resultOf p) := by
  induction selected with
  | nil => rfl
  | cons p rest ih => simp [List.range_succ_eq_map, List.flatMap_map, ← ih]

/-! ## The headline -/

/-- **All items in one order.** The selected providers are some of those of the registry, in its order. In
whatever order they end, and whatever comes of each, all of them end, and the items of those that did not fail
are given in one order: as a permutation of what was offered, by priority and label with the unranked ones
last, and stable. The registry itself lets them end in the order of their turns. -/
theorem items_of_all_in_order (r : Registry) (params : Params) :
    let chosen := r.selected params
    chosen.Sublist r.all ∧
    (∀ (outcomes : Nat → Outcome) (order : List Nat), (∀ place < chosen.length, place ∈ order) →
      let endings := order.map fun place => (place, outcomes place)
      ((Gathering.start chosen).noteAll endings).isOver = true ∧
      ∃ items, (merged chosen endings).result = .ok items ∧
        OneOrder ((List.range chosen.length).flatMap fun place => given (outcomes place)) items) ∧
    (refusal? chosen = none →
      ∃ items, (r.complete params).2.result = .ok items ∧
        OneOrder (chosen.flatMap fun p => given (resultOf p)) items) := by
  intro chosen
  refine ⟨?_, ?_, ?_⟩
  · show (r.providersFor (triggerOf params)).Sublist r.all
    unfold providersFor
    split
    · exact List.Sublist.refl _
    · exact List.filter_sublist
  · intro outcomes order hall endings
    refine ⟨?_, _, result_merged chosen outcomes hall, oneOrder_sorted _⟩
    rw [noteAll_start chosen outcomes hall]
    simp [Gathering.isOver]
  · intro hnone
    obtain ⟨order, hall, hendings⟩ := endings_eq chosen
    have hcomplete : (r.complete params).2 = merged chosen (endings chosen) := by
      simp only [complete, chosen, hnone]
    rw [hcomplete, hendings, result_merged chosen _ hall, given_by_place]
    exact ⟨_, rfl, oneOrder_sorted _⟩

/-- Columns without a priority, a provider that fails, and keywords with a priority, which end first. -/
def threeProviders : Registry :=
  let columns := Ending.items [named "name" .null, named "Email" .null]
  let keywords := Ending.items [named "WHERE" (.int 0), named "AND" (.int 0)]
  ((Registry.empty.register ⟨"columns", ["."], .works 3 columns⟩).register
    ⟨"broken", ["."], .works 1 (.fails "provider crashed")⟩).register
      ⟨"keywords", ["."], .works 0 keywords⟩
where
  /-- An item with a label and a priority. -/
  named (label : String) (priority : Json) : Json :=
    .obj [("label", .str label), ("sort_priority", priority)]

/-- Three providers that end in the order of their turns or the other way round give the same items. -/
theorem three_providers_end_both_ways :
    let params : Params := ⟨⟨"file:///q"⟩, ⟨0, 0⟩, none, "", "", ""⟩
    let chosen := threeProviders.selected params
    let outcomes (place : Nat) : Outcome := (chosen[place]?.map resultOf).getD (.ok [])
    let offered := (List.range chosen.length).flatMap fun place => given (outcomes place)
    offered.map Item.label = ["name", "Email", "WHERE", "AND"] ∧
    (∀ place < chosen.length, place ∈ [0, 1, 2]) ∧ refusal? chosen = none ∧
    ∃ items, (merged chosen ([0, 1, 2].map fun place => (place, outcomes place))).result = .ok items ∧
      (threeProviders.complete params).2.result = .ok items ∧ OneOrder offered items := by
  intro params chosen outcomes offered
  have hall : ∀ place < chosen.length, place ∈ [0, 1, 2] := by decide +kernel
  have hnone : refusal? chosen = none := by decide +kernel
  obtain ⟨-, hany, hown⟩ := items_of_all_in_order threeProviders params
  obtain ⟨-, items, hitems, horder⟩ := hany outcomes [0, 1, 2] hall
  obtain ⟨items', hitems', horder'⟩ := hown hnone
  rw [← given_by_place] at horder'
  have hsame : items' = items := horder'.unique horder
  subst hsame
  exact ⟨by decide +kernel, hall, hnone, items', hitems, hitems', horder⟩

end EditorServices.Completion.Registry
