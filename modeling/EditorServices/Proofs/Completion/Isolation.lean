import EditorServices.Proofs.Completion.Merging

/-!
# `Proofs.Completion.Isolation` — providers that fail

A provider that has started and fails is reported, and the others give what they would give without it. That
protection begins when all providers have started: one that refuses to start fails the whole completion, and
nothing is reported.

## Contents
- **Leaving providers out.** `without`, and what is selected then.
- **Failures.** `warnings`, one for each provider that failed, and `offered`, what the others give.
- **Any order.** `merged_endingsIn`, where providers end in any order.
- **Refusals.** The first provider that refuses, and `complete_of_refusal`.
- **The headline.** `isolated_unless_refused`.
-/

namespace EditorServices.Completion.Registry

variable {r : Registry} {params : Params} {chosen : List Provider} {outcomes : Provider → Outcome}

/-! ## Leaving providers out -/

/-- The registry without some of its providers. -/
def without (r : Registry) (drop : Provider → Bool) : Registry := ⟨r.providers.filter fun m => !drop m.2⟩

theorem all_without (r : Registry) (drop : Provider → Bool) :
    (r.without drop).all = r.all.filter fun p => !drop p := by
  simp only [all, without, List.filter_map]
  rfl

/-- The others are selected as before. -/
theorem selected_without (r : Registry) (drop : Provider → Bool) (params : Params) :
    (r.without drop).selected params = (r.selected params).filter fun p => !drop p := by
  unfold selected providersFor
  split
  · exact all_without r drop
  · rw [all_without, List.filter_filter, List.filter_filter]
    simp only [Bool.and_comm]

/-! ## Failures -/

/-- Whether a provider failed, given what came of each. -/
def failed (outcomes : Provider → Outcome) (p : Provider) : Bool := !(outcomes p).isOk

/-- What is logged about providers, in their order. -/
def warnings (chosen : List Provider) (outcomes : Provider → Outcome) : List Log.Entry :=
  chosen.filterMap fun p => warning? p (outcomes p)

/-- What providers give, in their order. -/
def offered (chosen : List Provider) (outcomes : Provider → Outcome) : List Item :=
  chosen.flatMap fun p => given (outcomes p)

theorem warning?_isSome (p : Provider) : (warning? p (outcomes p)).isSome = failed outcomes p := by
  unfold failed warning?
  cases outcomes p <;> rfl

/-- Each provider that failed is logged once, and no other one is. -/
theorem length_warnings (chosen : List Provider) (outcomes : Provider → Outcome) :
    (warnings chosen outcomes).length = chosen.countP (failed outcomes) := by
  unfold warnings
  rw [List.length_filterMap_eq_countP]
  exact congrArg (List.countP · chosen) (funext warning?_isSome)

/-- Nothing is logged about those that did not fail. -/
theorem warnings_kept (chosen : List Provider) (outcomes : Provider → Outcome) :
    warnings (chosen.filter fun p => !failed outcomes p) outcomes = [] := by
  rw [← List.length_eq_zero_iff, length_warnings, List.countP_eq_zero]
  intro p hp
  simpa using (List.mem_filter.mp hp).2

theorem given_of_failed {p : Provider} (h : failed outcomes p = true) : given (outcomes p) = [] := by
  unfold failed at h
  cases houtcome : outcomes p with
  | ok items =>
    rw [houtcome] at h
    cases h
  | error f => rfl

/-- Those that failed give nothing. -/
theorem offered_kept (chosen : List Provider) (outcomes : Provider → Outcome) :
    offered (chosen.filter fun p => !failed outcomes p) outcomes = offered chosen outcomes := by
  induction chosen with
  | nil => rfl
  | cons p rest ih =>
    unfold offered at ih ⊢
    rw [List.filter_cons]
    split
    · rw [List.flatMap_cons, List.flatMap_cons, ih]
    · next hfailed =>
      rw [List.flatMap_cons, given_of_failed (by simpa using hfailed), List.nil_append, ih]

/-! ## Any order -/

/-- Providers end in an order of their places, each with what came of it. -/
def endingsIn (chosen : List Provider) (outcomes : Provider → Outcome) (order : List Nat) : List (Nat × Outcome) :=
  order.map fun place => (place, (chosen[place]?.map outcomes).getD (.ok []))

theorem ended_by_place (chosen : List Provider) (outcomes : Provider → Outcome) :
    (chosen.zipIdx.map fun p => (p.1, (chosen[p.2]?.map outcomes).getD (.ok []))) =
      chosen.map fun p => (p, outcomes p) := by
  refine List.ext_getElem? fun place => ?_
  rw [List.getElem?_map, List.getElem?_map, List.getElem?_zipIdx]
  cases hp : chosen[place]? <;> simp [hp]

/-- **Whatever the order**, the failures are logged and the items of the others are put in one order. -/
theorem merged_endingsIn (outcomes : Provider → Outcome) {order : List Nat}
    (hall : ∀ place < chosen.length, place ∈ order) :
    merged chosen (endingsIn chosen outcomes order) =
      ⟨warnings chosen outcomes, .ok (sorted (offered chosen outcomes))⟩ := by
  rw [endingsIn, merged_ended chosen _ hall, ended_by_place, List.filterMap_map, List.flatMap_map]
  rfl

/-! ## Refusals -/

/-- A provider fails when it is asked to start. -/
def Refuses (p : Provider) : Prop := ∃ message, p.behaviour = .refuses message

theorem refusal?_eq_none_iff : refusal? chosen = none ↔ ∀ p ∈ chosen, ¬ Refuses p := by
  unfold refusal?
  rw [List.findSome?_eq_none_iff]
  refine forall₂_congr fun p _ => ?_
  unfold Refuses
  cases p.behaviour <;> simp

/-- The first provider that refuses decides. -/
theorem refusal?_of_first {before after : List Provider} {p : Provider} {message : String}
    (hbefore : ∀ q ∈ before, ¬ Refuses q) (hp : p.behaviour = .refuses message) :
    refusal? (before ++ p :: after) = some message := by
  have hnone : refusal? before = none := refusal?_eq_none_iff.mpr hbefore
  unfold refusal? at hnone ⊢
  rw [List.findSome?_append, hnone, Option.none_or, List.findSome?_cons, hp]

theorem complete_of_refusal {message : String} (h : refusal? (r.selected params) = some message) :
    r.complete params = ([], .fail (.runtime message)) := by
  simp only [complete, h]

/-- The providers end in the order of their turns, each with what its work comes to. -/
theorem complete_of_started (h : ∀ p ∈ r.selected params, ¬ Refuses p) :
    (r.complete params).2 =
      ⟨warnings (r.selected params) resultOf, .ok (sorted (offered (r.selected params) resultOf))⟩ := by
  obtain ⟨order, hall, hendings⟩ := endings_eq (r.selected params)
  have hmerged := merged_endingsIn resultOf hall
  rw [endingsIn, ← hendings] at hmerged
  simp only [complete, refusal?_eq_none_iff.mpr h, hmerged]

theorem failed_of_refuses {p : Provider} (h : Refuses p) : failed resultOf p = true := by
  obtain ⟨message, hp⟩ := h
  unfold failed resultOf
  rw [hp]
  rfl

/-! ## The headline -/

/-- Failures are isolated: each provider that failed is reported once, in order, and nothing else is; what the run
results in is what it results in without them, where nothing is reported. -/
structure Isolated (chosen : List Provider) (outcomes : Provider → Outcome) (run others : Reporting (List Item)) :
    Prop where
  reported : run.entries = warnings chosen outcomes
  once : run.entries.length = chosen.countP (failed outcomes)
  same : ∃ items, run.result = .ok items ∧ others.result = .ok items
  quiet : others.entries = []

theorem isolated_of_entries {run others : Reporting (List Item)}
    (hrun : run = ⟨warnings chosen outcomes, .ok (sorted (offered chosen outcomes))⟩)
    (hothers : others = ⟨warnings (chosen.filter fun p => !failed outcomes p) outcomes,
      .ok (sorted (offered (chosen.filter fun p => !failed outcomes p) outcomes))⟩) :
    Isolated chosen outcomes run others := by
  rw [warnings_kept, offered_kept] at hothers
  subst hrun hothers
  exact ⟨rfl, length_warnings chosen outcomes, ⟨_, rfl, rfl⟩, rfl⟩

/-- **Failing providers are isolated unless one of them refuses to start.** Whatever comes of the selected
providers, in whatever order they end, and in whatever order they end without those that failed: the failures are
isolated. In the registry itself they are if and only if no selected provider refuses. One that does fails the
completion with its message: nothing is reported, and no provider starts. -/
theorem isolated_unless_refused (r : Registry) (params : Params) :
    let chosen := r.selected params
    (∀ (outcomes : Provider → Outcome) (order order' : List Nat),
      let others := (r.without (failed outcomes)).selected params
      (∀ place < chosen.length, place ∈ order) → (∀ place < others.length, place ∈ order') →
      Isolated chosen outcomes (merged chosen (endingsIn chosen outcomes order))
        (merged others (endingsIn others outcomes order'))) ∧
    (Isolated chosen resultOf (r.complete params).2 ((r.without (failed resultOf)).complete params).2 ↔
      ∀ p ∈ chosen, ¬ Refuses p) ∧
    (∀ before p after message, chosen = before ++ p :: after → (∀ q ∈ before, ¬ Refuses q) →
      p.behaviour = .refuses message → r.complete params = ([], .fail (.runtime message))) := by
  intro chosen
  have hothers (outcomes : Provider → Outcome) :
      (r.without (failed outcomes)).selected params = chosen.filter fun p => !failed outcomes p :=
    selected_without r _ params
  refine ⟨?_, ⟨?_, ?_⟩, ?_⟩
  · intro outcomes order order' others hall hall'
    exact isolated_of_entries (merged_endingsIn outcomes hall) (hothers outcomes ▸ merged_endingsIn outcomes hall')
  · -- a refusal would leave no items
    intro hisolated
    obtain ⟨items, hitems, -⟩ := hisolated.same
    rw [← refusal?_eq_none_iff, Option.eq_none_iff_forall_ne_some]
    intro message hrefusal
    rw [complete_of_refusal hrefusal] at hitems
    cases hitems
  · intro hstart
    -- those that refuse have failed, so that none of the others does
    have hothers_start : ∀ p ∈ (r.without (failed resultOf)).selected params, ¬ Refuses p := by
      intro p hp hrefuses
      rw [hothers, List.mem_filter, failed_of_refuses hrefuses] at hp
      exact absurd hp.2 (by decide)
    exact isolated_of_entries (complete_of_started hstart) (hothers resultOf ▸ complete_of_started hothers_start)
  · intro before p after message hchosen hbefore hp
    have hrefusal : refusal? chosen = some message := by
      rw [hchosen]
      exact refusal?_of_first hbefore hp
    exact complete_of_refusal hrefusal

/-- The broken one of three providers is reported, and the others give the same items without it, as they end in
their turns or in another order. -/
theorem broken_of_three_isolated :
    let params : Params := ⟨⟨"file:///q"⟩, ⟨0, 0⟩, none, "", "", ""⟩
    let chosen := threeProviders.selected params
    let others := (threeProviders.without (failed resultOf)).selected params
    warnings chosen resultOf = [⟨.warn, "lsp.completion", "completion provider failed",
      [("id", .str "broken"), ("error", .str (Failure.runtime "provider crashed").described)]⟩] ∧
    Isolated chosen resultOf (merged chosen (endingsIn chosen resultOf [2, 1, 0]))
      (merged others (endingsIn others resultOf [1, 0])) ∧
    Isolated chosen resultOf (threeProviders.complete params).2
      ((threeProviders.without (failed resultOf)).complete params).2 := by
  intro params chosen others
  have hall : ∀ place < chosen.length, place ∈ [2, 1, 0] := by decide +kernel
  have hall' : ∀ place < others.length, place ∈ [1, 0] := by decide +kernel
  have hstart : ∀ p ∈ chosen, ¬ Refuses p := refusal?_eq_none_iff.mp (by decide +kernel)
  obtain ⟨hany, hown, -⟩ := isolated_unless_refused threeProviders params
  exact ⟨rfl, hany resultOf [2, 1, 0] [1, 0] hall hall', hown.mpr hstart⟩

/-- A provider that refuses to start fails the completion of another one, and is not reported. -/
theorem refusing_provider_fails_all :
    let params : Params := ⟨⟨"file:///q"⟩, ⟨0, 0⟩, none, "", "", ""⟩
    let columns : Provider := ⟨"columns", ["."], .works 0 (.items [.obj [("label", .str "name")]])⟩
    let both := (Registry.empty.register columns).register ⟨"broken", ["."], .refuses "boom"⟩
    both.complete params = ([], .fail (.runtime "boom")) ∧
    ∃ items, ((both.without (failed resultOf)).complete params).2.result = .ok items ∧
      items.map Item.label = ["name"] :=
  ⟨rfl, _, rfl, by decide +kernel⟩

end EditorServices.Completion.Registry
