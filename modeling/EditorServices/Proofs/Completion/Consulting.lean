import EditorServices.Completion.Registry

/-!
# `Proofs.Completion.Consulting` — which providers a cursor consults

Two places tell whether completion was invoked by hand. Params for a cursor take a trigger for one only if it
is not empty, while a registry asks all providers only if there is no trigger. They agree on every trigger
but the empty one, which counts as invoked by hand and yet consults the providers of the empty trigger alone.

## Contents
- **Starting.** `started_calls`: the providers that are asked all start, in their order.
- **Consulting.** `Consults`, for a trigger and for none.
- **Kinds of triggers.** `context_at`, what params for a cursor take a trigger for.
- **The headline.** `consulted_by_kind`, with the empty trigger that is left out.
-/

namespace EditorServices.Completion.Registry

/-! ## Starting -/

/-- The providers that start, in their order. -/
def started (calls : List Call) : List String :=
  (calls.filter fun call => call.phase = .start).map (·.id)

theorem started_flatMap {α : Type} (l : List α) (f : α → List Call) :
    started (l.flatMap f) = l.flatMap fun x => started (f x) := by
  unfold started
  rw [List.filter_flatMap, List.map_flatMap]

/-- In the first turn all providers start, in no other one does. -/
theorem started_turnCalls (selected : List Provider) (turn : Nat) :
    started (turnCalls selected turn) = if turn = 0 then selected.map (·.id) else [] := by
  have hone (p : Provider) : started ((if turn = 0 then [⟨p.id, .start⟩] else []) ++
      (if ends p && turnsOf p == turn then [⟨p.id, .stop⟩] else [])) = if turn = 0 then [p.id] else [] := by
    split <;> split <;> rfl
  unfold turnCalls
  rw [started_flatMap]
  simp only [hone]
  split
  · exact List.map_eq_flatMap.symm
  · simp

theorem started_calls (selected : List Provider) : started (calls selected) = selected.map (·.id) := by
  unfold calls
  rw [started_flatMap, List.range_succ_eq_map, List.flatMap_cons, List.flatMap_map]
  simp [started_turnCalls]

/-! ## Consulting -/

/-- Completion consults given providers: they are the ones that are asked, and unless one of them refuses they
all start. -/
structure Consults (r : Registry) (params : Params) (providers : List Provider) : Prop where
  asked : r.selected params = providers
  started : refusal? providers = none → started (r.complete params).1 = providers.map (·.id)

variable {r : Registry} {params : Params} {providers : List Provider}

theorem consults_selected (r : Registry) (params : Params) : r.Consults params (r.selected params) := by
  refine ⟨rfl, fun hnone => ?_⟩
  simp only [complete, hnone]
  split
  · next hempty =>
    rw [List.isEmpty_iff.mp hempty]
    rfl
  · exact started_calls _

theorem consults_iff : r.Consults params providers ↔ r.selected params = providers :=
  ⟨Consults.asked, fun h => h ▸ consults_selected r params⟩

/-- The providers that are registered with a trigger character. -/
def registeredWith (r : Registry) (c : String) : List Provider := r.all.filter fun p => c ∈ p.triggers

theorem selected_of_context {context : Context} (h : params.context = some context) :
    r.selected params = match context.character with
      | none => r.all
      | some c => r.registeredWith c := by
  rw [selected, triggerOf, h]
  show r.providersFor context.character = _
  cases context.character with
  | none => rfl
  | some c => simp [providersFor, registeredWith]

/-! ## Kinds of triggers -/

section
variable {uri text : String} {line character : Int} {trigger : Option String}

/-- Params for a cursor take each trigger but the empty one for a trigger. -/
theorem context_at (h : Params.at uri text line character trigger = .ok params) :
    params.context =
      some ⟨if trigger = none ∨ trigger = some "" then .invoked else .triggerCharacter, trigger⟩ := by
  have hkind : (if trigger.any (fun t => !t.isEmpty) then TriggerKind.triggerCharacter else .invoked) =
      if trigger = none ∨ trigger = some "" then .invoked else .triggerCharacter := by
    cases trigger with
    | none => rfl
    | some t => by_cases ht : t = "" <;> simp [ht]
  unfold Params.at at h
  split at h
  · cases h
  · dsimp only at h
    split at h
    · cases h
    · cases h
      rw [hkind]

/-! ## The headline -/

/-- The providers that are consulted are as the kind of the trigger says: all in their order if completion is
invoked by hand, those that are registered with the character if a character triggered it. -/
structure Agrees (r : Registry) (params : Params) (context : Context) : Prop where
  invoked : context.kind = .invoked → r.Consults params r.all
  triggered : ∀ c, context.kind = .triggerCharacter → context.character = some c →
    r.Consults params (r.registeredWith c)

theorem registeredWith_eq_all_iff {c : String} : r.registeredWith c = r.all ↔ ∀ p ∈ r.all, c ∈ p.triggers := by
  simp [registeredWith, List.filter_eq_self]

/-- **The kind of a trigger and the providers that are consulted agree for every trigger but the empty one.** A
cursor without a trigger, or with the empty one, counts as invoked by hand, and all others as triggered by their
character. Without a trigger all providers are consulted, and else those that are registered with the trigger;
for the empty one these are not all providers unless all are registered with it. -/
theorem consulted_by_kind (r : Registry) (h : Params.at uri text line character trigger = .ok params) :
    ∃ context, params.context = some context ∧ context.character = trigger ∧
      (context.kind = .invoked ↔ trigger = none ∨ trigger = some "") ∧
      (context.kind = .triggerCharacter ↔ ∃ c, trigger = some c ∧ c ≠ "") ∧
      (trigger = none → r.Consults params r.all) ∧
      (∀ c, trigger = some c → r.Consults params (r.registeredWith c)) ∧
      (r.Agrees params context ↔ (trigger = some "" → ∀ p ∈ r.all, "" ∈ p.triggers)) := by
  have hcontext := context_at h
  have hselected : r.selected params = _ := selected_of_context hcontext
  have hall : trigger = none → r.Consults params r.all := by
    rintro rfl
    exact consults_iff.mpr hselected
  have hwith : ∀ c, trigger = some c → r.Consults params (r.registeredWith c) := by
    rintro c rfl
    exact consults_iff.mpr hselected
  have hinvoked : (if trigger = none ∨ trigger = some "" then TriggerKind.invoked else .triggerCharacter) =
      .invoked ↔ trigger = none ∨ trigger = some "" := by
    split <;> simp_all
  have htriggered : (if trigger = none ∨ trigger = some "" then TriggerKind.invoked else .triggerCharacter) =
      .triggerCharacter ↔ ∃ c, trigger = some c ∧ c ≠ "" := by
    cases trigger <;> simp
  refine ⟨_, hcontext, rfl, hinvoked, htriggered, hall, hwith, ?_, ?_⟩
  · -- by hand all are asked, but with the empty trigger those that are registered with it
    intro hagrees hempty
    have hasked := (hagrees.invoked (hinvoked.mpr (Or.inr hempty))).asked
    exact registeredWith_eq_all_iff.mp ((hwith "" hempty).asked.symm.trans hasked)
  · intro hempty
    refine ⟨fun hkind => ?_, fun c _ hc => hwith c hc⟩
    rcases hinvoked.mp hkind with hnone | hsome
    · exact hall hnone
    · exact registeredWith_eq_all_iff.mpr (hempty hsome) ▸ hwith "" hsome

end

/-- Columns for a dot, and keywords that are offered by hand only. -/
def columnsAndKeywords : Registry :=
  (Registry.empty.register ⟨"columns", ["."], .works 0 .nothing⟩).register ⟨"keywords", [], .works 0 .nothing⟩

/-- A dot consults the columns, as the kind of the trigger says. -/
theorem dot_consults_columns :
    ∃ params context, Params.at "file:///q" "a." 0 2 (some ".") = .ok params ∧
      params.context = some context ∧ context.kind = .triggerCharacter ∧
      columnsAndKeywords.Consults params [⟨"columns", ["."], .works 0 .nothing⟩] ∧
      columnsAndKeywords.Agrees params context := by
  have hat : Params.at "file:///q" "a." 0 2 (some ".") =
      .ok ⟨⟨"file:///q"⟩, ⟨0, 2⟩, some ⟨.triggerCharacter, some "."⟩, "a.", "a.", "a."⟩ := by decide +kernel
  obtain ⟨context, hcontext, -, -, htriggered, -, hwith, hagrees⟩ := consulted_by_kind columnsAndKeywords hat
  exact ⟨_, context, hat, hcontext, htriggered.mpr ⟨".", rfl, by decide⟩, hwith "." rfl,
    hagrees.mpr fun h => absurd h (by decide)⟩

/-- With the empty trigger completion counts as invoked by hand, and no provider is consulted. -/
theorem empty_trigger_consults_none :
    ∃ params context, Params.at "file:///q" "a." 0 2 (some "") = .ok params ∧
      params.context = some context ∧ context.kind = .invoked ∧
      columnsAndKeywords.Consults params [] ∧ ¬ columnsAndKeywords.Consults params columnsAndKeywords.all := by
  refine ⟨_, _, rfl, rfl, rfl, consults_iff.mpr rfl, fun hall => ?_⟩
  exact absurd (congrArg List.length hall.asked) (by decide)

end EditorServices.Completion.Registry
