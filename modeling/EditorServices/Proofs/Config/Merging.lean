import EditorServices.Config.Merge
import Mathlib.Data.List.Nodup
import Mathlib.Data.List.Induction

/-!
# `Proofs.Config.Merging` — what an object holds after others were laid over it

Merging is recursive and not associative: a plain value that is laid over an object replaces it, and so
does an object over a plain value. What can be found in the end has a description without recursion all the
same, path by path. A value below some names is that of the last object that says anything about the path,
where an object *settles* a path if it holds something there, or something that is no object above it.

One law about a single merge, `at?_merge_iff`, carries everything; it follows the path from its first name.

## Contents
- **Look-ups.** Members by their names.
- **Paths.** `Json.at?`, and `Json.Settles`, which can be decided.
- **Distinct names.** `Json.Distinct`, what is laid over another object has to be.
- **One merge.** `get?_merge`, `at?_merge_iff`, and that nothing else is held.
- **Any number.** `mergeAll`, `LastHolds`, `at?_mergeAll_iff`.
-/

namespace EditorServices

/-! ## Look-ups -/

namespace Named

variable {α : Type} {ms : Named α} {name : String} {v : α}

theorem mem_of_get? (h : ms.get? name = some v) : (name, v) ∈ ms := by
  obtain ⟨before, after, rfl, -⟩ := List.lookup_eq_some_iff.mp h
  exact List.mem_append_right _ List.mem_cons_self

theorem get?_eq_none : ms.get? name = none ↔ name ∉ ms.map Prod.fst := by
  unfold get?
  rw [List.lookup_eq_none_iff, List.mem_map]
  constructor
  · rintro hall ⟨p, hp, rfl⟩
    simpa using hall p hp
  · intro hnot p hp
    simpa using fun heq : name = p.1 => hnot ⟨p, hp, heq.symm⟩

/-- The values of distinct names are found under them. -/
theorem get?_of_mem (h : (ms.map Prod.fst).Nodup) (hmem : (name, v) ∈ ms) : ms.get? name = some v := by
  induction ms with
  | nil => cases hmem
  | cons p ms ih =>
    obtain ⟨k, w⟩ := p
    rw [List.map_cons, List.nodup_cons] at h
    unfold get? at ih ⊢
    rw [List.lookup_cons]
    rcases List.mem_cons.mp hmem with heq | hrest
    · cases heq
      rw [beq_self_eq_true]
    · have hne : name ≠ k := fun heq => h.1 (List.mem_map.mpr ⟨(name, v), hrest, heq⟩)
      rw [beq_eq_false_iff_ne.mpr hne]
      exact ih h.2 hrest

end Named

/-! ## Paths -/

namespace Json

/-- What a value holds under names that follow each other. -/
def at? : Json → List String → Option Json
  | j, [] => some j
  | j, name :: path => (j.get? name).bind fun v => v.at? path

/-- A value says something about a path: it holds something there, or what it holds at some place above is
no object. -/
def Settles (j : Json) (path : List String) : Prop :=
  (j.at? path).isSome = true ∨
    ∃ above below v, path = above ++ below ∧ below ≠ [] ∧ j.at? above = some v ∧ v.isObject = false

@[simp] theorem at?_nil (j : Json) : j.at? [] = some j := rfl

@[simp] theorem at?_obj_cons (ms : Members) (name : String) (path : List String) :
    (obj ms).at? (name :: path) = (ms.get? name).bind fun v => v.at? path := rfl

/-- Nothing is held below what is no object. -/
theorem at?_cons_of_plain {j : Json} (h : j.isObject = false) (name : String) (path : List String) :
    j.at? (name :: path) = none := by
  cases j <;> first | rfl | cases h

theorem exists_obj_of_isObject {j : Json} (h : j.isObject = true) : ∃ ms, j = .obj ms := by
  cases j <;> first | exact ⟨_, rfl⟩ | cases h

/-- Two names lead to what an object within holds. -/
theorem at?_pair {ms : Members} {name key : String} {v : Json} :
    (obj ms).at? [name, key] = some v ↔
      ∃ inner : Members, ms.get? name = some (.obj inner) ∧ inner.get? key = some v := by
  rw [at?_obj_cons, Option.bind_eq_some_iff]
  constructor
  · rintro ⟨w, hw, hat⟩
    cases w with
    | obj inner =>
      rw [at?_obj_cons, Option.bind_eq_some_iff] at hat
      obtain ⟨u, hu, hat⟩ := hat
      cases hat
      exact ⟨inner, hw, hu⟩
    | _ => cases hat
  · rintro ⟨inner, hinner, hget⟩
    exact ⟨.obj inner, hinner, by rw [at?_obj_cons, hget]; rfl⟩

theorem isSome_at?_pair {ms : Members} {name key : String} :
    ((obj ms).at? [name, key]).isSome = true ↔
      ∃ inner : Members, ms.get? name = some (.obj inner) ∧ (inner.get? key).isSome = true := by
  simp only [Option.isSome_iff_exists, at?_pair]
  constructor
  · exact fun ⟨v, inner, hinner, hv⟩ => ⟨inner, hinner, v, hv⟩
  · exact fun ⟨inner, hinner, v, hv⟩ => ⟨v, inner, hinner, hv⟩

theorem settles_of_at? {j v : Json} {path : List String} (h : j.at? path = some v) : j.Settles path :=
  .inl (by rw [h]; rfl)

theorem settles_nil (j : Json) : j.Settles [] := .inl rfl

/-- What is no object settles every path. -/
theorem settles_of_plain {j : Json} (h : j.isObject = false) (path : List String) : j.Settles path := by
  cases path with
  | nil => exact j.settles_nil
  | cons name path => exact .inr ⟨[], name :: path, j, rfl, List.cons_ne_nil _ _, rfl, h⟩

/-- An object settles a path if what it holds under the first name settles the rest. -/
theorem settles_obj_cons (ms : Members) (name : String) (path : List String) :
    (obj ms).Settles (name :: path) ↔ ∃ v, ms.get? name = some v ∧ v.Settles path := by
  constructor
  · rintro (hsome | ⟨above, below, w, heq, hbelow, hw, hplain⟩)
    · obtain ⟨w, hw⟩ := Option.isSome_iff_exists.mp hsome
      rw [at?_obj_cons, Option.bind_eq_some_iff] at hw
      obtain ⟨v, hv, hvw⟩ := hw
      exact ⟨v, hv, settles_of_at? hvw⟩
    · cases above with
      | nil =>
        -- above all names stands the object itself
        cases hw
        cases hplain
      | cons first above =>
        obtain ⟨rfl, rfl⟩ := List.cons.inj heq
        rw [at?_obj_cons, Option.bind_eq_some_iff] at hw
        obtain ⟨v, hv, hvw⟩ := hw
        exact ⟨v, hv, .inr ⟨above, below, w, rfl, hbelow, hvw, hplain⟩⟩
  · rintro ⟨v, hv, hsome | ⟨above, below, w, rfl, hbelow, hw, hplain⟩⟩
    · exact .inl (by rw [at?_obj_cons, hv]; exact hsome)
    · refine .inr ⟨name :: above, below, w, rfl, hbelow, ?_, hplain⟩
      rw [at?_obj_cons, hv]
      exact hw

/-- Following a path is enough to tell whether it is settled. -/
instance decidableSettles : (j : Json) → (path : List String) → Decidable (j.Settles path)
  | j, [] => .isTrue j.settles_nil
  | .obj ms, name :: path =>
    match h : Named.get? ms name with
    | none => .isFalse (by rw [settles_obj_cons]; simp [h])
    | some v =>
      have : Decidable (v.Settles path) := decidableSettles v path
      decidable_of_iff (v.Settles path) (by rw [settles_obj_cons]; simp [h])
  | .null, name :: path => .isTrue (settles_of_plain rfl _)
  | .bool _, name :: path => .isTrue (settles_of_plain rfl _)
  | .int _, name :: path => .isTrue (settles_of_plain rfl _)
  | .float _, name :: path => .isTrue (settles_of_plain rfl _)
  | .str _, name :: path => .isTrue (settles_of_plain rfl _)
  | .arr _, name :: path => .isTrue (settles_of_plain rfl _)

/-! ## Distinct names -/

/-- No object that names lead to has a name twice. -/
inductive Distinct : Json → Prop where
  | plain {v : Json} (plain : v.isObject = false) : Distinct v
  | obj {ms : List (String × Json)} (names : (ms.map Prod.fst).Nodup)
      (values : ∀ p ∈ ms, Distinct p.2) : Distinct (.obj ms)

theorem Distinct.names {ms : Members} (h : (Json.obj ms).Distinct) : (ms.map Prod.fst).Nodup := by
  cases h with
  | plain hplain => cases hplain
  | obj names _ => exact names

theorem Distinct.get? {ms : Members} (h : (Json.obj ms).Distinct) {name : String} {v : Json}
    (hv : ms.get? name = some v) : v.Distinct := by
  cases h with
  | plain hplain => cases hplain
  | obj _ values => exact values (name, v) (Named.mem_of_get? hv)

end Json

namespace Config

open Json

/-! ## One merge -/

/-- What is no object takes the place of what it is laid over. -/
theorem mergeValue_of_plain (old : Option Json) {v : Json} (h : v.isObject = false) :
    mergeValue old v = v := by
  cases v <;> first | rfl | cases h

/-- An object takes the place of what is no object. -/
theorem mergeValue_obj_of_plain {old : Json} (h : old.isObject = false) (override : Members) :
    mergeValue (some old) (.obj override) = .obj override := by
  cases old <;> first | rfl | cases h

/-- **A name of the override has its value, laid over the one that stood there**, and any other keeps
its own. -/
theorem get?_merge (base : Members) {override : Members} (h : (override.map Prod.fst).Nodup) (name : String) :
    (merge base override).get? name =
      match override.get? name with
      | none => base.get? name
      | some v => some (mergeValue (base.get? name) v) := by
  induction override generalizing base with
  | nil => rfl
  | cons p rest ih =>
    obtain ⟨k, w⟩ := p
    rw [List.map_cons, List.nodup_cons] at h
    rw [merge, ih _ h.2]
    by_cases hk : name = k
    · subst hk
      rw [Named.get?_eq_none.mpr h.1, Named.get?_put_self]
      simp [Named.get?]
    · have hskip : (name == k) = false := by simpa using hk
      rw [Named.get?_put_of_ne _ _ hk]
      simp [Named.get?, List.lookup_cons, hskip]

/-- **Where a merge holds what is no object**: the override holds it, or the base does and the override says
nothing about the path. -/
theorem at?_merge_iff (base : Members) {override : Members} (h : (obj override).Distinct) {v : Json}
    (hv : v.isObject = false) (path : List String) :
    (obj (merge base override)).at? path = some v ↔
      (obj override).at? path = some v ∨
        (obj base).at? path = some v ∧ ¬ (obj override).Settles path := by
  induction path generalizing base override with
  | nil =>
    -- without a name an object is found, whichever of them is asked
    have hnone : ∀ ms : Members, (obj ms).at? [] ≠ some v := by
      rintro ms ⟨⟩
      cases hv
    exact ⟨fun hm => absurd hm (hnone _), fun ho => absurd (ho.resolve_right fun hb => hnone _ hb.1) (hnone _)⟩
  | cons name path ih =>
    rw [at?_obj_cons, at?_obj_cons, at?_obj_cons, settles_obj_cons, get?_merge base h.names]
    cases ho : override.get? name with
    | none => simp
    | some w =>
      simp only [Option.bind_some, Option.some.injEq, exists_eq_left']
      cases hw : w.isObject with
      | false =>
        rw [mergeValue_of_plain _ hw]
        exact ⟨.inl, fun hor => hor.resolve_right fun hb => hb.2 (settles_of_plain hw path)⟩
      | true =>
        obtain ⟨inner, rfl⟩ := exists_obj_of_isObject hw
        cases hb : base.get? name with
        | none => simp [mergeValue]
        | some u =>
          rw [Option.bind_some]
          cases hu : u.isObject with
          | true =>
            obtain ⟨below, rfl⟩ := exists_obj_of_isObject hu
            rw [mergeValue]
            exact ih below (h.get? ho)
          | false =>
            rw [mergeValue_obj_of_plain hu]
            refine ⟨.inl, fun hor => hor.resolve_right fun ⟨hbelow, hsettles⟩ => ?_⟩
            cases path with
            | nil => exact hsettles (settles_nil _)
            | cons next path =>
              rw [at?_cons_of_plain hu] at hbelow
              cases hbelow

/-- A merge holds nothing where neither of its two objects does. -/
theorem isSome_at?_of_merge (base : Members) {override : Members} (h : (obj override).Distinct)
    {path : List String} (hsome : ((obj (merge base override)).at? path).isSome = true) :
    ((obj base).at? path).isSome = true ∨ ((obj override).at? path).isSome = true := by
  induction path generalizing base override with
  | nil => exact .inr rfl
  | cons name path ih =>
    rw [at?_obj_cons, get?_merge base h.names] at hsome
    rw [at?_obj_cons, at?_obj_cons]
    cases ho : override.get? name with
    | none =>
      rw [ho] at hsome
      exact .inl hsome
    | some w =>
      rw [ho] at hsome
      simp only [Option.bind_some] at hsome ⊢
      cases hw : w.isObject with
      | false =>
        rw [mergeValue_of_plain _ hw] at hsome
        exact .inr hsome
      | true =>
        obtain ⟨inner, rfl⟩ := exists_obj_of_isObject hw
        cases hb : base.get? name with
        | none =>
          rw [hb] at hsome
          exact .inr hsome
        | some u =>
          rw [hb] at hsome
          cases hu : u.isObject with
          | true =>
            obtain ⟨below, rfl⟩ := exists_obj_of_isObject hu
            rw [mergeValue] at hsome
            exact ih below (h.get? ho) hsome
          | false =>
            rw [mergeValue_obj_of_plain hu] at hsome
            exact .inr hsome

/-! ## Any number -/

/-- Objects laid over each other in order, the first one over nothing. -/
def mergeAll (objects : List Members) : Members := objects.foldl merge []

theorem mergeAll_concat (objects : List Members) (ms : Members) :
    mergeAll (objects ++ [ms]) = merge (mergeAll objects) ms := by
  simp [mergeAll]

/-- The last of some objects that says anything about a path holds a value there. -/
def LastHolds (objects : List Members) (path : List String) (v : Json) : Prop :=
  ∃ before ms after, objects = before ++ ms :: after ∧ (obj ms).at? path = some v ∧
    ∀ later ∈ after, ¬ (obj later).Settles path

/-- A further object is the last that says anything, or says nothing. -/
theorem lastHolds_concat (objects : List Members) (ms : Members) (path : List String) (v : Json) :
    LastHolds (objects ++ [ms]) path v ↔
      (obj ms).at? path = some v ∨ LastHolds objects path v ∧ ¬ (obj ms).Settles path := by
  constructor
  · rintro ⟨before, here, after, heq, hat, hafter⟩
    rcases List.eq_nil_or_concat after with rfl | ⟨after, last, rfl⟩
    · obtain ⟨-, hms⟩ := List.append_inj' heq rfl
      cases hms
      exact .inl hat
    · rw [List.concat_eq_append, ← List.cons_append, ← List.append_assoc] at heq
      rw [List.concat_eq_append] at hafter
      obtain ⟨rfl, hms⟩ := List.append_inj' heq rfl
      cases hms
      exact .inr ⟨⟨before, here, after, rfl, hat, fun later hl => hafter later (List.mem_append_left _ hl)⟩,
        hafter ms (List.mem_append_right _ List.mem_cons_self)⟩
  · rintro (hat | ⟨⟨before, here, after, rfl, hat, hafter⟩, hnot⟩)
    · exact ⟨objects, ms, [], rfl, hat, fun later hl => by cases hl⟩
    · refine ⟨before, here, after ++ [ms], by simp, hat, fun later hl => ?_⟩
      rcases List.mem_append.mp hl with hl | hl
      · exact hafter later hl
      · cases List.mem_singleton.mp hl
        exact hnot

/-- **Of objects laid over each other, the last one that says anything about a path says what is held
there**, as far as that is no object. -/
theorem at?_mergeAll_iff {objects : List Members} (h : ∀ ms ∈ objects, (obj ms).Distinct) {v : Json}
    (hv : v.isObject = false) (path : List String) :
    (obj (mergeAll objects)).at? path = some v ↔ LastHolds objects path v := by
  induction objects using List.reverseRecOn with
  | nil =>
    constructor
    · intro hat
      cases path with
      | nil =>
        cases hat
        cases hv
      | cons name path => cases hat
    · rintro ⟨before, ms, after, heq, -⟩
      simp at heq
  | append_singleton objects ms ih =>
    rw [mergeAll_concat, at?_merge_iff _ (h ms (by simp)) hv, lastHolds_concat,
      ih fun x hx => h x (List.mem_append_left _ hx)]

/-- **Nothing comes from nowhere**: what is held at a path, one of the objects holds something at. -/
theorem exists_of_at?_mergeAll {objects : List Members} (h : ∀ ms ∈ objects, (obj ms).Distinct)
    {name : String} {path : List String}
    (hsome : ((obj (mergeAll objects)).at? (name :: path)).isSome = true) :
    ∃ ms ∈ objects, ((obj ms).at? (name :: path)).isSome = true := by
  induction objects using List.reverseRecOn with
  | nil => cases hsome
  | append_singleton objects ms ih =>
    rw [mergeAll_concat] at hsome
    rcases isSome_at?_of_merge _ (h ms (by simp)) hsome with hbase | hms
    · obtain ⟨x, hx, hat⟩ := ih (fun x hx => h x (List.mem_append_left _ hx)) hbase
      exact ⟨x, List.mem_append_left _ hx, hat⟩
    · exact ⟨ms, by simp, hms⟩

end Config

end EditorServices
