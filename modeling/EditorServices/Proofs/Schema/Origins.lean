import EditorServices.Proofs.Schema.Records

/-!
# `Proofs.Schema.Origins` — where the issues of a merged value come from

An issue is found in a value that was laid over another one, and its place tells where. Two things may be said of
it: the upper value holds something at that place, or the lower value has the same issue by itself. A check is
`Traceable` if one of them is true of every issue it finds.

Checks of plain values are traceable since their issues are at the value itself. Of a record it follows from its
fields. What makes this more than a walk down the record is that a field may have two names: its issues are told
under one of them whichever was used, and a name that was in use below is in use no more if the upper record brings
the other one. So places count up to the spelling of fields, and the relation that says so is a parameter.

## Contents
- **Issues.** The issues of a composed check, piece by piece; `Told`, that a refusal has an issue.
- **Plain values.** `Simple` checks, which have one issue at most.
- **Containers.** They are told if what they hold is.
- **Places.** `Json.within?`.
- **Traceable checks.** `Traceable`, of plain values and of lists of them.
- **Dictionaries.** `traceable_dictOf`.
- **Records.** `Part`, `recordIssues`, `SameIn`, and `traceable_record`.
- **Plans.** `Plan`, a record as a list of its fields; what passes its check, what that finds, and that it is
  traceable.
-/

namespace EditorServices

open Config (merge mergeValue get?_merge mergeValue_of_plain mergeValue_obj_of_plain)

namespace Schema

variable {α β : Type}

/-! ## Issues -/

namespace Checked

@[simp] theorem issues_valid (a : α) : (valid a).issues = [] := rfl

@[simp] theorem issues_fail (kind : IssueKind) (v : Json) :
    (fail kind v : Checked α).issues = [⟨[], kind, v⟩] := rfl

@[simp] theorem issues_map (f : α → β) (c : Checked α) : (c.map f).issues = c.issues := by
  cases c <;> rfl

@[simp] theorem issues_functorMap (f : α → β) (c : Checked α) : (f <$> c).issues = c.issues :=
  c.issues_map f

@[simp] theorem issues_seq (f : Checked (α → β)) (c : Checked α) :
    (f <*> c).issues = f.issues ++ c.issues := by
  cases f with
  | valid g => cases c <;> rfl
  | invalid is =>
    cases c with
    | valid a => exact (List.append_nil is).symm
    | invalid js => rfl

@[simp] theorem issues_under (s : Step) (c : Checked α) :
    (c.under s).issues = c.issues.map (Issue.under s) := by
  cases c <;> rfl

@[simp] theorem issues_withIssues (more : List Issue) (c : Checked α) :
    (c.withIssues more).issues = c.issues ++ more := by
  cases c with
  | valid a => cases more <;> rfl
  | invalid is => rfl

/-- A further check is made of a value without issues. -/
theorem mem_issues_refine {f : α → Checked β} {c : Checked α} {i : Issue} :
    i ∈ (c.refine f).issues ↔ i ∈ c.issues ∨ ∃ a, c = .valid a ∧ i ∈ (f a).issues := by
  cases c with
  | valid a => simp [refine]
  | invalid is => simp [refine, issues]

/-- A refusal has an issue. -/
def Told (c : Checked α) : Prop := c.issues = [] → c.isValid = true

theorem told_valid (a : α) : (valid a).Told := fun _ => rfl

theorem told_fail (kind : IssueKind) (v : Json) : (fail kind v : Checked α).Told := nofun

theorem Told.map {c : Checked α} (h : c.Told) (f : α → β) : (c.map f).Told := by
  unfold Told
  rw [issues_map, isValid_map]
  exact h

theorem Told.functorMap {c : Checked α} (h : c.Told) (f : α → β) : (f <$> c).Told := h.map f

theorem Told.seq {f : Checked (α → β)} {c : Checked α} (hf : f.Told) (hc : c.Told) : (f <*> c).Told := by
  intro h
  rw [issues_seq, List.append_eq_nil_iff] at h
  rw [isValid_seq, hf h.1, hc h.2]
  rfl

theorem Told.under {c : Checked α} (h : c.Told) (s : Step) : (c.under s).Told := by
  intro hnone
  rw [issues_under, List.map_eq_nil_iff] at hnone
  rw [isValid_under]
  exact h hnone

theorem Told.withIssues {c : Checked α} (h : c.Told) (more : List Issue) : (c.withIssues more).Told := by
  intro hnone
  rw [issues_withIssues, List.append_eq_nil_iff] at hnone
  rw [isValid_withIssues, h hnone.1, hnone.2]
  rfl

theorem Told.refine {c : Checked α} {f : α → Checked β} (h : c.Told) (hf : ∀ a, (f a).Told) :
    (c.refine f).Told := by
  cases c with
  | valid a => exact hf a
  | invalid is => exact fun hnone => absurd (h hnone) Bool.false_ne_true

/-- A check that succeeds, or finds one issue, which is about the value itself. -/
inductive Simple : Checked α → Prop where
  | valid (a : α) : Simple (.valid a)
  | fail (kind : IssueKind) (v : Json) : Simple (.fail kind v)

theorem Simple.map {c : Checked α} (h : c.Simple) (f : α → β) : (c.map f).Simple := by
  cases h with
  | valid a => exact .valid (f a)
  | fail kind v => exact .fail kind v

theorem Simple.refine {c : Checked α} {f : α → Checked β} (h : c.Simple) (hf : ∀ a, (f a).Simple) :
    (c.refine f).Simple := by
  cases h with
  | valid a => exact hf a
  | fail kind v => exact .fail kind v

theorem Simple.told {c : Checked α} (h : c.Simple) : c.Told := by
  cases h with
  | valid a => exact told_valid a
  | fail kind v => exact told_fail kind v

theorem Simple.place_eq_nil {c : Checked α} (h : c.Simple) {i : Issue} (hi : i ∈ c.issues) : i.place = [] := by
  cases h with
  | valid a => cases hi
  | fail kind v =>
    cases List.mem_singleton.mp hi
    rfl

end Checked

open Checked

/-! ## Plain values -/

theorem simple_string (v : Json) : (string v).Simple := by
  unfold string
  split <;> constructor

theorem simple_integer (v : Json) : (integer v).Simple := by
  unfold integer
  repeat' split
  all_goals constructor

theorem simple_naturalFrom (least : Nat) (v : Json) : (naturalFrom least v).Simple := by
  apply Simple.map
  apply (simple_integer v).refine
  intro n
  split <;> constructor

theorem simple_boolean (v : Json) : (boolean v).Simple := by
  unfold boolean truthNumber
  dsimp only
  repeat' split
  all_goals constructor

theorem simple_word (choices : List (String × α)) (v : Json) : (word choices v).Simple := by
  unfold word
  dsimp only
  repeat' split
  all_goals constructor

theorem simple_nullable {check : Json → Checked α} (h : ∀ v, (check v).Simple) (v : Json) :
    (nullable check v).Simple := by
  unfold nullable
  split
  · exact .valid _
  · exact (h _).map _

/-! ## Containers -/

theorem told_optional (ms : Members) (f : FieldName) (otherwise : α) {check : Json → Checked α}
    (h : ∀ v, (check v).Told) : (optional ms f otherwise check).Told := by
  unfold optional
  split
  · exact (h _).under _
  · exact told_valid _

theorem told_record (name : String) {read : Members → Checked α} (h : ∀ ms, (read ms).Told) (v : Json) :
    (record name read v).Told := by
  unfold record
  split
  · exact h _
  · exact told_fail _ _

theorem told_nullable {check : Json → Checked α} (h : ∀ v, (check v).Told) (v : Json) :
    (nullable check v).Told := by
  unfold nullable
  split
  · exact told_valid _
  · exact (h _).map _

theorem told_itemsFrom {check : Json → Checked α} (h : ∀ v, (check v).Told) (n : Nat) (items : List Json) :
    (itemsFrom check n items).Told := by
  induction items generalizing n with
  | nil => exact told_valid _
  | cons item items ih => exact (((h item).under _).functorMap _).seq (ih (n + 1))

theorem told_listOf {check : Json → Checked α} (h : ∀ v, (check v).Told) (v : Json) : (listOf check v).Told := by
  unfold listOf
  split
  · exact told_itemsFrom h _ _
  · exact told_fail _ _

theorem told_dictOf {check : Json → Checked α} (h : ∀ v, (check v).Told) (v : Json) : (dictOf check v).Told := by
  have hmembers : ∀ ms : List (String × Json), (membersOf check ms).Told := by
    intro ms
    induction ms with
    | nil => exact told_valid _
    | cons p ms ih => exact ((((h p.2).map _).under _).functorMap _).seq ih
  unfold dictOf
  split
  · exact hmembers _
  · exact told_fail _ _

end Schema

/-! ## Places -/

/-- What a value holds at a place. -/
def Json.within? : Json → Schema.Place → Option Json
  | v, [] => some v
  | .obj ms, .key name :: place => (Named.get? ms name).bind fun v => v.within? place
  | .arr items, .index n :: place => items[n]?.bind fun v => v.within? place
  | _, _ :: _ => none

@[simp] theorem Json.within?_nil (v : Json) : v.within? [] = some v := by
  cases v <;> rfl

@[simp] theorem Json.within?_obj_key (ms : Members) (name : String) (place : Schema.Place) :
    (Json.obj ms).within? (.key name :: place) = (Named.get? ms name).bind fun v => v.within? place := rfl

@[simp] theorem Json.within?_arr_index (items : List Json) (n : Nat) (place : Schema.Place) :
    (Json.arr items).within? (.index n :: place) = items[n]?.bind fun v => v.within? place := rfl

namespace Schema

open Checked

/-! ## Traceable checks -/

/-- An issue of a value that was laid over another one is at a place where the upper value holds something, or the
lower value has it by itself. Places count as far as `same` tells them apart. -/
def Traceable (same : Place → Place → Prop) (faults : Json → List Issue) : Prop :=
  ∀ (old : Option Json) (v : Json), v.Distinct → ∀ i ∈ faults (mergeValue old v),
    (∃ place, same i.place place ∧ (v.within? place).isSome = true) ∨ ∃ o, old = some o ∧ i ∈ faults o

/-- What is wrong with a value itself is at a place where it holds something. -/
theorem traceable_of_simple {check : Json → Checked α} (h : ∀ v, (check v).Simple) :
    Traceable Eq fun v => (check v).issues := by
  intro old v _ i hi
  refine .inl ⟨[], (h _).place_eq_nil hi, ?_⟩
  rw [Json.within?_nil]
  rfl

/-- An issue of a list of plain values is at one of its items. -/
theorem place_of_itemsFrom {check : Json → Checked α} (h : ∀ v, (check v).Simple) {n : Nat} {items : List Json} {i : Issue}
    (hi : i ∈ (itemsFrom check n items).issues) : ∃ k, i.place = [.index (n + k)] ∧ k < items.length := by
  induction items generalizing n with
  | nil => cases hi
  | cons item items ih =>
    unfold itemsFrom at hi
    rw [issues_seq, issues_functorMap, issues_under, List.mem_append, List.mem_map] at hi
    rcases hi with ⟨j, hj, rfl⟩ | hi
    · refine ⟨0, ?_, Nat.zero_lt_succ _⟩
      show .index n :: j.place = _
      rw [(h item).place_eq_nil hj]
      rfl
    · obtain ⟨k, hplace, hk⟩ := ih hi
      refine ⟨k + 1, ?_, Nat.succ_lt_succ hk⟩
      rw [hplace, Nat.add_assoc, Nat.add_comm 1 k]

theorem traceable_listOf {check : Json → Checked α} (h : ∀ v, (check v).Simple) :
    Traceable Eq fun v => (listOf check v).issues := by
  intro old v _ i hi
  left
  cases v with
  | arr items =>
    rw [mergeValue_of_plain _ rfl] at hi
    obtain ⟨k, hplace, hk⟩ := place_of_itemsFrom h hi
    refine ⟨_, hplace, ?_⟩
    rw [Nat.zero_add, Json.within?_arr_index, List.getElem?_eq_getElem hk, Option.bind_some, Json.within?_nil]
    rfl
  | obj ms =>
    -- an object laid over anything is an object, and that is no list
    have hobject : ∃ merged, mergeValue old (.obj ms) = .obj merged := by
      unfold mergeValue
      split
      · exact ⟨_, rfl⟩
      · exact ⟨_, rfl⟩
    obtain ⟨merged, hmerged⟩ := hobject
    rw [hmerged] at hi
    cases List.mem_singleton.mp hi
    exact ⟨[], rfl, rfl⟩
  | _ =>
    rw [mergeValue_of_plain _ rfl] at hi
    cases List.mem_singleton.mp hi
    exact ⟨[], rfl, rfl⟩

theorem issues_nullable_of_ne {check : Json → Checked α} {v : Json} (h : v ≠ .null) :
    (nullable check v).issues = (check v).issues := by
  unfold nullable
  split
  · exact absurd rfl h
  · exact issues_map _ _

/-- A check that lets null pass is traceable with the check of other values. -/
theorem Traceable.nullable {same : Place → Place → Prop} {check : Json → Checked α}
    (h : Traceable same fun v => (check v).issues) : Traceable same fun v => (nullable check v).issues := by
  intro old v hdistinct i hi
  dsimp only at hi
  have hne : mergeValue old v ≠ .null := by
    intro hnull
    rw [hnull] at hi
    cases hi
  rw [issues_nullable_of_ne hne] at hi
  by_cases hold : old = some .null
  · -- null below is as nothing below
    have hsame : mergeValue old v = mergeValue none v := by
      rw [hold]
      cases v <;> rfl
    rw [hsame] at hi
    rcases h none v hdistinct i hi with hheld | ⟨o, ho, -⟩
    · exact .inl hheld
    · cases ho
  · rcases h old v hdistinct i hi with hheld | ⟨o, rfl, hio⟩
    · exact .inl hheld
    · refine .inr ⟨o, rfl, ?_⟩
      have ho : o ≠ .null := fun heq => hold (heq ▸ rfl)
      dsimp only
      rwa [issues_nullable_of_ne ho]

/-! ## Dictionaries -/

/-- What is in a merge is under a name of the override, or was in the base. -/
theorem mem_merge {base : Members} {override : List (String × Json)} {p : String × Json}
    (h : p ∈ merge base override) : p.1 ∈ override.map Prod.fst ∨ p ∈ base := by
  induction override generalizing base with
  | nil => exact .inr h
  | cons q rest ih =>
    obtain ⟨name, w⟩ := q
    rw [merge] at h
    rcases ih h with hrest | hput
    · exact .inl (List.mem_cons_of_mem _ hrest)
    · rcases Named.mem_put hput with heq | hbase
      · rw [heq]
        exact .inl List.mem_cons_self
      · exact .inr hbase

/-- An issue of a dictionary of plain values is at one of its names, and is that of the value there. -/
theorem mem_issues_membersOf {check : Json → Checked α} {ms : List (String × Json)} {i : Issue} :
    i ∈ (membersOf check ms).issues ↔ ∃ p ∈ ms, ∃ j ∈ (check p.2).issues, i = j.under (.key p.1) := by
  induction ms with
  | nil => simp [membersOf]
  | cons p ms ih => simp [membersOf, ih, eq_comm]

theorem traceable_dictOf {check : Json → Checked α} (h : ∀ v, (check v).Simple) :
    Traceable Eq fun v => (dictOf check v).issues := by
  -- a name that the upper dictionary has is a place where it holds something
  have hheld : ∀ (override : Members) (p : String × Json) (j : Issue), p.1 ∈ override.map Prod.fst →
      j ∈ (check p.2).issues → ∃ place, (j.under (.key p.1)).place = place ∧
        ((Json.obj override).within? place).isSome = true := by
    intro override p j hname hj
    refine ⟨_, rfl, ?_⟩
    show ((Json.obj override).within? (.key p.1 :: j.place)).isSome = true
    rw [(h _).place_eq_nil hj, Json.within?_obj_key]
    obtain ⟨v, hv⟩ := Option.ne_none_iff_exists'.mp fun hnone => Named.get?_eq_none.mp hnone hname
    rw [hv, Option.bind_some, Json.within?_nil]
    rfl
  intro old v _ i hi
  cases v with
  | obj override =>
    by_cases hold : ∃ base, old = some (.obj base)
    · obtain ⟨base, rfl⟩ := hold
      obtain ⟨p, hp, j, hj, rfl⟩ := mem_issues_membersOf.mp hi
      rcases mem_merge hp with hname | hbase
      · exact .inl (hheld override p j hname hj)
      · exact .inr ⟨_, rfl, mem_issues_membersOf.mpr ⟨p, hbase, j, hj, rfl⟩⟩
    · have hself : mergeValue old (.obj override) = .obj override := by
        unfold mergeValue
        split
        · exact absurd ⟨_, rfl⟩ hold
        · rfl
      rw [hself] at hi
      obtain ⟨p, hp, j, hj, rfl⟩ := mem_issues_membersOf.mp hi
      exact .inl (hheld override p j (List.mem_map_of_mem hp) hj)
  | _ =>
    rw [mergeValue_of_plain _ rfl] at hi
    cases List.mem_singleton.mp hi
    exact .inl ⟨[], rfl, rfl⟩

/-! ## Records -/

/-- A field of a record: what is wrong with a value of it, and which places in such a value are the same. -/
structure Part where
  name : FieldName
  faults : Json → List Issue
  same : Place → Place → Prop

/-- The issues of the fields that a record gives, and its names that are those of no field. -/
def recordIssues (parts : List Part) (ms : Members) : List Issue :=
  (parts.flatMap fun p => match p.name.value? ms with
    | some v => (p.faults v).map (Issue.under (.key p.name.label))
    | none => []) ++ extraNames (parts.map (·.name)) ms

/-- Places in a record are the same if they are in the same field, under whichever name, and are the same there. -/
structure RespectsFields (parts : List Part) (same : Place → Place → Prop) : Prop where
  refl : ∀ place, same place place
  inside : ∀ p ∈ parts, ∀ a ∈ p.name.spellings, ∀ b ∈ p.name.spellings, ∀ r s, p.same r s →
    same (.key a :: r) (.key b :: s)

/-- Places are the same up to the name of a field in the first step. -/
inductive SameIn (fields : List FieldName) : Place → Place → Prop where
  | same (place : Place) : SameIn fields place place
  | spelled {f : FieldName} (field : f ∈ fields) {a b : String} (left : a ∈ f.spellings) (right : b ∈ f.spellings)
      (rest : Place) : SameIn fields (.key a :: rest) (.key b :: rest)

/-- Where fields have plain values only their names can be given in two ways. -/
theorem respectsFields_sameIn {parts : List Part} (h : ∀ p ∈ parts, p.same = Eq) :
    RespectsFields parts (SameIn (parts.map (·.name))) where
  refl := .same
  inside := by
    intro p hp a ha b hb r s hrs
    rw [h p hp] at hrs
    subst hrs
    exact .spelled (List.mem_map_of_mem hp) ha hb r

theorem issues_optional (ms : Members) (f : FieldName) (otherwise : α) (check : Json → Checked α) :
    (optional ms f otherwise check).issues = match f.value? ms with
      | some v => (check v).issues.map (Issue.under (.key f.label))
      | none => [] := by
  unfold optional
  cases f.value? ms <;> simp

theorem label_mem_spellings (f : FieldName) : f.label ∈ f.spellings := by
  unfold FieldName.label FieldName.spellings
  cases f.inFiles <;> simp

theorem has_merge {base override : Members} (h : (override.map Prod.fst).Nodup) (name : String) :
    (merge base override).has name = true ↔ base.has name = true ∨ override.has name = true := by
  rw [has_iff_isSome_get?, has_iff_isSome_get?, has_iff_isSome_get?, get?_merge base h]
  cases override.get? name <;> simp

/-- A field that the lower record gives under the name that is used in the end was used there under that name. -/
theorem usedName_of_merge {base override : Members} (h : (override.map Prod.fst).Nodup) (f : FieldName)
    (hbase : base.has (f.usedName (merge base override)) = true) :
    f.usedName base = f.usedName (merge base override) := by
  unfold FieldName.usedName at hbase ⊢
  cases hfiles : f.inFiles with
  | none => rfl
  | some alt =>
    rw [hfiles] at hbase
    dsimp only at hbase ⊢
    by_cases halt : (merge base override).has alt = true
    · rw [if_pos halt] at hbase ⊢
      rw [if_pos hbase]
    · rw [if_neg halt]
      have hnone : ¬ base.has alt = true := fun hb => halt ((has_merge h alt).mpr (.inl hb))
      rw [if_neg hnone]

section Record

variable {parts : List Part} {same : Place → Place → Prop} {base override : Members}

/-- The issue of a field is traced by what is found under the name that is used in the end. -/
theorem traced_field (hsame : RespectsFields parts same) (hdistinct : (Json.obj override).Distinct) {p : Part}
    (hp : p ∈ parts) (htraceable : Traceable p.same p.faults) {v : Json}
    (hv : p.name.value? (merge base override) = some v) {i : Issue} (hi : i ∈ p.faults v) :
    (∃ place, same (i.under (.key p.name.label)).place place ∧
      ((Json.obj override).within? place).isSome = true) ∨
    i.under (.key p.name.label) ∈ recordIssues parts base := by
  -- an issue that the lower value has by itself is one of the lower record
  have hbelow : ∀ o, base.get? (p.name.usedName (merge base override)) = some o → i ∈ p.faults o →
      i.under (.key p.name.label) ∈ recordIssues parts base := by
    intro o ho hio
    have hused := usedName_of_merge hdistinct.names p.name ((has_iff_isSome_get? _ _).mpr (by rw [ho]; rfl))
    refine List.mem_append_left _ (List.mem_flatMap.mpr ⟨p, hp, ?_⟩)
    unfold FieldName.value?
    rw [hused, ho]
    exact List.mem_map_of_mem hio
  unfold FieldName.value? at hv
  rw [get?_merge base hdistinct.names] at hv
  cases hupper : override.get? (p.name.usedName (merge base override)) with
  | none =>
    rw [hupper] at hv
    exact .inr (hbelow v hv hi)
  | some w =>
    rw [hupper] at hv
    cases hv
    rcases htraceable _ w (hdistinct.get? hupper) i hi with ⟨place, hplace, hheld⟩ | ⟨o, ho, hio⟩
    · refine .inl ⟨.key (p.name.usedName (merge base override)) :: place, ?_, ?_⟩
      · exact hsame.inside p hp _ (label_mem_spellings _) _ (p.name.usedName_mem_spellings _) _ _ hplace
      · rw [Json.within?_obj_key, hupper, Option.bind_some]
        exact hheld
    · exact .inr (hbelow o ho hio)

/-- A name of no field is one of the upper record, or of the lower one, or the upper record brings the other name of
the field it was a name of. -/
theorem traced_extra (hsame : RespectsFields parts same) (hrefl : ∀ p ∈ parts, ∀ place, p.same place place)
    (hdistinct : (Json.obj override).Distinct) {i : Issue}
    (hi : i ∈ extraNames (parts.map (·.name)) (merge base override)) :
    (∃ place, same i.place place ∧ ((Json.obj override).within? place).isSome = true) ∨
    i ∈ extraNames (parts.map (·.name)) base := by
  have hheld : ∀ name, override.has name = true → ((Json.obj override).within? [.key name]).isSome = true := by
    intro name hname
    obtain ⟨v, hv⟩ := Option.isSome_iff_exists.mp ((has_iff_isSome_get? _ _).mp hname)
    rw [Json.within?_obj_key, hv, Option.bind_some, Json.within?_nil]
    rfl
  unfold extraNames at hi
  obtain ⟨⟨name, v⟩, hmem, rfl⟩ := List.mem_map.mp hi
  obtain ⟨hin, hunused⟩ := List.mem_filter.mp hmem
  replace hunused : ∀ f ∈ parts.map (·.name), f.usedName (merge base override) ≠ name := by simpa using hunused
  rcases mem_merge hin with hname | hbase
  · have hhas : override.has name = true := by
      rw [has_iff_isSome_get?, Option.isSome_iff_ne_none, ne_eq, Named.get?_eq_none, not_not]
      exact hname
    exact .inl ⟨_, hsame.refl _, hheld name hhas⟩
  · by_cases hused : ∃ f ∈ parts.map (·.name), f.usedName base = name
    · obtain ⟨f, hf, rfl⟩ := hused
      obtain ⟨p, hp, rfl⟩ := List.mem_map.mp hf
      have hchanged := hunused _ hf
      unfold FieldName.usedName at hchanged ⊢
      cases halt : p.name.inFiles with
      | none =>
        rw [halt] at hchanged
        exact absurd rfl hchanged
      | some alt =>
        rw [halt] at hchanged
        dsimp only at hchanged ⊢
        -- only the other name, newly there, can have taken the place of the one in use
        have hnot : ¬ base.has alt = true := by
          intro hbelow
          rw [if_pos hbelow, if_pos ((has_merge hdistinct.names alt).mpr (.inl hbelow))] at hchanged
          exact hchanged rfl
        have hupper : override.has alt = true := by
          by_contra hnone
          have hneither : ¬ (merge base override).has alt = true := fun h =>
            ((has_merge hdistinct.names alt).mp h).elim hnot hnone
          rw [if_neg hnot, if_neg hneither] at hchanged
          exact hchanged rfl
        rw [if_neg hnot]
        refine .inl ⟨[.key alt], ?_, hheld alt hupper⟩
        have hspelled : alt ∈ p.name.spellings := by simp [FieldName.spellings, halt]
        exact hsame.inside p hp _ List.mem_cons_self _ hspelled _ _ (hrefl p hp [])
    · refine .inr (List.mem_map.mpr ⟨(name, v), List.mem_filter.mpr ⟨hbase, ?_⟩, rfl⟩)
      simpa using hused

/-- **An issue of a merged record is at a place where the upper record holds something, or the lower one has it by
itself.** -/
theorem traced_recordIssues (hsame : RespectsFields parts same) (hrefl : ∀ p ∈ parts, ∀ place, p.same place place)
    (hparts : ∀ p ∈ parts, Traceable p.same p.faults) (hdistinct : (Json.obj override).Distinct) {i : Issue}
    (hi : i ∈ recordIssues parts (merge base override)) :
    (∃ place, same i.place place ∧ ((Json.obj override).within? place).isSome = true) ∨
    i ∈ recordIssues parts base := by
  rcases List.mem_append.mp hi with hfield | hextra
  · obtain ⟨p, hp, hin⟩ := List.mem_flatMap.mp hfield
    split at hin
    · next v hv =>
      obtain ⟨j, hj, rfl⟩ := List.mem_map.mp hin
      exact traced_field hsame hdistinct hp (hparts p hp) hv hj
    · cases hin
  · rcases traced_extra hsame hrefl hdistinct hextra with hheld | hbase
    · exact .inl hheld
    · exact .inr (List.mem_append_right _ hbase)

end Record

/-- A merge with nothing below it is the override. -/
theorem merge_nil {override : Members} (h : (override.map Prod.fst).Nodup) : merge [] override = override := by
  suffices hall : ∀ base : Members, ((base ++ override).map Prod.fst).Nodup →
      merge base override = base ++ override from hall [] h
  clear h
  induction override with
  | nil =>
    intro base _
    rw [List.append_nil]
    rfl
  | cons p rest ih =>
    obtain ⟨name, v⟩ := p
    intro base hbase
    have hnew : name ∉ base.map Prod.fst := by
      intro hmem
      rw [List.map_append, List.nodup_append] at hbase
      exact hbase.2.2 name hmem name List.mem_cons_self rfl
    have hself : mergeValue (base.get? name) v = v := by
      rw [Named.get?_eq_none.mpr hnew]
      cases v <;> rfl
    rw [merge, hself, Named.put_of_not_mem base v hnew, ih, List.append_assoc, List.singleton_append]
    rw [List.append_assoc, List.singleton_append]
    exact hbase

theorem recordIssues_nil (parts : List Part) : recordIssues parts [] = [] := by
  have hvalue : ∀ f : FieldName, f.value? ([] : Members) = none := fun _ => rfl
  unfold recordIssues
  rw [List.append_eq_nil_iff, List.flatMap_eq_nil_iff]
  refine ⟨?_, rfl⟩
  intro p _
  rw [hvalue]

/-- **A record is traceable** if its fields are, and its reader finds their issues, the names of no field, and
beyond that only what is wrong with the record as a whole. -/
theorem traceable_record {parts : List Part} {same : Place → Place → Prop} {name : String}
    {read : Members → Checked α} (hsame : RespectsFields parts same)
    (hrefl : ∀ p ∈ parts, ∀ place, p.same place place) (hparts : ∀ p ∈ parts, Traceable p.same p.faults)
    (hfound : ∀ ms, ∀ i ∈ (read ms).issues, i.place = [] ∨ i ∈ recordIssues parts ms)
    (htold : ∀ ms, ∀ i ∈ recordIssues parts ms, i ∈ (read ms).issues) :
    Traceable same fun v => (record name read v).issues := by
  have hwhole : ∀ (v : Json) (i : Issue), i.place = [] →
      ∃ place, same i.place place ∧ (v.within? place).isSome = true := by
    intro v i hplace
    refine ⟨[], hplace ▸ hsame.refl _, ?_⟩
    rw [Json.within?_nil]
    rfl
  intro old v hdistinct i hi
  cases v with
  | obj override =>
    by_cases hold : ∃ base, old = some (.obj base)
    · obtain ⟨base, rfl⟩ := hold
      rcases hfound _ i hi with hplace | hrecord
      · exact .inl (hwhole _ i hplace)
      · rcases traced_recordIssues hsame hrefl hparts hdistinct hrecord with hheld | hbase
        · exact .inl hheld
        · exact .inr ⟨_, rfl, htold base i hbase⟩
    · have hself : mergeValue old (.obj override) = .obj (merge [] override) := by
        rw [merge_nil hdistinct.names]
        unfold mergeValue
        split
        · exact absurd ⟨_, rfl⟩ hold
        · rfl
      dsimp only at hi
      rw [hself] at hi
      rcases hfound _ i hi with hplace | hrecord
      · exact .inl (hwhole _ i hplace)
      · rcases traced_recordIssues hsame hrefl hparts hdistinct hrecord with hheld | hbase
        · exact .inl hheld
        · rw [recordIssues_nil] at hbase
          cases hbase
  | _ =>
    rw [mergeValue_of_plain _ rfl] at hi
    cases List.mem_singleton.mp hi
    exact .inl (hwhole _ _ rfl)

/-! ## Plans -/

/-- A field that need not be given: what it is then, and the check of a value that is given. -/
structure Slot (α : Type) where
  name : FieldName
  otherwise : α
  check : Json → Checked α
  /-- Which places in a value of the field are the same. -/
  same : Place → Place → Prop
  refl : ∀ place, same place place
  told : ∀ v, (check v).Told
  traceable : Traceable same fun v => (check v).issues

namespace Slot

/-- A field of plain values. -/
def plain (name : FieldName) (otherwise : α) {check : Json → Checked α} (h : ∀ v, (check v).Simple) : Slot α :=
  ⟨name, otherwise, check, Eq, fun _ => rfl, fun v => (h v).told, traceable_of_simple h⟩

variable (s : Slot α) (ms : Members)

/-- The field, and which values pass its check. -/
def field : Field := ⟨s.name, fun v => (s.check v).isValid = true⟩

/-- The field, and what its check finds. -/
def part : Part := ⟨s.name, fun v => (s.check v).issues, s.same⟩

/-- What a record gives the field. -/
def read : Checked α := optional ms s.name s.otherwise s.check

theorem told_read : (s.read ms).Told := told_optional ms _ _ s.told

end Slot

/-- How a record is made of its fields, which are read in order. -/
inductive Plan : Type → Type 1 where
  | first {α β : Type} (make : α → β) (slot : Slot α) : Plan β
  | next {α β : Type} (before : Plan (α → β)) (slot : Slot α) : Plan β

namespace Plan

def read {α : Type} : Plan α → Members → Checked α
  | .first make slot, ms => make <$> slot.read ms
  | .next before slot, ms => before.read ms <*> slot.read ms

def fields {α : Type} : Plan α → List Field
  | .first _ slot => [slot.field]
  | .next before slot => before.fields ++ [slot.field]

def parts {α : Type} : Plan α → List Part
  | .first _ slot => [slot.part]
  | .next before slot => before.parts ++ [slot.part]

/-- The check of a record: its fields, and that no name is left. -/
def check (p : Plan α) (ms : Members) : Checked α :=
  (p.read ms).withIssues (extraNames (p.fields.map (·.name)) ms)

theorem names_parts (p : Plan α) : p.parts.map (·.name) = p.fields.map (·.name) := by
  induction p with
  | first make slot => rfl
  | next before slot ih =>
    rw [parts, fields, List.map_append, List.map_append, ih]
    rfl

/-- What holds of the part of every field holds of all parts. -/
theorem forall_parts {P : Part → Prop} (h : ∀ {β : Type} (s : Slot β), P s.part) (p : Plan α) :
    ∀ q ∈ p.parts, P q := by
  induction p with
  | first make slot => simpa [parts] using h slot
  | next before slot ih =>
    intro q hq
    rcases List.mem_append.mp hq with hq | hq
    · exact ih q hq
    · rw [List.mem_singleton.mp hq]
      exact h slot

/-- **A record passes if the values of its fields do and no name is left.** -/
theorem isValid_check (p : Plan α) (ms : Members) : (p.check ms).isValid = true ↔ Fits p.fields ms := by
  have hread : (p.read ms).isValid = true ↔
      ∀ f ∈ p.fields, ∀ v, f.name.value? ms = some v → f.accepts v := by
    induction p with
    | first make slot => simp [read, fields, Slot.read, Slot.field, isValid_optional]
    | next before slot ih =>
      simp [read, fields, Slot.read, Slot.field, isValid_optional, ih, or_imp, forall_and]
  rw [check, isValid_withIssues, Bool.and_eq_true, hread, List.isEmpty_iff]
  rfl

/-- **The issues of a record** are those of its fields and the names that are left. -/
theorem issues_check (p : Plan α) (ms : Members) : (p.check ms).issues = recordIssues p.parts ms := by
  have hread : (p.read ms).issues = p.parts.flatMap fun q => match q.name.value? ms with
      | some v => (q.faults v).map (Issue.under (.key q.name.label))
      | none => [] := by
    induction p with
    | first make slot =>
      rw [read, issues_functorMap, Slot.read, issues_optional, parts, List.flatMap_singleton]
      rfl
    | next before slot ih =>
      rw [read, issues_seq, ih, Slot.read, issues_optional, parts, List.flatMap_append, List.flatMap_singleton]
      rfl
  rw [check, issues_withIssues, hread, recordIssues, names_parts]

theorem told_check (p : Plan α) (ms : Members) : (p.check ms).Told := by
  have hread : (p.read ms).Told := by
    induction p with
    | first make slot => exact (slot.told_read ms).functorMap make
    | next before slot ih => exact ih.seq (slot.told_read ms)
  exact hread.withIssues _

/-- A record is traceable if its reader finds what the plan finds, and beyond that only what is wrong with the
record as a whole. -/
theorem traceable (p : Plan α) {same : Place → Place → Prop} (hsame : RespectsFields p.parts same) (name : String)
    {read : Members → Checked β} (hfound : ∀ ms, ∀ i ∈ (read ms).issues, i.place = [] ∨ i ∈ (p.check ms).issues)
    (hkept : ∀ ms, ∀ i ∈ (p.check ms).issues, i ∈ (read ms).issues) :
    Traceable same fun v => (record name read v).issues := by
  simp only [issues_check] at hfound hkept
  exact traceable_record hsame (p.forall_parts Slot.refl) (p.forall_parts Slot.traceable) hfound hkept

/-- The check of the plan is the whole check. -/
theorem traceable_check (p : Plan α) {same : Place → Place → Prop} (hsame : RespectsFields p.parts same)
    (name : String) : Traceable same fun v => (record name p.check v).issues :=
  p.traceable hsame name (fun _ _ hi => .inr hi) fun _ _ hi => hi

end Plan

end Schema

end EditorServices
