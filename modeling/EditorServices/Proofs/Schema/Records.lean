import EditorServices.Schema.Checked
import EditorServices.Proofs.Json.DistinctNames
import Mathlib.Data.List.Pairwise
import EditorServices.Proofs.Lists

/-!
# `Proofs.Schema.Records` — which records pass their check, and which of them can be merged

A record passes if the value of each field passes and every name it uses is that of a field. The second half
depends on the record as a whole: a field with two spellings is read under one of them, so the other one is
then a name of no field. `Known` is what remains when this is left out, every name being a spelling of a
field whose check its value passes; `fits_iff` says that the two differ by fields spelled twice and by nothing
else.

Only `Known` is kept by merging, and only if no name spells two fields and the checks are `Stable`, so that a
value laid over another one still passes. Checks that objects never pass are stable for a plain reason.

## Contents
- **Results.** `Checked.isValid`, piece by piece.
- **Fields.** `Field`, `Fits`, `Known`, `fits_iff`.
- **Merging.** `Stable`, `Known.merge`, `Known.mergeAll`.
- **Dictionaries of plain values.** `isValid_dictOf`, which is stable.
-/

namespace EditorServices

open Config (merge mergeValue mergeAll get?_merge mergeValue_of_plain mergeAll_concat)

namespace Schema

/-! ## Results -/

namespace Checked

variable {α β : Type}

/-- Whether there is a value. -/
def isValid : Checked α → Bool
  | .valid _ => true
  | .invalid _ => false

@[simp] theorem isValid_valid (a : α) : (valid a).isValid = true := rfl

@[simp] theorem isValid_fail (kind : IssueKind) (v : Json) : (fail kind v : Checked α).isValid = false := rfl

@[simp] theorem isValid_map (f : α → β) (c : Checked α) : (c.map f).isValid = c.isValid := by
  cases c <;> rfl

@[simp] theorem isValid_functorMap (f : α → β) (c : Checked α) : (f <$> c).isValid = c.isValid :=
  c.isValid_map f

@[simp] theorem isValid_seq (f : Checked (α → β)) (c : Checked α) :
    (f <*> c).isValid = (f.isValid && c.isValid) := by
  cases f <;> cases c <;> rfl

@[simp] theorem isValid_under (s : Step) (c : Checked α) : (c.under s).isValid = c.isValid := by
  cases c <;> rfl

@[simp] theorem isValid_withIssues (more : List Issue) (c : Checked α) :
    (c.withIssues more).isValid = (c.isValid && more.isEmpty) := by
  cases c with
  | valid a => cases more <;> rfl
  | invalid is => rfl

end Checked

/-! ## Fields -/

namespace FieldName

/-- The names of a field. -/
def spellings (f : FieldName) : List String := f.name :: f.inFiles.toList

theorem usedName_mem_spellings (f : FieldName) (ms : Members) : f.usedName ms ∈ f.spellings := by
  unfold usedName spellings
  cases f.inFiles with
  | none => exact List.mem_cons_self
  | some alt =>
    dsimp only
    split
    · exact List.mem_cons_of_mem _ List.mem_cons_self
    · exact List.mem_cons_self

/-- A record gives a field under both of its names. -/
def SpelledTwice (f : FieldName) (ms : Members) : Prop :=
  ∃ alt, f.inFiles = some alt ∧ (ms.get? f.name).isSome = true ∧ (ms.get? alt).isSome = true

end FieldName

/-- A field of a record, and which values it may have. -/
structure Field where
  name : FieldName
  accepts : Json → Prop

/-- No two fields share a name, and none has one twice. -/
def Unambiguous (fields : List Field) : Prop := (fields.flatMap fun f => f.name.spellings).Nodup

/-- What a record that passes its check is like: each field has a value that passes, and no name is left. -/
def Fits (fields : List Field) (ms : Members) : Prop :=
  (∀ f ∈ fields, ∀ v, f.name.value? ms = some v → f.accepts v) ∧
    extraNames (fields.map (·.name)) ms = []

/-- Every name of a record spells a field that may have the value. -/
def Known (fields : List Field) (ms : Members) : Prop :=
  ∀ name v, ms.get? name = some v → ∃ f ∈ fields, name ∈ f.name.spellings ∧ f.accepts v

variable {fields : List Field} {ms : Members}

/-- A name belongs to one field at most. -/
theorem Unambiguous.eq (h : Unambiguous fields) {f g : Field} (hf : f ∈ fields) (hg : g ∈ fields)
    {name : String} (hfn : name ∈ f.name.spellings) (hgn : name ∈ g.name.spellings) : f = g :=
  eq_of_nodup_flatMap h hf hg hfn hgn

/-- The two names of a field differ. -/
theorem Unambiguous.ne (h : Unambiguous fields) {f : Field} (hf : f ∈ fields) {alt : String}
    (halt : f.name.inFiles = some alt) : alt ≠ f.name.name := by
  have hnodup := (List.nodup_flatMap.mp h).1 f hf
  unfold FieldName.spellings at hnodup
  rw [halt] at hnodup
  simpa [eq_comm] using hnodup

theorem has_iff_isSome_get? (ms : Members) (name : String) :
    ms.has name = true ↔ (ms.get? name).isSome = true := by
  rw [Option.isSome_iff_ne_none, ne_eq, Named.get?_eq_none, not_not, Named.has, List.any_eq_true, List.mem_map]
  simp

/-- Without an unused name each name is the one that some field is given under. -/
theorem extraNames_eq_nil {names : List FieldName} :
    extraNames names ms = [] ↔ ∀ p ∈ ms, ∃ f ∈ names, f.usedName ms = p.1 := by
  unfold extraNames
  rw [List.map_eq_nil_iff, List.filter_eq_nil_iff]
  simp

/-- A field that is spelled once is given under the name it is spelled with. -/
theorem usedName_eq {f : FieldName} (honce : ¬ f.SpelledTwice ms) {name : String}
    (hname : name ∈ f.spellings) (hsome : (ms.get? name).isSome = true) : f.usedName ms = name := by
  unfold FieldName.spellings at hname
  unfold FieldName.usedName
  cases halt : f.inFiles with
  | none =>
    rw [halt] at hname
    exact (List.mem_singleton.mp hname).symm
  | some alt =>
    rw [halt] at hname
    rcases List.mem_cons.mp hname with rfl | hname
    · have hnot : ¬ ms.has alt = true := fun hhas =>
        honce ⟨alt, halt, hsome, (has_iff_isSome_get? ms alt).mp hhas⟩
      exact if_neg hnot
    · cases List.mem_singleton.mp hname
      exact if_pos ((has_iff_isSome_get? ms name).mpr hsome)

/-- **A record passes if all its names are known and no field is spelled twice.** -/
theorem fits_iff (h : Unambiguous fields) :
    Fits fields ms ↔ Known fields ms ∧ ∀ f ∈ fields, ¬ f.name.SpelledTwice ms := by
  constructor
  · rintro ⟨hvalues, hextra⟩
    have hused := extraNames_eq_nil.mp hextra
    refine ⟨fun name v hv => ?_, ?_⟩
    · obtain ⟨fn, hfn, hname⟩ := hused (name, v) (Named.mem_of_get? hv)
      obtain ⟨f, hf, rfl⟩ := List.mem_map.mp hfn
      dsimp only at hname
      subst hname
      exact ⟨f, hf, f.name.usedName_mem_spellings ms, hvalues f hf v hv⟩
    · rintro f hf ⟨alt, halt, hname, hhas⟩
      -- under its own name the field is not looked for, nor is any other
      obtain ⟨v, hv⟩ := Option.isSome_iff_exists.mp hname
      obtain ⟨gn, hgn, hused⟩ := hused (f.name.name, v) (Named.mem_of_get? hv)
      obtain ⟨g, hg, rfl⟩ := List.mem_map.mp hgn
      have hspelled := g.name.usedName_mem_spellings ms
      rw [hused] at hspelled
      cases h.eq hg hf hspelled List.mem_cons_self
      unfold FieldName.usedName at hused
      rw [halt] at hused
      exact h.ne hf halt (by simpa [(has_iff_isSome_get? ms alt).mpr hhas] using hused)
  · rintro ⟨hknown, honce⟩
    refine ⟨fun f hf v hv => ?_, extraNames_eq_nil.mpr fun p hp => ?_⟩
    · obtain ⟨g, hg, hspelled, haccepts⟩ := hknown _ v hv
      cases h.eq hg hf hspelled (f.name.usedName_mem_spellings ms)
      exact haccepts
    · have hne : ms.get? p.1 ≠ none := fun hnone =>
        Named.get?_eq_none.mp hnone (List.mem_map_of_mem hp)
      obtain ⟨v, hv⟩ := Option.ne_none_iff_exists'.mp hne
      obtain ⟨f, hf, hspelled, -⟩ := hknown _ v hv
      exact ⟨f.name, List.mem_map_of_mem hf, usedName_eq (honce f hf) hspelled (by rw [hv]; rfl)⟩

section Values

variable {α : Type} {check : Json → Checked α}

theorem isValid_optional (ms : Members) (f : FieldName) (otherwise : α)
    (check : Json → Checked α) : (optional ms f otherwise check).isValid = true ↔
      ∀ v, f.value? ms = some v → (check v).isValid = true := by
  unfold optional
  cases f.value? ms with
  | none => simp
  | some v => simp

/-- A field that is not given has its own value, and one that is given has what its check gives. -/
theorem optional_eq_valid {f : FieldName} {otherwise a : α} (h : optional ms f otherwise check = .valid a) :
    f.value? ms = none ∧ a = otherwise ∨ ∃ v, f.value? ms = some v ∧ check v = .valid a := by
  unfold optional at h
  split at h
  · next v hv =>
    cases hcheck : check v with
    | valid b =>
      rw [hcheck] at h
      cases h
      exact .inr ⟨v, hv, hcheck⟩
    | invalid is =>
      rw [hcheck] at h
      cases h
  · next hnone =>
    cases h
    exact .inl ⟨hnone, rfl⟩

theorem nullable_eq_valid {v : Json} {a : Option α} (h : nullable check v = .valid a) :
    v = .null ∧ a = none ∨ ∃ b, a = some b ∧ check v = .valid b := by
  unfold nullable at h
  split at h
  · cases h
    exact .inl ⟨rfl, rfl⟩
  · cases hcheck : check v with
    | valid b =>
      rw [hcheck] at h
      cases h
      exact .inr ⟨b, rfl, rfl⟩
    | invalid is =>
      rw [hcheck] at h
      cases h

theorem length_of_itemsFrom {n : Nat} {items : List Json} {as : List α}
    (h : itemsFrom check n items = .valid as) : as.length = items.length := by
  induction items generalizing n as with
  | nil =>
    cases h
    rfl
  | cons item items ih =>
    obtain ⟨g, rest, hg, hrest, rfl⟩ := Checked.ap_eq_valid h
    cases hitem : (check item).under (.index n) with
    | valid a =>
      rw [hitem] at hg
      cases hg
      rw [List.length_cons, List.length_cons, ih hrest]
    | invalid is =>
      rw [hitem] at hg
      cases hg

/-- What is read of a list has as many items. -/
theorem listOf_eq_valid {v : Json} {as : List α} (h : listOf check v = .valid as) :
    ∃ items, v = .arr items ∧ as.length = items.length := by
  cases v with
  | arr items => exact ⟨items, rfl, length_of_itemsFrom h⟩
  | _ => cases h

theorem isValid_record {name : String} {read : Members → Checked α} {v : Json} :
    (record name read v).isValid = true ↔ ∃ ms, v = .obj ms ∧ (read ms).isValid = true := by
  cases v with
  | obj ms => simp [record]
  | _ => simp [record]

end Values

/-! ## Merging -/

/-- A value that may be had, laid over one that may be had, may be had. -/
def Stable (accepts : Json → Prop) : Prop :=
  ∀ old v, v.Distinct → accepts old → accepts v → accepts (mergeValue (some old) v)

/-- What is no object takes the place of what was there. -/
theorem stable_of_plain {accepts : Json → Prop} (h : ∀ v, accepts v → v.isObject = false) : Stable accepts := by
  intro old v _ _ hv
  rwa [mergeValue_of_plain _ (h v hv)]

/-- **What a merge of known names holds is known.** -/
theorem Known.merge (hfields : Unambiguous fields) (hstable : ∀ f ∈ fields, Stable f.accepts)
    {base override : Members} (hdistinct : (Json.obj override).Distinct) (hbase : Known fields base)
    (hoverride : Known fields override) : Known fields (merge base override) := by
  intro name v hv
  rw [get?_merge base hdistinct.names] at hv
  cases ho : override.get? name with
  | none =>
    rw [ho] at hv
    exact hbase name v hv
  | some w =>
    rw [ho] at hv
    obtain ⟨f, hf, hspelled, haccepts⟩ := hoverride name w ho
    cases hb : base.get? name with
    | none =>
      rw [hb] at hv
      have hself : mergeValue none w = w := by cases w <;> rfl
      rw [← Option.some.inj hv, hself]
      exact ⟨f, hf, hspelled, haccepts⟩
    | some u =>
      rw [hb] at hv
      obtain ⟨g, hg, hspelled', haccepts'⟩ := hbase name u hb
      -- both values are those of one field, as a name belongs to one at most
      cases hfields.eq hg hf hspelled' hspelled
      rw [← Option.some.inj hv]
      exact ⟨f, hf, hspelled, hstable f hf u w (hdistinct.get? ho) haccepts' haccepts⟩

theorem Known.mergeAll (hfields : Unambiguous fields) (hstable : ∀ f ∈ fields, Stable f.accepts)
    {objects : List Members} (hdistinct : ∀ ms ∈ objects, (Json.obj ms).Distinct)
    (h : ∀ ms ∈ objects, Known fields ms) : Known fields (mergeAll objects) := by
  induction objects using List.reverseRecOn with
  | nil => exact fun name v hv => by cases hv
  | append_singleton objects ms ih =>
    have hlast : ms ∈ objects ++ [ms] := by simp
    rw [mergeAll_concat]
    exact Known.merge hfields hstable (hdistinct ms hlast)
      (ih (fun x hx => hdistinct x (List.mem_append_left _ hx)) fun x hx => h x (List.mem_append_left _ hx))
      (h ms hlast)

/-- A field whose values are records of their own. -/
def Field.ofRecord (name : FieldName) (fields : List Field) : Field :=
  ⟨name, fun v => ∃ ms, v = .obj ms ∧ Known fields ms⟩

/-- Records are merged field by field. -/
theorem stable_ofRecord (name : FieldName) (hfields : Unambiguous fields)
    (hstable : ∀ f ∈ fields, Stable f.accepts) : Stable (Field.ofRecord name fields).accepts := by
  rintro old v hdistinct ⟨base, rfl, hbase⟩ ⟨override, rfl, hoverride⟩
  exact ⟨_, rfl, hbase.merge hfields hstable hdistinct hoverride⟩

/-! ## Dictionaries of plain values -/

theorem isValid_membersOf {α : Type} (check : Json → Checked α) (ms : List (String × Json)) :
    (membersOf check ms).isValid = true ↔ ∀ p ∈ ms, (check p.2).isValid = true := by
  induction ms with
  | nil => simp [membersOf]
  | cons p ms ih => simp [membersOf, ih]

theorem isValid_dictOf {α : Type} (check : Json → Checked α) (v : Json) :
    (dictOf check v).isValid = true ↔ ∃ ms, v = .obj ms ∧ ∀ p ∈ ms, (check p.2).isValid = true := by
  cases v with
  | obj ms => simp [dictOf, isValid_membersOf]
  | _ => simp [dictOf]

/-- A dictionary laid over another one has values of the two and no others, if none is an object. -/
theorem stable_dictOf {α : Type} {check : Json → Checked α}
    (h : ∀ v, (check v).isValid = true → v.isObject = false) :
    Stable fun v => (dictOf check v).isValid = true := by
  rintro old v - hold hv
  obtain ⟨base, rfl, hbase⟩ := (isValid_dictOf check old).mp hold
  obtain ⟨override, rfl, hoverride⟩ := (isValid_dictOf check v).mp hv
  refine (isValid_dictOf check _).mpr ⟨merge base override, rfl, ?_⟩
  clear hold hv
  induction override generalizing base with
  | nil => exact hbase
  | cons p rest ih =>
    obtain ⟨name, w⟩ := p
    have hw := hoverride (name, w) List.mem_cons_self
    unfold merge
    rw [mergeValue_of_plain _ (h w hw)]
    refine ih (Named.put base name w) (fun q hq => ?_) fun q hq => hoverride q (List.mem_cons_of_mem _ hq)
    rcases Named.mem_put hq with heq | hq
    · rwa [heq]
    · exact hbase q hq

end Schema

end EditorServices
