import EditorServices.Proofs.Config.Acceptance
import EditorServices.Proofs.Schema.Origins

/-!
# `Proofs.Config.Culprits` — which source a refused configuration is blamed on

When the merged sources are refused, the last source is named, whatever it holds. Each issue has a culprit all the
same: the last source that holds anything at the place of the issue. With that source laid on the issue is there,
and no later source changes it. So the source that is named is a culprit as often as the sources before it would be
accepted without it, and is innocent only if every issue was there already.

A place is that of a field, so a source counts under whichever name it gives the field. An issue is told under the
name for files, even if the source uses the other one.

## Contents
- **Fields of sections.** `SameField`, up to which the whole check is traceable.
- **Culprits.** `HoldsAt`, `exists_culprit`.
- **The named source.** What a refusal says, `named_source_guilty`, and that the named source may be innocent.
-/

namespace EditorServices

open Schema Json

/-! ## Fields of sections -/

namespace Config

/-- Two places are those of one field of a section, under whichever name. -/
inductive SameField : Place → Place → Prop where
  | same (place : Place) : SameField place place
  | inside {s : String × List FieldName} (isSection : s ∈ sectionFields) {p q : Place} (h : SameIn s.2 p q) :
      SameField (.key s.1 :: p) (.key s.1 :: q)

end Config

namespace Settings

open Config (SameField)

theorem respectsFields_plan : RespectsFields plan.parts SameField where
  refl := .same
  inside := by
    intro p hp a ha b hb r s hrs
    simp only [plan, Plan.parts, List.cons_append, List.nil_append, List.mem_cons, List.not_mem_nil, or_false] at hp
    rcases hp with rfl | rfl | rfl
    all_goals
      cases List.mem_singleton.mp ha
      cases List.mem_singleton.mp hb
    · exact .inside (s := ("lsp", LspConfig.fields)) (by simp [Config.sectionFields]) hrs
    · exact .inside (s := ("highlight", HighlightConfig.fields)) (by simp [Config.sectionFields]) hrs
    · exact .inside (s := ("logging", LoggingConfig.fields)) (by simp [Config.sectionFields]) hrs

/-- **An issue of a configuration laid over another one is traced to one of the two.** -/
theorem traceable_check : Traceable SameField fun v => (check v).issues :=
  plan.traceable_check respectsFields_plan _

theorem told_check (v : Json) : (check v).Told := told_record _ plan.told_check v

end Settings

namespace Config

/-! ## Culprits -/

/-- An object holds something at a place, under whichever name of the field there. -/
def HoldsAt (ms : Members) (place : Place) : Prop :=
  ∃ q, SameField place q ∧ ((Json.obj ms).within? q).isSome = true

/-- **An issue of a merge is at a place where the upper object holds something, or the lower one has it by
itself.** -/
theorem holdsAt_or_before {base override : Members} (h : (obj override).Distinct) {i : Issue}
    (hi : i ∈ (Settings.check (.obj (merge base override))).issues) :
    HoldsAt override i.place ∨ i ∈ (Settings.check (.obj base)).issues := by
  rcases Settings.traceable_check (some (.obj base)) (.obj override) h i hi with hheld | ⟨o, ho, hbase⟩
  · exact .inl hheld
  · cases ho
    exact .inr hbase

/-- The last object that holds something at the place of an issue. The issue is there as soon as that object is
laid on, and stays. -/
structure Culprit (objects : List Members) (i : Issue) (before : List Members) (culprit : Members)
    (after : List Members) : Prop where
  split : objects = before ++ culprit :: after
  holds : HoldsAt culprit i.place
  last : ∀ later ∈ after, ¬ HoldsAt later i.place
  stays : ∀ more, more <+: after →
    i ∈ (Settings.check (.obj (mergeAll (before ++ culprit :: more)))).issues

/-- **Every issue of merged objects has a culprit.** -/
theorem exists_culprit {objects : List Members} (hdistinct : ∀ ms ∈ objects, (obj ms).Distinct) {i : Issue}
    (hi : i ∈ (Settings.check (.obj (mergeAll objects))).issues) :
    ∃ before culprit after, Culprit objects i before culprit after := by
  induction objects using List.reverseRecOn with
  | nil =>
    -- nothing at all is accepted
    cases hi
  | append_singleton objects ms ih =>
    by_cases hholds : HoldsAt ms i.place
    · refine ⟨objects, ms, [], rfl, hholds, by simp, ?_⟩
      intro more hmore
      rw [List.prefix_nil.mp hmore]
      exact hi
    · have hbefore : i ∈ (Settings.check (.obj (mergeAll objects))).issues := by
        rw [mergeAll_concat] at hi
        exact (holdsAt_or_before (hdistinct ms (by simp)) hi).resolve_left hholds
      obtain ⟨before, culprit, after, h⟩ :=
        ih (fun x hx => hdistinct x (List.mem_append_left _ hx)) hbefore
      refine ⟨before, culprit, after ++ [ms], ?_, h.holds, ?_, ?_⟩
      · rw [h.split]
        simp
      · intro later hlater
        rcases List.mem_append.mp hlater with hlater | hlater
        · exact h.last later hlater
        · rw [List.mem_singleton.mp hlater]
          exact hholds
      · intro more hmore
        rcases List.prefix_concat_iff.mp hmore with rfl | hmore
        · have hwhole : before ++ culprit :: (after ++ [ms]) = objects ++ [ms] := by
            rw [h.split]
            simp
          rw [hwhole]
          exact hi
        · exact h.stays more hmore

/-! ## The named source -/

/-- Under either name a field is in the same section. -/
theorem SameField.head? {p q : Place} (h : SameField p q) : q.head? = p.head? := by
  cases h with
  | same => rfl
  | inside => rfl

/-- What holds something at a place has the section of the place. -/
theorem HoldsAt.isSome_get? {ms : Members} {name : String} {place : Place} (h : HoldsAt ms (.key name :: place)) :
    (ms.get? name).isSome = true := by
  obtain ⟨q, hsame, hheld⟩ := h
  obtain ⟨rest, rfl⟩ := List.head?_eq_some_iff.mp hsame.head?
  simp only [Json.within?, Option.isSome_bind] at hheld
  exact Option.isSome_of_any hheld

/-- Sources that are refused have a last one, since nothing at all is accepted. -/
theorem exists_last_of_refused {sources : List Source} {issues : List Issue}
    (h : Settings.check (.obj (merged sources)) = .invalid issues) :
    ∃ before last, sources = before ++ [last] := by
  rcases List.eq_nil_or_concat sources with rfl | ⟨before, last, rfl⟩
  · cases h
  · exact ⟨before, last, by simp⟩

/-- The last source is named. -/
theorem result_get_of_refused {m : Manager} (before : List Source) {last : Source} {issues : List Issue}
    (hfresh : m.loaded = none) (hgather : (gather w m.directory).result = .ok (before ++ [last]))
    (hrefused : Settings.check (.obj (merged (before ++ [last]))) = .invalid issues) :
    (m.get w).2.result = .error (.config last.name (errorCount issues.length "Config") issues) := by
  rw [Manager.result_get hfresh hgather, settingsOf, hrefused]
  simp

/-- A refusal has an issue. -/
theorem exists_issue_of_refused {v : Json} {issues : List Issue} (h : Settings.check v = .invalid issues) :
    ∃ i, i ∈ issues := by
  apply List.exists_mem_of_ne_nil
  rintro rfl
  have htold := Settings.told_check v
  rw [h] at htold
  cases htold rfl

theorem distinct_of_sources {directory : String} {sources : List Source}
    (hgather : (gather w directory).result = .ok sources) : ∀ ms ∈ sources.map (·.data), (obj ms).Distinct := by
  intro ms hms
  obtain ⟨s, hs, rfl⟩ := List.mem_map.mp hms
  exact distinct_of_gather hgather s hs

/-- The last source holds something at the place of an issue, or the issue was there before it. -/
theorem last_holdsAt_or_before {directory : String} {before : List Source} {last : Source}
    (hgather : (gather w directory).result = .ok (before ++ [last])) {i : Issue}
    (hi : i ∈ (Settings.check (.obj (merged (before ++ [last])))).issues) :
    HoldsAt last.data i.place ∨ i ∈ (Settings.check (.obj (merged before))).issues := by
  rw [merged_eq_mergeAll, List.map_append, List.map_singleton, mergeAll_concat, ← merged_eq_mergeAll] at hi
  apply holdsAt_or_before _ hi
  exact distinct_of_gather hgather last (List.mem_append_right _ List.mem_cons_self)

/-- Every issue of gathered sources has a culprit among them. -/
theorem exists_culprit_source {directory : String} {sources : List Source}
    (hgather : (gather w directory).result = .ok sources) {i : Issue}
    (hi : i ∈ (Settings.check (.obj (merged sources))).issues) :
    ∃ earlier culprit later, sources = earlier ++ culprit :: later ∧
      Culprit (sources.map (·.data)) i (earlier.map (·.data)) culprit.data (later.map (·.data)) := by
  rw [merged_eq_mergeAll] at hi
  obtain ⟨earlier, culprit, later, h⟩ := exists_culprit (distinct_of_sources hgather) hi
  obtain ⟨earlier, rest, hsources, rfl, hrest⟩ := List.map_eq_append_iff.mp h.split
  obtain ⟨culprit, later, rfl, rfl, rfl⟩ := List.map_eq_cons_iff.mp hrest
  exact ⟨earlier, culprit, later, hsources, h⟩

/-- **The source that a refusal names holds something at the place of an issue, unless all issues were there
before it.** Each issue has a culprit among the sources, whichever of them is named. -/
theorem named_source_guilty {m : Manager} {sources : List Source} {issues : List Issue} (hfresh : m.loaded = none)
    (hgather : (gather w m.directory).result = .ok sources)
    (hrefused : Settings.check (.obj (merged sources)) = .invalid issues) :
    ∃ before last, sources = before ++ [last] ∧
      (m.get w).2.result = .error (.config last.name (errorCount issues.length "Config") issues) ∧
      ((∃ i ∈ issues, HoldsAt last.data i.place) ∨
        ∀ i ∈ issues, i ∈ (Settings.check (.obj (merged before))).issues) ∧
      ((Settings.check (.obj (merged before))).isValid = true → ∃ i ∈ issues, HoldsAt last.data i.place) ∧
      ∀ i ∈ issues, ∃ earlier culprit later, sources = earlier ++ culprit :: later ∧
        Culprit (sources.map (·.data)) i (earlier.map (·.data)) culprit.data (later.map (·.data)) := by
  have hissues : (Settings.check (.obj (merged sources))).issues = issues := by
    rw [hrefused]
    rfl
  have hculprit := fun i hi => exists_culprit_source hgather (i := i) (hissues ▸ hi)
  obtain ⟨before, last, rfl⟩ := exists_last_of_refused hrefused
  have htraced : ∀ i ∈ issues,
      HoldsAt last.data i.place ∨ i ∈ (Settings.check (.obj (merged before))).issues := by
    intro i hi
    exact last_holdsAt_or_before hgather (hissues ▸ hi)
  refine ⟨before, last, rfl, result_get_of_refused before hfresh hgather hrefused, ?_, ?_, hculprit⟩
  · by_cases hguilty : ∃ i ∈ issues, HoldsAt last.data i.place
    · exact .inl hguilty
    · right
      intro i hi
      exact (htraced i hi).resolve_left fun h => hguilty ⟨i, hi, h⟩
  · intro haccepted
    obtain ⟨i, hi⟩ := exists_issue_of_refused hrefused
    refine ⟨i, hi, (htraced i hi).resolve_right ?_⟩
    -- sources that are accepted have no issue of their own
    cases hcheck : Settings.check (.obj (merged before)) with
    | valid settings => exact List.not_mem_nil
    | invalid others =>
      rw [hcheck] at haccepted
      cases haccepted

/-- The socket of the inner directory is what there is one endpoint too many for, and its file is named. -/
theorem splitEndpoints_named :
    let sources : List Source :=
      [⟨"/p/glint.json", [("lsp", .obj [("command", .arr [.str "x"])])]⟩,
        ⟨"/p/a/glint.json", [("lsp", .obj [("socket", .str "h:1")])]⟩]
    ∃ issues before last, (gather splitEndpoints "/p/a").result = .ok sources ∧
      Settings.check (.obj (merged sources)) = .invalid issues ∧ sources = before ++ [last] ∧
      (Manager.get splitEndpoints ⟨"/p/a", none⟩).2.result =
        .error (.config last.name (errorCount issues.length "Config") issues) ∧
      last.name = "/p/a/glint.json" ∧ ∃ i ∈ issues, HoldsAt last.data i.place := by
  intro sources
  have hgather : (gather splitEndpoints "/p/a").result = .ok sources := by decide +kernel
  obtain ⟨issues, hrefused⟩ : ∃ issues, Settings.check (.obj (merged sources)) = .invalid issues := ⟨_, rfl⟩
  obtain ⟨before, last, hsplit, hget, -, hguilty, -⟩ :=
    named_source_guilty (m := ⟨"/p/a", none⟩) rfl hgather hrefused
  have houter : before = sources.dropLast := by rw [hsplit, List.dropLast_concat]
  have hinner : some last = sources.getLast? := by rw [hsplit, List.getLast?_concat]
  cases hinner
  exact ⟨issues, before, _, hgather, hrefused, hsplit, hget, rfl, hguilty (by rw [houter]; decide +kernel)⟩

/-- A project with a key that is not known and, in its inner directory, a theme. -/
def innocentTheme : World where
  tree := ⟨[("/p/glint.json", utf8Encode (serverText [("commnd", .arr [.str "x"])]).toList),
    ("/p/a/glint.json", utf8Encode (Json.toText .wire (.obj [("highlight", .obj [("theme", .str "native")])])).toList)], []⟩
  env := [("GLINT_CONFIG_DIR", "/c")]
  cwd := "/"

/-- **A refusal may name a source that is innocent**: the inner file is named, and it says nothing about servers. -/
theorem innocent_source_named :
    ¬ ∀ (w : World) (m : Manager) (sources : List Source) (issues : List Issue), m.loaded = none →
      (gather w m.directory).result = .ok sources →
      Settings.check (.obj (merged sources)) = .invalid issues →
      ∃ s ∈ sources, (m.get w).2.result = .error (.config s.name (errorCount issues.length "Config") issues) ∧
        ∃ i ∈ issues, HoldsAt s.data i.place := by
  intro h
  have hgather : (gather innocentTheme "/p/a").result = .ok
      [⟨"/p/glint.json", [("lsp", .obj [("commnd", .arr [.str "x"])])]⟩,
        ⟨"/p/a/glint.json", [("highlight", .obj [("theme", .str "native")])]⟩] := by
    decide +kernel
  obtain ⟨s, hs, hget, i, hi, hholds⟩ := h innocentTheme ⟨"/p/a", none⟩ _ _ rfl hgather rfl
  have hnamed := result_get_of_refused (m := ⟨"/p/a", none⟩) [_] rfl hgather rfl
  rw [hnamed] at hget
  cases List.mem_singleton.mp hi
  rcases List.mem_pair.mp hs with rfl | rfl
  · -- the outer file is not the one that is named
    simp at hget
  · cases hholds.isSome_get?

end Config

end EditorServices
