import EditorServices.Proofs.Config.Precedence
import EditorServices.Proofs.Schema.Origins
import EditorServices.Proofs.Schema.Readings

/-!
# `Proofs.Config.Acceptance` — when accepted sources make up an accepted configuration

Sources that are accepted one by one need not be accepted when they are laid over each other. All of the
check is kept by merging but two rules that look at several members at once: a field may not be given under
both of its names, and a command and a socket may not both be configured. Nothing else can go wrong, so the
sources themselves tell whether they are accepted together.

## Contents
- **Values.** The checks of fields that no object passes.
- **Sections.** The `plan` of each section, and what follows for its check; `Section`, the fields and the rule.
- **The whole.** `Settings.isValid_iff`.
- **Merging.** `SpelledDifferently`, `TwoEndpoints`, and when a merge of sources is accepted.
- **Gathered sources.** What a load gives has distinct names, and `get_isOk_iff` for any load.
- **Sources that are refused together.** Two endpoints, and two spellings of one field.
-/

namespace EditorServices

open Schema Json

/-! ## Values -/

namespace Schema

variable {α : Type}

/-- No object passes a check. -/
def PlainOnly (check : Json → Checked α) : Prop := ∀ ms, (check (.obj ms)).isValid = false

theorem PlainOnly.nullable {check : Json → Checked α} (h : PlainOnly check) : PlainOnly (nullable check) := by
  intro ms
  unfold Schema.nullable
  rw [Checked.isValid_map, h ms]

theorem PlainOnly.isObject {check : Json → Checked α} (h : PlainOnly check) (v : Json)
    (hv : (check v).isValid = true) : v.isObject = false := by
  cases v with
  | obj ms =>
    rw [h ms] at hv
    cases hv
  | _ => rfl

theorem PlainOnly.stable {check : Json → Checked α} (h : PlainOnly check) :
    Stable fun v => (check v).isValid = true :=
  stable_of_plain h.isObject

theorem plainOnly_string : PlainOnly string := fun _ => rfl

theorem plainOnly_boolean : PlainOnly boolean := fun _ => rfl

theorem plainOnly_naturalFrom (least : Nat) : PlainOnly (naturalFrom least) := fun _ => rfl

theorem plainOnly_listOf (check : Json → Checked α) : PlainOnly (listOf check) := fun _ => rfl

theorem plainOnly_word (choices : List (String × α)) : PlainOnly (word choices) := fun _ => rfl

theorem plainOnly_checkSocket : PlainOnly LspConfig.checkSocket := fun _ => rfl

end Schema

/-! ## Sections -/

namespace LspConfig

theorem simple_checkSocket (v : Json) : (checkSocket v).Simple := by
  apply (simple_string v).refine
  intro s
  split
  · exact .valid s
  · exact .fail _ v

/-- The fields of the section and their checks. -/
def plan : Plan LspConfig :=
  (Plan.first LspConfig.mk ⟨commandField, none, nullable (listOf string), Eq, fun _ => rfl,
      told_nullable (told_listOf fun v => (simple_string v).told), (traceable_listOf simple_string).nullable⟩)
    |>.next (.plain socketField none (simple_nullable simple_checkSocket))
    |>.next (.plain languageField none (simple_nullable simple_string))
    |>.next (.plain delayField 300 (simple_naturalFrom 0))
    |>.next (.plain warningField false simple_boolean)
    |>.next (.plain errorField false simple_boolean)
    |>.next ⟨envField, [], dictOf string, Eq, fun _ => rfl, told_dictOf fun v => (simple_string v).told,
      traceable_dictOf simple_string⟩

/-- The check of the section is that of its plan, and its rule after that. -/
theorem checkMembers_eq (ms : Members) : checkMembers ms = (plan.check ms).refine (oneEndpoint ms) := rfl

/-- The words of a command are given. -/
def NamesCommand (ms : Members) : Prop := ∃ word words, ms.get? "command" = some (.arr (word :: words))

/-- The text of a socket is given. -/
def NamesSocket (ms : Members) : Prop := ∃ s, ms.get? "socket" = some (.str s)

theorem unambiguous_fields : Unambiguous plan.fields :=
  (by decide : (plan.fields.flatMap fun f => f.name.spellings).Nodup)

theorem stable_fields : ∀ f ∈ plan.fields, Stable f.accepts := by
  simp only [plan, Plan.fields, List.cons_append, List.nil_append, List.forall_mem_cons, List.not_mem_nil,
    false_implies, implies_true, and_true]
  exact ⟨(plainOnly_listOf string).nullable.stable, plainOnly_checkSocket.nullable.stable,
    plainOnly_string.nullable.stable, (plainOnly_naturalFrom 0).stable, plainOnly_boolean.stable,
    plainOnly_boolean.stable, stable_dictOf plainOnly_string.isObject⟩

/-- What is read of the command names one exactly if its words are given. -/
theorem hasCommand_iff {ms : Members} {command : Option (List String)}
    (h : optional ms commandField none (nullable (listOf string)) = .valid command) :
    (command.any fun words => !words.isEmpty) = true ↔ NamesCommand ms := by
  unfold NamesCommand
  rcases optional_eq_valid h with ⟨hnone, rfl⟩ | ⟨v, hv, hcheck⟩
  · replace hnone : ms.get? "command" = none := hnone
    simp [hnone]
  · replace hv : ms.get? "command" = some v := hv
    rcases nullable_eq_valid hcheck with ⟨rfl, rfl⟩ | ⟨words, rfl, hlist⟩
    · simp [hv]
    · obtain ⟨items, rfl, hlength⟩ := listOf_eq_valid hlist
      cases items with
      | nil =>
        cases List.length_eq_zero_iff.mp hlength
        simp [hv]
      | cons item items =>
        have hne : words ≠ [] := List.ne_nil_of_length_eq_add_one hlength
        simp [hv, hne]

/-- A text without a colon is no socket, so what is read of the socket names one exactly if it is given. -/
theorem hasSocket_iff {ms : Members} {socket : Option String}
    (h : optional ms socketField none (nullable checkSocket) = .valid socket) :
    (socket.any fun s => !s.isEmpty) = true ↔ NamesSocket ms := by
  unfold NamesSocket
  rcases optional_eq_valid h with ⟨hnone, rfl⟩ | ⟨v, hv, hcheck⟩
  · replace hnone : ms.get? "socket" = none := hnone
    simp [hnone]
  · replace hv : ms.get? "socket" = some v := hv
    rcases nullable_eq_valid hcheck with ⟨rfl, rfl⟩ | ⟨s, rfl, hsocket⟩
    · simp [hv]
    · cases v with
      | str text =>
        change (if isSocketText text.toList then Checked.valid text else _) = _ at hsocket
        split at hsocket
        · next htext =>
          cases hsocket
          have hne : s ≠ "" := by
            rintro rfl
            exact absurd htext (by decide)
          simp [hv, hne]
        · cases hsocket
      | _ => cases hsocket

/-- The rule of the section, told from its members. -/
theorem isValid_oneEndpoint {ms : Members} {c : LspConfig} (hcommand : c.hasCommand = true ↔ NamesCommand ms)
    (hsocket : c.hasSocket = true ↔ NamesSocket ms) :
    (oneEndpoint ms c).isValid = true ↔ ¬ (NamesCommand ms ∧ NamesSocket ms) := by
  unfold oneEndpoint
  rw [← hcommand, ← hsocket, ← Bool.and_eq_true]
  cases c.hasCommand && c.hasSocket <;> simp

/-- **A section of a server passes if its fields do and it names one endpoint at most.** -/
theorem isValid_checkMembers (ms : Members) :
    (checkMembers ms).isValid = true ↔ Fits plan.fields ms ∧ ¬ (NamesCommand ms ∧ NamesSocket ms) := by
  rw [checkMembers_eq, ← plan.isValid_check]
  cases hcheck : plan.check ms with
  | valid c =>
    -- the rule is about what was read, and that there is only if every field passes
    obtain ⟨hread, -⟩ := Checked.withIssues_eq_valid_iff.mp hcheck
    obtain ⟨_, env, h₆, -, rfl⟩ := Checked.ap_eq_valid hread
    obtain ⟨_, error, h₅, -, rfl⟩ := Checked.ap_eq_valid h₆
    obtain ⟨_, warning, h₄, -, rfl⟩ := Checked.ap_eq_valid h₅
    obtain ⟨_, delay, h₃, -, rfl⟩ := Checked.ap_eq_valid h₄
    obtain ⟨_, language, h₂, -, rfl⟩ := Checked.ap_eq_valid h₃
    obtain ⟨_, socket, h₁, hsocket, rfl⟩ := Checked.ap_eq_valid h₂
    obtain ⟨command, hcommand, rfl⟩ := Checked.map_eq_valid_iff.mp h₁
    exact (isValid_oneEndpoint (c := ⟨command, socket, language, delay, warning, error, env⟩)
      (hasCommand_iff hcommand) (hasSocket_iff hsocket)).trans (and_iff_right rfl).symm
  | invalid issues => exact ⟨fun h => absurd h Bool.false_ne_true, fun h => absurd h.1 Bool.false_ne_true⟩

theorem traceable_check : Traceable (SameIn fields) fun v => (check v).issues := by
  apply plan.traceable (respectsFields_sameIn (by simp [plan, Plan.parts, Slot.part, Slot.plain]))
  · intro ms i hi
    rcases Checked.mem_issues_refine.mp hi with hi | ⟨c, -, hi⟩
    · exact .inr hi
    · -- the rule is about the whole
      left
      unfold oneEndpoint at hi
      split at hi
      · cases List.mem_singleton.mp hi
        rfl
      · cases hi
  · intro ms i hi
    exact Checked.mem_issues_refine.mpr (.inl hi)

theorem told_check (v : Json) : (check v).Told := by
  apply told_record
  intro ms
  apply (plan.told_check ms).refine
  intro c
  unfold oneEndpoint
  split
  · exact Checked.told_fail _ _
  · exact Checked.told_valid _

end LspConfig

namespace HighlightConfig

/-- The fields of the section and their checks. -/
def plan : Plan HighlightConfig :=
  (Plan.first HighlightConfig.mk (.plain themeField defaultTheme simple_string))
    |>.next (.plain thresholdField defaultThreshold (simple_naturalFrom 1))
    |>.next (.plain workerField .process (simple_word WorkerKind.choices))

theorem unambiguous_fields : Unambiguous plan.fields :=
  (by decide : (plan.fields.flatMap fun f => f.name.spellings).Nodup)

theorem stable_fields : ∀ f ∈ plan.fields, Stable f.accepts := by
  simp only [plan, Plan.fields, List.cons_append, List.nil_append, List.forall_mem_cons, List.not_mem_nil,
    false_implies, implies_true, and_true]
  exact ⟨plainOnly_string.stable, (plainOnly_naturalFrom 1).stable, (plainOnly_word _).stable⟩

theorem isValid_check (v : Json) :
    (check v).isValid = true ↔ ∃ ms, v = .obj ms ∧ Fits plan.fields ms :=
  isValid_record.trans (exists_congr fun ms => and_congr_right fun _ => plan.isValid_check ms)

theorem traceable_check : Traceable (SameIn fields) fun v => (check v).issues :=
  plan.traceable_check (respectsFields_sameIn (by simp [plan, Plan.parts, Slot.part, Slot.plain])) _

theorem told_check (v : Json) : (check v).Told := told_record _ plan.told_check v

end HighlightConfig

namespace LoggingConfig

/-- The fields of the section and their checks. -/
def plan : Plan LoggingConfig :=
  (Plan.first LoggingConfig.mk (.plain levelField none (simple_nullable simple_string)))
    |>.next (.plain formatField none (simple_nullable (simple_word formatWords)))
    |>.next (.plain consoleField none (simple_nullable simple_boolean))
    |>.next (.plain fileField none (simple_nullable simple_boolean))

theorem unambiguous_fields : Unambiguous plan.fields :=
  (by decide : (plan.fields.flatMap fun f => f.name.spellings).Nodup)

theorem stable_fields : ∀ f ∈ plan.fields, Stable f.accepts := by
  simp only [plan, Plan.fields, List.cons_append, List.nil_append, List.forall_mem_cons, List.not_mem_nil,
    false_implies, implies_true, and_true]
  exact ⟨plainOnly_string.nullable.stable, (plainOnly_word _).nullable.stable, plainOnly_boolean.nullable.stable,
    plainOnly_boolean.nullable.stable⟩

theorem isValid_check (v : Json) :
    (check v).isValid = true ↔ ∃ ms, v = .obj ms ∧ Fits plan.fields ms :=
  isValid_record.trans (exists_congr fun ms => and_congr_right fun _ => plan.isValid_check ms)

theorem traceable_check : Traceable (SameIn fields) fun v => (check v).issues :=
  plan.traceable_check (respectsFields_sameIn (by simp [plan, Plan.parts, Slot.part, Slot.plain])) _

theorem told_check (v : Json) : (check v).Told := told_record _ plan.told_check v

end LoggingConfig

/-- A section of a configuration: its fields, and a rule about its members together. -/
structure Section where
  name : String
  fields : List Field
  rule : Members → Prop

namespace Section

/-- The section as a field whose values pass its whole check. -/
def checked (s : Section) : Field :=
  ⟨.plain s.name, fun v => ∃ ms, v = .obj ms ∧ Fits s.fields ms ∧ s.rule ms⟩

/-- The section as a field of which only the known names and their values count. -/
def loose (s : Section) : Field := .ofRecord (.plain s.name) s.fields

/-- Passing the check is holding known names, and further no field twice, and to keep the rule. -/
theorem known_checked_iff {sections : List Section} (hnames : (sections.map (·.name)).Nodup)
    (hfields : ∀ s ∈ sections, Unambiguous s.fields) {ms : Members} :
    Known (sections.map checked) ms ↔ Known (sections.map loose) ms ∧
      ∀ s ∈ sections, ∀ inner, ms.get? s.name = some (.obj inner) →
        (∀ f ∈ s.fields, ¬ f.name.SpelledTwice inner) ∧ s.rule inner := by
  constructor
  · intro h
    refine ⟨fun name v hv => ?_, fun s hs inner hinner => ?_⟩
    · obtain ⟨f, hf, hname, haccepts⟩ := h name v hv
      obtain ⟨s, hs, rfl⟩ := List.mem_map.mp hf
      obtain ⟨inner, rfl, hfits, -⟩ := haccepts
      exact ⟨s.loose, List.mem_map_of_mem hs, hname, inner, rfl, ((fits_iff (hfields s hs)).mp hfits).1⟩
    · obtain ⟨f, hf, hname, haccepts⟩ := h s.name _ hinner
      obtain ⟨t, ht, rfl⟩ := List.mem_map.mp hf
      -- the field that takes the value is that of the section itself, since sections have different names
      cases List.inj_on_of_nodup_map hnames hs ht (List.mem_singleton.mp hname)
      obtain ⟨inner', hobj, hfits, hrule⟩ := haccepts
      cases hobj
      exact ⟨((fits_iff (hfields s hs)).mp hfits).2, hrule⟩
  · rintro ⟨h, hrules⟩ name v hv
    obtain ⟨f, hf, hname, haccepts⟩ := h name v hv
    obtain ⟨s, hs, rfl⟩ := List.mem_map.mp hf
    obtain ⟨inner, rfl, hknown⟩ := haccepts
    obtain rfl : name = s.name := List.mem_singleton.mp hname
    obtain ⟨honce, hrule⟩ := hrules s hs inner hv
    exact ⟨s.checked, List.mem_map_of_mem hs, hname, inner, rfl,
      (fits_iff (hfields s hs)).mpr ⟨hknown, honce⟩, hrule⟩

end Section

/-! ## The whole -/

namespace Settings

/-- The sections of a configuration. -/
def sections : List Section :=
  [⟨"lsp", LspConfig.plan.fields, fun ms => ¬ (LspConfig.NamesCommand ms ∧ LspConfig.NamesSocket ms)⟩,
   ⟨"highlight", HighlightConfig.plan.fields, fun _ => True⟩,
   ⟨"logging", LoggingConfig.plan.fields, fun _ => True⟩]

theorem unambiguous_sections : ∀ s ∈ sections, Unambiguous s.fields := by
  simp only [sections, List.forall_mem_cons, List.not_mem_nil, false_implies, implies_true, and_true]
  exact ⟨LspConfig.unambiguous_fields, HighlightConfig.unambiguous_fields,
    LoggingConfig.unambiguous_fields⟩

theorem stable_sections : ∀ s ∈ sections, Stable s.loose.accepts := by
  simp only [sections, List.forall_mem_cons, List.not_mem_nil, false_implies, implies_true, and_true]
  exact ⟨stable_ofRecord _ LspConfig.unambiguous_fields LspConfig.stable_fields,
    stable_ofRecord _ HighlightConfig.unambiguous_fields HighlightConfig.stable_fields,
    stable_ofRecord _ LoggingConfig.unambiguous_fields LoggingConfig.stable_fields⟩

/-- The sections as the fields of the whole. -/
def plan : Plan Settings :=
  (Plan.first Settings.mk ⟨lspField, .empty, LspConfig.check, SameIn LspConfig.fields, .same,
      LspConfig.told_check, LspConfig.traceable_check⟩)
    |>.next ⟨highlightField, .empty, HighlightConfig.check, SameIn HighlightConfig.fields, .same,
      HighlightConfig.told_check, HighlightConfig.traceable_check⟩
    |>.next ⟨loggingField, .empty, LoggingConfig.check, SameIn LoggingConfig.fields, .same,
      LoggingConfig.told_check, LoggingConfig.traceable_check⟩

theorem fields_plan : plan.fields = sections.map Section.checked := by
  have hlsp : ∀ v, (LspConfig.check v).isValid = true ↔ ∃ ms, v = .obj ms ∧ Fits LspConfig.plan.fields ms ∧
      ¬ (LspConfig.NamesCommand ms ∧ LspConfig.NamesSocket ms) := fun v =>
    isValid_record.trans (exists_congr fun ms => and_congr_right fun _ => LspConfig.isValid_checkMembers ms)
  simp only [plan, Plan.fields, Slot.field, sections, Section.checked, List.cons_append, List.nil_append,
    List.map_cons, List.map_nil, hlsp, HighlightConfig.isValid_check, LoggingConfig.isValid_check, and_true]
  rfl

theorem isValid_check (ms : Members) :
    (check (.obj ms)).isValid = true ↔ Fits (sections.map Section.checked) ms :=
  fields_plan ▸ plan.isValid_check ms

/-- **An object is accepted** if its names and those of its sections are known, no section gives a field
twice, and no server has two endpoints. -/
theorem isValid_iff (ms : Members) :
    (check (.obj ms)).isValid = true ↔ Known (sections.map Section.loose) ms ∧
      ∀ s ∈ sections, ∀ inner, ms.get? s.name = some (.obj inner) →
        (∀ f ∈ s.fields, ¬ f.name.SpelledTwice inner) ∧ s.rule inner := by
  have hplain : ∀ f ∈ sections.map Section.checked, ¬ f.name.SpelledTwice ms := by
    rintro f hf ⟨alt, halt, -⟩
    obtain ⟨s, -, rfl⟩ := List.mem_map.mp hf
    cases halt
  have hdistinct : ((sections.map Section.checked).flatMap fun f => f.name.spellings).Nodup := by decide
  rw [isValid_check, fits_iff hdistinct, and_iff_left hplain,
    Section.known_checked_iff (by decide) unambiguous_sections]

end Settings

namespace Config

/-! ## Merging -/

/-- The names of the fields of each section. -/
def sectionFields : List (String × List FieldName) :=
  [("lsp", LspConfig.fields), ("highlight", HighlightConfig.fields), ("logging", LoggingConfig.fields)]

/-- One of some objects holds something at a path. -/
def Mentions (objects : List Members) (path : List String) : Prop :=
  ∃ ms ∈ objects, ((obj ms).at? path).isSome = true

/-- One of some objects gives a field under its own name, and one under its name in files. -/
def SpelledDifferently (objects : List Members) : Prop :=
  ∃ s ∈ sectionFields, ∃ f ∈ s.2, ∃ alt, f.inFiles = some alt ∧
    Mentions objects [s.1, f.name] ∧ Mentions objects [s.1, alt]

/-- The last object that says anything about a command gives words, and the last one that says anything about
a socket gives a text. -/
def TwoEndpoints (objects : List Members) : Prop :=
  (∃ word words, LastHolds objects ["lsp", "command"] (.arr (word :: words))) ∧
    ∃ s, LastHolds objects ["lsp", "socket"] (.str s)

/-- An object whose members are objects. -/
def Sectioned (ms : Members) : Prop := ∀ name v, ms.get? name = some v → v.isObject = true

theorem sectioned_of_known {ms : Members} (h : Known (Settings.sections.map Section.loose) ms) : Sectioned ms := by
  intro name v hv
  obtain ⟨f, hf, -, haccepts⟩ := h name v hv
  obtain ⟨s, -, rfl⟩ := List.mem_map.mp hf
  obtain ⟨inner, rfl, -⟩ := haccepts
  rfl

theorem Sectioned.merge {base override : Members} (hdistinct : (obj override).Distinct) (hbase : Sectioned base)
    (hoverride : Sectioned override) : Sectioned (merge base override) := by
  intro name v hv
  rw [get?_merge base hdistinct.names] at hv
  cases ho : override.get? name with
  | none =>
    rw [ho] at hv
    exact hbase name v hv
  | some w =>
    obtain ⟨inner, rfl⟩ := exists_obj_of_isObject (hoverride name w ho)
    rw [ho] at hv
    cases hv
    unfold mergeValue
    split <;> rfl

/-- Among sections no merge takes anything away. -/
theorem isSome_at?_merge {base override : Members} (hdistinct : (obj override).Distinct)
    (hbase : Sectioned base) (hoverride : Sectioned override) (name key : String) :
    ((obj (merge base override)).at? [name, key]).isSome = true ↔
      ((obj base).at? [name, key]).isSome = true ∨ ((obj override).at? [name, key]).isSome = true := by
  rw [isSome_at?_pair, isSome_at?_pair, isSome_at?_pair, get?_merge base hdistinct.names]
  cases ho : override.get? name with
  | none => simp
  | some w =>
    obtain ⟨upper, rfl⟩ := exists_obj_of_isObject (hoverride name w ho)
    cases hb : base.get? name with
    | none => simp [mergeValue]
    | some u =>
      obtain ⟨under, rfl⟩ := exists_obj_of_isObject (hbase name u hb)
      have hinner := get?_merge under (hdistinct.get? ho).names key
      cases hupper : Named.get? upper key <;> simp [mergeValue, hinner, hupper]

theorem isSome_at?_mergeAll {objects : List Members} (hdistinct : ∀ ms ∈ objects, (obj ms).Distinct)
    (hsections : ∀ ms ∈ objects, Sectioned ms) (name key : String) :
    Sectioned (mergeAll objects) ∧
      (((obj (mergeAll objects)).at? [name, key]).isSome = true ↔ Mentions objects [name, key]) := by
  induction objects using List.reverseRecOn with
  | nil =>
    refine ⟨nofun, ?_⟩
    rw [isSome_at?_pair]
    simp [Mentions, mergeAll]
  | append_singleton objects ms ih =>
    have hlast : ms ∈ objects ++ [ms] := by simp
    obtain ⟨hbase, hmentions⟩ := ih (fun x hx => hdistinct x (List.mem_append_left _ hx))
      fun x hx => hsections x (List.mem_append_left _ hx)
    rw [mergeAll_concat]
    refine ⟨hbase.merge (hdistinct ms hlast) (hsections ms hlast), ?_⟩
    rw [isSome_at?_merge (hdistinct ms hlast) hbase (hsections ms hlast), hmentions]
    simp [Mentions, or_and_right, exists_or]

/-- A merged object gives a field of a section twice exactly if its parts spell it differently. -/
theorem spelledTwice_mergeAll_iff {objects : List Members} (hdistinct : ∀ ms ∈ objects, (obj ms).Distinct)
    (hsections : ∀ ms ∈ objects, Sectioned ms) :
    (∃ s ∈ Settings.sections, ∃ inner : Members, (mergeAll objects).get? s.name = some (.obj inner) ∧
      ∃ f ∈ s.fields, f.name.SpelledTwice inner) ↔ SpelledDifferently objects := by
  have hnames : Settings.sections.map (fun s => (s.name, s.fields.map (·.name))) = sectionFields := rfl
  constructor
  · rintro ⟨s, hs, inner, hinner, f, hf, alt, halt, hname, hhas⟩
    have hheld : ∀ key, (inner.get? key).isSome = true → Mentions objects [s.name, key] := fun key hkey =>
      (isSome_at?_mergeAll hdistinct hsections s.name key).2.mp (isSome_at?_pair.mpr ⟨inner, hinner, hkey⟩)
    exact ⟨(s.name, s.fields.map (·.name)), hnames ▸ List.mem_map_of_mem hs, f.name, List.mem_map_of_mem hf, alt,
      halt, hheld _ hname, hheld _ hhas⟩
  · rintro ⟨p, hp, fn, hfn, alt, halt, hname, hhas⟩
    rw [← hnames] at hp
    obtain ⟨s, hs, rfl⟩ := List.mem_map.mp hp
    obtain ⟨f, hf, rfl⟩ := List.mem_map.mp hfn
    obtain ⟨inner, hinner, hname⟩ :=
      isSome_at?_pair.mp ((isSome_at?_mergeAll hdistinct hsections _ _).2.mpr hname)
    obtain ⟨inner', hinner', hhas⟩ :=
      isSome_at?_pair.mp ((isSome_at?_mergeAll hdistinct hsections _ _).2.mpr hhas)
    rw [hinner] at hinner'
    cases hinner'
    exact ⟨s, hs, inner, hinner, f, hf, alt, halt, hname, hhas⟩

/-- A merged object names two endpoints exactly if its parts do. -/
theorem twoEndpoints_mergeAll_iff {objects : List Members} (hdistinct : ∀ ms ∈ objects, (obj ms).Distinct) :
    (∃ inner : Members, (mergeAll objects).get? "lsp" = some (.obj inner) ∧ LspConfig.NamesCommand inner ∧
      LspConfig.NamesSocket inner) ↔ TwoEndpoints objects := by
  have hheld : ∀ key v, v.isObject = false → (LastHolds objects ["lsp", key] v ↔
      ∃ inner : Members, (mergeAll objects).get? "lsp" = some (.obj inner) ∧ inner.get? key = some v) :=
    fun key v hv => by rw [← at?_mergeAll_iff hdistinct hv, at?_pair]
  constructor
  · rintro ⟨inner, hinner, ⟨word, words, hcommand⟩, s, hsocket⟩
    exact ⟨⟨word, words, (hheld _ _ rfl).mpr ⟨inner, hinner, hcommand⟩⟩, s,
      (hheld _ _ rfl).mpr ⟨inner, hinner, hsocket⟩⟩
  · rintro ⟨⟨word, words, hcommand⟩, s, hsocket⟩
    obtain ⟨inner, hinner, hcommand⟩ := (hheld _ _ rfl).mp hcommand
    obtain ⟨inner', hinner', hsocket⟩ := (hheld _ _ rfl).mp hsocket
    rw [hinner] at hinner'
    cases hinner'
    exact ⟨inner, hinner, ⟨word, words, hcommand⟩, s, hsocket⟩

/-- **Accepted objects are accepted together** unless they spell a field differently or name two endpoints. -/
theorem isValid_mergeAll_iff {objects : List Members} (hdistinct : ∀ ms ∈ objects, (obj ms).Distinct)
    (haccepted : ∀ ms ∈ objects, (Settings.check (.obj ms)).isValid = true) :
    (Settings.check (.obj (mergeAll objects))).isValid = true ↔
      ¬ SpelledDifferently objects ∧ ¬ TwoEndpoints objects := by
  have hknown : ∀ ms ∈ objects, Known (Settings.sections.map Section.loose) ms := fun ms hms =>
    ((Settings.isValid_iff ms).mp (haccepted ms hms)).1
  have hmerged : Known (Settings.sections.map Section.loose) (mergeAll objects) := by
    refine Known.mergeAll
      (by decide : ((Settings.sections.map Section.loose).flatMap fun f => f.name.spellings).Nodup)
      (fun f hf => ?_) hdistinct hknown
    obtain ⟨s, hs, rfl⟩ := List.mem_map.mp hf
    exact Settings.stable_sections s hs
  -- known names are kept by merging, so what is left is a field given twice, or the rule about endpoints
  rw [Settings.isValid_iff, and_iff_right hmerged,
    ← spelledTwice_mergeAll_iff hdistinct fun ms hms => sectioned_of_known (hknown ms hms),
    ← twoEndpoints_mergeAll_iff hdistinct]
  constructor
  · intro h
    refine ⟨?_, ?_⟩
    · rintro ⟨s, hs, inner, hinner, f, hf, htwice⟩
      exact (h s hs inner hinner).1 f hf htwice
    · rintro ⟨inner, hinner, hboth⟩
      exact (h _ List.mem_cons_self inner hinner).2 hboth
  · rintro ⟨honce, hone⟩ s hs inner hinner
    refine ⟨fun f hf htwice => honce ⟨s, hs, inner, hinner, f, hf, htwice⟩, ?_⟩
    simp only [Settings.sections, List.mem_cons, List.not_mem_nil, or_false] at hs
    rcases hs with rfl | rfl | rfl
    · exact fun hboth => hone ⟨inner, hinner, hboth⟩
    · trivial
    · trivial

/-! ## Gathered sources -/

variable {w : World}

/-- What the load of a file gives has no name twice. -/
theorem distinct_of_loadFile {env : Environment} {name : String} {found : FileTree.Found} {ms : Members}
    (h : (loadFile env name found).result = .ok ms) : (obj ms).Distinct := by
  unfold loadFile at h
  cases found with
  | nothing | directory | lockedFile | lockedDirectory =>
    cases h
    exact distinct_empty
  | refused => cases h
  | file bytes =>
    dsimp only at h
    cases hread : readBytes env bytes with
    | object data =>
      rw [hread] at h
      cases h
      exact distinct_of_readBytes hread
    | misplacedToken =>
      rw [hread] at h
      cases h
    | tooDeep =>
      rw [hread] at h
      cases h
    | _ =>
      rw [hread] at h
      cases h
      exact distinct_empty

theorem distinct_of_gatherFiles {message : String} {paths : List String} {sources : List Source}
    (h : (gatherFiles w message paths).result = .ok sources) : ∀ s ∈ sources, (obj s.data).Distinct := by
  induction paths generalizing sources with
  | nil =>
    cases h
    exact fun s hs => by cases hs
  | cons path paths ih =>
    unfold gatherFiles at h
    obtain ⟨data, hload, h⟩ := result_bind_eq_ok h
    split at h
    · exact ih h
    · obtain ⟨-, -, h⟩ := result_bind_eq_ok h
      obtain ⟨more, hmore, h⟩ := result_bind_eq_ok h
      cases h
      intro s hs
      rcases List.mem_cons.mp hs with rfl | hs
      · exact distinct_of_loadFile hload
      · exact ih hmore s hs

theorem distinct_of_gatherVariable {env : Environment} {sources : List Source}
    (h : (gatherVariable env).result = .ok sources) : ∀ s ∈ sources, (obj s.data).Distinct := by
  unfold gatherVariable at h
  split at h
  · cases h
    exact fun s hs => by cases hs
  · split at h
    · cases h
    · next hread =>
      cases h
      intro s hs
      cases List.mem_singleton.mp hs
      exact distinct_of_readConfig hread
    · cases h

/-- No source has a name twice. -/
theorem distinct_of_gather {directory : String} {sources : List Source}
    (h : (gather w directory).result = .ok sources) : ∀ s ∈ sources, (obj s.data).Distinct := by
  unfold gather at h
  obtain ⟨user, huser, h⟩ := result_bind_eq_ok h
  obtain ⟨project, hproject, h⟩ := result_bind_eq_ok h
  obtain ⟨variable', hvariable, h⟩ := result_bind_eq_ok h
  cases h
  intro s hs
  rcases List.mem_append.mp hs with hs | hs
  · rcases List.mem_append.mp hs with hs | hs
    · exact distinct_of_gatherFiles huser s hs
    · unfold gatherProject at hproject
      split at hproject
      · cases hproject
      · exact distinct_of_gatherFiles hproject s hs
  · exact distinct_of_gatherVariable hvariable s hs

/-- **A configuration whose sources are accepted one by one is loaded** unless they spell a field of a section
differently or one of them configures a command and another one a socket that no later source takes back. -/
theorem get_isOk_iff {m : Manager} {sources : List Source} (hfresh : m.loaded = none)
    (hgather : (gather w m.directory).result = .ok sources)
    (haccepted : ∀ s ∈ sources, (Settings.check (.obj s.data)).isValid = true) :
    (∃ settings, (m.get w).2.result = .ok settings) ↔
      ¬ SpelledDifferently (sources.map (·.data)) ∧ ¬ TwoEndpoints (sources.map (·.data)) := by
  have hdistinct : ∀ ms ∈ sources.map (·.data), (obj ms).Distinct := by
    intro ms hms
    obtain ⟨s, hs, rfl⟩ := List.mem_map.mp hms
    exact distinct_of_gather hgather s hs
  have hone : ∀ ms ∈ sources.map (·.data), (Settings.check (.obj ms)).isValid = true := by
    intro ms hms
    obtain ⟨s, hs, rfl⟩ := List.mem_map.mp hms
    exact haccepted s hs
  rw [← isValid_mergeAll_iff hdistinct hone, ← merged_eq_mergeAll]
  have hload : (load w m.directory).result =
      (settingsOf sources).map fun settings => (settings, sources.map (·.name)) := by
    unfold load
    rw [result_bind hgather]
    cases settingsOf sources <;> rfl
  unfold Manager.get settingsOf at *
  rw [hfresh]
  dsimp only
  rw [hload]
  cases Settings.check (.obj (merged sources)) with
  | valid settings => exact ⟨fun _ => rfl, fun _ => ⟨settings, rfl⟩⟩
  | invalid issues => exact ⟨fun ⟨_, h⟩ => (by cases h), nofun⟩

/-- A project whose inner directory takes the command back and has a socket. -/
def movedEndpoint : World where
  tree := ⟨[("/p/glint.json", utf8Encode (serverText [("command", .arr [.str "x"])]).toList),
    ("/p/a/glint.json", utf8Encode (serverText [("command", .null), ("socket", .str "h:1")]).toList)], []⟩
  env := [("GLINT_CONFIG_DIR", "/c")]
  cwd := "/"

/-- Its two files are accepted together. -/
theorem movedEndpoint_accepted :
    let sources : List Source :=
      [⟨"/p/glint.json", [("lsp", .obj [("command", .arr [.str "x"])])]⟩,
        ⟨"/p/a/glint.json", [("lsp", .obj [("command", .null), ("socket", .str "h:1")])]⟩]
    (gather movedEndpoint "/p/a").result = .ok sources ∧
      (∀ s ∈ sources, (Settings.check (.obj s.data)).isValid = true) ∧
      ¬ SpelledDifferently (sources.map (·.data)) ∧ ¬ TwoEndpoints (sources.map (·.data)) := by
  intro sources
  have hgather : (gather movedEndpoint "/p/a").result = .ok sources := by decide +kernel
  have haccepted : ∀ s ∈ sources, (Settings.check (.obj s.data)).isValid = true := by decide +kernel
  have hget : (Manager.get movedEndpoint ⟨"/p/a", none⟩).2.result.toOption.isSome = true := by decide +kernel
  refine ⟨hgather, haccepted, (get_isOk_iff (m := ⟨"/p/a", none⟩) rfl hgather haccepted).mp ?_⟩
  cases hresult : (Manager.get movedEndpoint ⟨"/p/a", none⟩).2.result with
  | ok settings => exact ⟨settings, rfl⟩
  | error e =>
    rw [hresult] at hget
    cases hget

/-! ## Sources that are refused together -/

/-- A project with a command and, in its inner directory, a socket. -/
def splitEndpoints : World where
  tree := ⟨[("/p/glint.json", utf8Encode (serverText [("command", .arr [.str "x"])]).toList),
    ("/p/a/glint.json", utf8Encode (serverText [("socket", .str "h:1")]).toList)], []⟩
  env := [("GLINT_CONFIG_DIR", "/c")]
  cwd := "/"

/-- **Not all sources that are accepted one by one are accepted together**: the socket of the inner directory
does not end the command of the outer one. -/
theorem endpoints_of_two_sources_refused :
    ¬ ∀ (w : World) (m : Manager) (sources : List Source), m.loaded = none →
      (gather w m.directory).result = .ok sources →
      (∀ s ∈ sources, (Settings.check (.obj s.data)).isValid = true) →
      ∃ settings, (m.get w).2.result = .ok settings := by
  intro h
  obtain ⟨settings, hsettings⟩ := h splitEndpoints ⟨"/p/a", none⟩
    [⟨"/p/glint.json", [("lsp", .obj [("command", .arr [.str "x"])])]⟩,
      ⟨"/p/a/glint.json", [("lsp", .obj [("socket", .str "h:1")])]⟩]
    rfl (by decide +kernel) (by decide +kernel)
  have hrefused : (Manager.get splitEndpoints ⟨"/p/a", none⟩).2.result.toOption.isSome = false := by
    decide +kernel
  rw [hsettings] at hrefused
  cases hrefused

/-- A user and a project that give the same field under its two names. -/
def splitSpellings : World where
  tree := ⟨[("/c/glint.json", utf8Encode (serverText [("settleDelayMs", .int 1)]).toList),
    ("/p/glint.json", utf8Encode (serverText [("settle_delay_ms", .int 2)]).toList)], []⟩
  env := [("GLINT_CONFIG_DIR", "/c")]
  cwd := "/"

/-- They are refused together as well, the second name being that of no field. -/
example :
    let sources : List Source :=
      [⟨"/c/glint.json", [("lsp", .obj [("settleDelayMs", .int 1)])]⟩,
        ⟨"/p/glint.json", [("lsp", .obj [("settle_delay_ms", .int 2)])]⟩]
    (gather splitSpellings "/p").result = .ok sources ∧
      (∀ s ∈ sources, (Settings.check (.obj s.data)).isValid = true) ∧
      (Manager.get splitSpellings ⟨"/p", none⟩).2.result.toOption = none := by
  decide +kernel

end Config

end EditorServices
