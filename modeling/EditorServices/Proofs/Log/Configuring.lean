import EditorServices.Cli.Program
import EditorServices.Proofs.Cli.SilentRuns
import EditorServices.Proofs.Config.Overrides

/-!
# `Proofs.Log.Configuring` — accepted logging sections and what comes of them

A section is accepted first and applied later, and the two look at it in different ways. The format has to be
a name that is known, so an accepted one is always understood. The level may be any text, and what it names is asked
only when the section is applied. So an accepted section can be applied exactly if the level that it gives, if it
gives one, is the name of a severity. Then what it gives is set and all else stays as it was. If it is not, nothing
is set, and a program that was about to start ends with a failure that it does not expect.

What is logged while the configuration is loaded changes nothing, so that a program starts in the state in which it
was made.

## Contents
- **Names.** `Level.Named` and `Level.parse?_eq_some_iff`; the names of formats.
- **Sections.** `LoggingConfig.LevelKnown`, and `exists_format_of_check`.
- **Applied sections.** `Takes` and `Applied`; `ofConfig_of_known`, `ofConfig_of_unknown`.
- **The program.** `OptionsApplied` and `SetUpWith`, the steps of `Cli.setUp`.
- **The headline.** `applied_if_level_known`, and that a section may be accepted and not applied.
-/

namespace EditorServices

namespace Log

/-! ## Names -/

/-- The word that a text is read as, without blanks around it and in small letters. -/
def wordOf (s : String) : String := String.ofList (lowerText (strip s.toList))

/-- A severity is named by its name in lines, and warnings by a long name too. -/
def Level.Named (level : Level) (s : String) : Prop :=
  wordOf s = level.lower ∨ level = .warn ∧ wordOf s = "warning"

instance (level : Level) (s : String) : Decidable (level.Named s) :=
  inferInstanceAs (Decidable (wordOf s = level.lower ∨ level = .warn ∧ wordOf s = "warning"))

/-- **A text is read as a severity exactly if it names it.** -/
theorem Level.parse?_eq_some_iff {s : String} {level : Level} : Level.parse? s = some level ↔ level.Named s := by
  unfold Level.parse? Level.Named wordOf
  generalize String.ofList (lowerText (strip s.toList)) = word
  cases level <;> grind [Level.lower]

/-- Formats are read back from their names. -/
theorem Format.parse?_name (f : Format) : Format.parse? f.name = some f := by
  cases f <;> decide +kernel

end Log

namespace LoggingConfig

open Schema Log

variable {c : LoggingConfig} {v : Json}

/-! ## Sections -/

/-- The level that a section gives; an empty one counts as none. -/
def givenLevel? (c : LoggingConfig) : Option String := c.level.filter fun s => !s.isEmpty

/-- The level of a section is the name of a severity, if it gives one. -/
def LevelKnown (c : LoggingConfig) : Prop := ∀ s, c.givenLevel? = some s → ∃ level : Level, level.Named s

theorem exists_unknown_level (h : ¬ c.LevelKnown) :
    ∃ s, c.givenLevel? = some s ∧ ∀ level : Level, ¬ level.Named s := by
  simpa [LevelKnown] using h

theorem exists_format_of_word {name : String} (h : word formatWords v = .valid name) :
    ∃ f : Format, f.name = name := by
  have hfound : ∃ s, formatWords.lookup s = some name := by
    unfold word at h
    cases v with
    | str s =>
      refine ⟨s, ?_⟩
      dsimp only at h
      split at h
      · next hfound =>
        cases h
        exact hfound
      · cases h
    | _ => cases h
  obtain ⟨s, hfound⟩ := hfound
  obtain ⟨before, after, hwords, -⟩ := List.lookup_eq_some_iff.mp hfound
  have hmem : (s, name) ∈ formatWords := by
    rw [hwords]
    simp
  simp only [formatWords, List.mem_cons, Prod.mk.injEq, List.not_mem_nil, or_false] at hmem
  rcases hmem with ⟨-, rfl⟩ | ⟨-, rfl⟩ | ⟨-, rfl⟩
  · exact ⟨.kv, rfl⟩
  · exact ⟨.json, rfl⟩
  · exact ⟨.pretty, rfl⟩

/-- **The format of an accepted section is the name of one.** -/
theorem exists_format_of_check (h : check v = .valid c) {name : String} (hname : c.format = some name) :
    ∃ f : Format, f.name = name := by
  cases v with
  | obj ms =>
    -- the check is a chain of fields, taken apart from the last one on
    obtain ⟨hread, -⟩ := Checked.withIssues_eq_valid_iff.mp h
    obtain ⟨_, file, h₃, -, rfl⟩ := Checked.ap_eq_valid hread
    obtain ⟨_, console, h₂, -, rfl⟩ := Checked.ap_eq_valid h₃
    obtain ⟨_, format, h₁, hformat, rfl⟩ := Checked.ap_eq_valid h₂
    obtain ⟨level, -, rfl⟩ := Checked.map_eq_valid_iff.mp h₁
    cases hname
    rcases optional_eq_valid_iff.mp hformat with ⟨-, hnone⟩ | ⟨w, -, hw⟩
    · cases hnone
    · unfold nullable at hw
      split at hw
      · cases hw
      · obtain ⟨_, hword, heq⟩ := Checked.map_eq_valid_iff.mp hw
        cases heq
        exact exists_format_of_word hword
  | _ => cases h

end LoggingConfig

namespace Log

open LoggingConfig

variable {c : LoggingConfig} {v : Json}

/-! ## Applied sections -/

/-- A setting is what it is given as, or what it was. -/
def Takes {α β : Type} (given : Option α) (means : β → α → Prop) (before after : β) : Prop :=
  match given with
  | some a => means after a
  | none => after = before

/-- What a section gives is set, and the rest is kept. -/
structure Applied (c : LoggingConfig) (before after : Settings) : Prop where
  level : Takes c.givenLevel? Level.Named before.level after.level
  format : Takes c.format (fun f name => f.name = name) before.format after.format
  console : Takes c.console Eq before.console after.console
  file : Takes c.file Eq before.file after.file

/-- An empty text names no setting; what it stands for is that none is given. -/
theorem named?_eq {α : Type} (what : String) (parse : String → Option α) (given : Option String) :
    named? what parse given =
      match given.filter fun s => !s.isEmpty with
      | none => .ok none
      | some s => (setting what parse s).map some := by
  cases given with
  | none => rfl
  | some s =>
    cases h : s.isEmpty <;> simp [named?, Option.filter, h]

theorem setting_of_some {α : Type} {what : String} {parse : String → Option α} {s : String} {a : α}
    (h : parse s = some a) : setting what parse s = .ok a := by
  rw [setting, h]

theorem setting_of_none {α : Type} {what : String} {parse : String → Option α} {s : String}
    (h : parse s = none) : setting what parse s = .error (.value ("invalid log " ++ what ++ ": " ++ s)) := by
  rw [setting, h]

theorem Level.parse?_eq_none {s : String} (h : ∀ level : Level, ¬ level.Named s) : Level.parse? s = none := by
  cases hparse : Level.parse? s with
  | none => rfl
  | some level => exact absurd (parse?_eq_some_iff.mp hparse) (h level)

/-- A level that is known, or none, is read. -/
theorem exists_level_of_known (h : c.LevelKnown) :
    ∃ level, named? "level" Level.parse? c.level = .ok level ∧
      ∀ before : Level, Takes c.givenLevel? Level.Named before (level.getD before) := by
  rw [named?_eq]
  unfold LevelKnown givenLevel? at h
  unfold givenLevel?
  cases hgiven : c.level.filter fun s => !s.isEmpty with
  | none => exact ⟨none, rfl, fun _ => rfl⟩
  | some s =>
    obtain ⟨level, hlevel⟩ := h s hgiven
    refine ⟨some level, ?_, fun _ => hlevel⟩
    dsimp only
    rw [setting_of_some (Level.parse?_eq_some_iff.mpr hlevel)]
    rfl

/-- The format of an accepted section is read. -/
theorem exists_format_of_accepted (h : check v = .valid c) :
    ∃ format, named? "format" Format.parse? c.format = .ok format ∧
      ∀ before : Format, Takes c.format (fun f name => f.name = name) before (format.getD before) := by
  cases hgiven : c.format with
  | none => exact ⟨none, rfl, fun _ => rfl⟩
  | some name =>
    obtain ⟨f, rfl⟩ := exists_format_of_check h hgiven
    refine ⟨some f, ?_, fun _ => rfl⟩
    have hnonempty : f.name.isEmpty = false := by cases f <;> rfl
    rw [named?, hnonempty, setting_of_some f.parse?_name]
    rfl

/-- **An accepted section with a level that is known says what to change.** -/
theorem ofConfig_of_known (h : check v = .valid c) (hlevel : c.LevelKnown) :
    ∃ change, Change.ofConfig c = .ok change ∧ ∀ before : Settings, Applied c before (before.apply change) := by
  obtain ⟨level, hread, hset⟩ := exists_level_of_known hlevel
  obtain ⟨format, hread', hset'⟩ := exists_format_of_accepted h
  refine ⟨⟨level, format, c.console, c.file⟩, ?_, ?_⟩
  · unfold Change.ofConfig
    rw [hread, hread']
    rfl
  · intro before
    refine ⟨hset _, hset' _, ?_, ?_⟩
    · unfold Settings.apply Takes
      cases c.console <;> rfl
    · unfold Settings.apply Takes
      cases c.file <;> rfl

/-- **A section with a level that is not known is refused**, accepted or not. -/
theorem ofConfig_of_unknown {s : String} (hgiven : c.givenLevel? = some s) (h : ∀ level : Level, ¬ level.Named s) :
    Change.ofConfig c = .error (.value ("invalid log level: " ++ s)) := by
  unfold Change.ofConfig
  unfold givenLevel? at hgiven
  rw [named?_eq, hgiven]
  dsimp only
  rw [setting_of_none (Level.parse?_eq_none h)]
  rfl

namespace State

/-- Changing the settings changes them as asked, whatever comes of the log file. -/
theorem settings_configure (s : State) (change : Change) (dev : Bool) :
    (s.configure change dev).1.settings = s.settings.apply change := by
  unfold configure
  dsimp only
  split
  · split <;> rfl
  · rfl

theorem now_configure (s : State) (change : Change) (dev : Bool) : (s.configure change dev).1.now = s.now := by
  unfold configure
  dsimp only
  split
  · split <;> rfl
  · rfl

variable {s : State}

/-- The settings can be changed, if file output is off or at a point with a date. -/
theorem result_configure {change : Change} (h : (s.settings.apply change).file = true → HasDate s.now) :
    (s.configure change false).2 = .ok () := by
  unfold configure fileName
  dsimp only
  split
  · next hfile =>
    obtain ⟨text, htext⟩ := (h hfile).exists_stampText
    rw [if_neg (by decide), htext]
    rfl
  · rfl

/-- A section that says what to change is applied by that. -/
theorem configureFrom_of_ok {change : Change} (h : Change.ofConfig c = .ok change) :
    s.configureFrom c = s.configure change false := by
  rw [configureFrom, h]

end State

end Log

/-! ## The program -/

namespace Config

/-- The logging section of loaded settings was accepted. -/
theorem exists_logging_of_load {w : World} {directory : String} {settings : Settings} {names : List String}
    (h : (load w directory).result = .ok (settings, names)) : ∃ v, LoggingConfig.check v = .valid settings.logging := by
  obtain ⟨v, hcheck⟩ := exists_check_of_load h
  cases v with
  | obj ms =>
    obtain ⟨hread, -⟩ := Schema.Checked.withIssues_eq_valid_iff.mp hcheck
    obtain ⟨_, logging, h₂, hlogging, rfl⟩ := Schema.Checked.ap_eq_valid hread
    obtain ⟨_, highlight, h₁, -, rfl⟩ := Schema.Checked.ap_eq_valid h₂
    obtain ⟨lsp, -, rfl⟩ := Schema.Checked.map_eq_valid_iff.mp h₁
    rcases Schema.optional_eq_valid_iff.mp hlogging with ⟨-, rfl⟩ | ⟨v, -, hv⟩
    · exact ⟨.obj [], rfl⟩
    · exact ⟨v, hv⟩
  | _ => cases hcheck

end Config

namespace Cli

open Log

variable {w : Config.World} {o : MainOptions} {r : Record} {α β : Type}

/-- What the options of the program set is set, and the rest is kept. -/
structure OptionsApplied (o : MainOptions) (before after : Log.Settings) : Prop where
  level : Takes o.logLevel Level.Named before.level after.level
  format : after.format = if o.printLogs then .pretty else before.format
  console : after.console = (o.printLogs || before.console)
  file : after.file = before.file

/-- The level of the options is the name of a severity, if there is one. -/
def MainOptions.LevelKnown (o : MainOptions) : Prop := ∀ s, o.logLevel = some s → ∃ level : Level, level.Named s

/-- Whether log files can be kept is a question of the point in time, which names the next one. -/
theorem logFileReady_congr {s s' : Log.State} (h : s'.now = s.now) : logFileReady w s' = logFileReady w s := by
  unfold logFileReady Log.State.fileName
  rw [h]

/-- **Where log files can be kept the settings can be changed.** -/
theorem changeLog_of_ready (hdate : HasDate r.log.now) (hready : logFileReady w r.log = .ok ()) (change : Change) :
    ∃ r', changeLog w change r = (r', .ok ()) ∧ r'.log.settings = r.log.settings.apply change ∧
      r'.log.now = r.log.now := by
  refine ⟨{ r with log := (r.log.configure change false).1 }, ?_, Log.State.settings_configure _ _ _,
    Log.State.now_configure _ _ _⟩
  have hchange : Run.logging (fun s => s.configure change false) r =
      ({ r with log := (r.log.configure change false).1 }, .ok ()) := by
    apply Run.logging_of_ok
    rw [← Log.State.result_configure fun _ => hdate]
  have hready' : Run.ofExcept (logFileReady w r.log) r = (r, .ok ()) := by
    rw [hready]
    rfl
  unfold changeLog
  rw [Run.bind_of_ok (show Run.get r = (r, .ok r) from rfl)]
  dsimp only
  split
  · exact (Run.bind_of_ok hready' _).trans hchange
  · exact hchange

/-- Options with a level that is known, or none, say what to change. -/
theorem logChange_of_known (h : o.LevelKnown) :
    ∃ change, logChange o = .ok change ∧ ∀ before, OptionsApplied o before (before.apply change) := by
  obtain ⟨level, hread, hset⟩ : ∃ level, o.logLevel.mapM (setting "level" Level.parse?) = .ok level ∧
      ∀ before : Level, Takes o.logLevel Level.Named before (level.getD before) := by
    unfold MainOptions.LevelKnown at h
    cases hgiven : o.logLevel with
    | none => exact ⟨none, rfl, fun _ => rfl⟩
    | some s =>
      obtain ⟨level, hlevel⟩ := h s hgiven
      refine ⟨some level, ?_, fun _ => hlevel⟩
      rw [Option.mapM_some, setting_of_some (Level.parse?_eq_some_iff.mpr hlevel)]
      rfl
  refine ⟨⟨level, if o.printLogs then some .pretty else none, if o.printLogs then some true else none, none⟩, ?_, ?_⟩
  · unfold logChange
    rw [hread]
    rfl
  · intro before
    refine ⟨hset _, ?_, ?_, rfl⟩
    · unfold Log.Settings.apply
      cases o.printLogs <;> rfl
    · unfold Log.Settings.apply
      cases o.printLogs <;> rfl

/-- Options with a level that is not known are refused. -/
theorem logChange_of_unknown {s : String} (hgiven : o.logLevel = some s) (h : ∀ level : Level, ¬ level.Named s) :
    logChange o = .error (.value ("invalid log level: " ++ s)) := by
  unfold logChange
  rw [hgiven, Option.mapM_some, setting_of_none (Level.parse?_eq_none h)]
  rfl

theorem optionsApplied_of_none (hlevel : o.logLevel = none) (hprint : o.printLogs = false) (s : Log.Settings) :
    OptionsApplied o s s := by
  refine ⟨?_, ?_, ?_, rfl⟩
  · rw [hlevel]
    rfl
  · rw [hprint]
    rfl
  · rw [hprint]
    rfl

section Configuring

variable {c : LoggingConfig} {v : Json}

/-- Once the section is applied the options are looked at, if there are any. -/
theorem configureLog_of_ok {change : Change} {r₁ : Record} (hchange : Change.ofConfig c = .ok change)
    (hfirst : changeLog w change r = (r₁, .ok ())) :
    configureLog w c o r =
      (if o.logLevel.isSome || o.printLogs then Run.ofExcept (logChange o) >>= changeLog w else pure ()) r₁ := by
  unfold configureLog
  rw [hchange]
  exact Run.bind_of_ok hfirst _

/-- **The section is applied, and then the options are.** -/
theorem configureLog_of_known (hdate : HasDate r.log.now) (hready : logFileReady w r.log = .ok ())
    (haccepted : LoggingConfig.check v = .valid c) (hc : c.LevelKnown) (ho : o.LevelKnown) :
    ∃ r' between, configureLog w c o r = (r', .ok ()) ∧ Applied c r.log.settings between ∧
      OptionsApplied o between r'.log.settings := by
  obtain ⟨change, hchange, happlied⟩ := ofConfig_of_known haccepted hc
  obtain ⟨r₁, hfirst, hsettings, hnow⟩ := changeLog_of_ready hdate hready change
  rw [configureLog_of_ok hchange hfirst]
  split
  · obtain ⟨change', hchange', happlied'⟩ := logChange_of_known ho
    obtain ⟨r₂, hsecond, hsettings', -⟩ :=
      changeLog_of_ready (w := w) (hnow ▸ hdate) ((logFileReady_congr hnow).trans hready) change'
    refine ⟨r₂, r₁.log.settings, ?_, hsettings ▸ happlied _, hsettings' ▸ happlied' _⟩
    rw [hchange']
    exact hsecond
  · next hnone =>
    simp only [Bool.not_eq_true, Bool.or_eq_false_iff, Option.isSome_eq_false_iff, Option.isNone_iff_eq_none] at hnone
    exact ⟨r₁, r₁.log.settings, rfl, hsettings ▸ happlied _, optionsApplied_of_none hnone.1 hnone.2 _⟩

/-- A level of the section that is not known ends the run before anything is set. -/
theorem configureLog_of_unknown {s : String} (hgiven : c.givenLevel? = some s)
    (h : ∀ level : Level, ¬ level.Named s) :
    configureLog w c o r = (r, .error (.escaped (.value ("invalid log level: " ++ s)))) := by
  unfold configureLog
  rw [ofConfig_of_unknown hgiven h]
  rfl

/-- A level of the options that is not known ends it once the section is applied. -/
theorem configureLog_of_unknown_option (hdate : HasDate r.log.now) (hready : logFileReady w r.log = .ok ())
    (haccepted : LoggingConfig.check v = .valid c) (hc : c.LevelKnown) {s : String} (hgiven : o.logLevel = some s)
    (h : ∀ level : Level, ¬ level.Named s) :
    ∃ r', configureLog w c o r = (r', .error (.escaped (.value ("invalid log level: " ++ s)))) ∧
      Applied c r.log.settings r'.log.settings := by
  obtain ⟨change, hchange, happlied⟩ := ofConfig_of_known haccepted hc
  obtain ⟨r₁, hfirst, hsettings, -⟩ := changeLog_of_ready hdate hready change
  refine ⟨r₁, ?_, hsettings ▸ happlied _⟩
  rw [configureLog_of_ok hchange hfirst, if_pos (by simp [hgiven]), logChange_of_unknown hgiven h]
  rfl

end Configuring

/-- What comes of setting up logging with a section and the options of the program: both are applied, the section
first, or the first level that is not known ends the run. -/
structure SetUpWith (c : LoggingConfig) (o : MainOptions) (r : Record) (outcome : Record × Except Stop Unit) :
    Prop where
  applied : c.LevelKnown → o.LevelKnown → outcome.2 = .ok () ∧
    ∃ between, Applied c r.log.settings between ∧ OptionsApplied o between outcome.1.log.settings
  optionRefused : c.LevelKnown → ¬ o.LevelKnown → Applied c r.log.settings outcome.1.log.settings ∧
    ∃ s, o.logLevel = some s ∧ outcome.2 = .error (.escaped (.value ("invalid log level: " ++ s)))
  refused : ¬ c.LevelKnown → outcome.1 = r ∧
    ∃ s, c.givenLevel? = some s ∧ outcome.2 = .error (.escaped (.value ("invalid log level: " ++ s)))

/-- An accepted section is set up with if log files can be kept. -/
theorem setUpWith_configureLog {c : LoggingConfig} {v : Json} (hdate : HasDate r.log.now)
    (hready : logFileReady w r.log = .ok ()) (haccepted : LoggingConfig.check v = .valid c) :
    SetUpWith c o r (configureLog w c o r) where
  applied := by
    intro hc ho
    obtain ⟨r', between, hend, happlied⟩ := configureLog_of_known hdate hready haccepted hc ho
    rw [hend]
    exact ⟨rfl, between, happlied⟩
  optionRefused := by
    intro hc ho
    obtain ⟨s, hgiven, hunknown⟩ : ∃ s, o.logLevel = some s ∧ ∀ level : Level, ¬ level.Named s := by
      simpa [MainOptions.LevelKnown] using ho
    obtain ⟨r', hend, happlied⟩ := configureLog_of_unknown_option hdate hready haccepted hc hgiven hunknown
    rw [hend]
    exact ⟨happlied, s, hgiven, rfl⟩
  refused := by
    intro hc
    obtain ⟨s, hgiven, hunknown⟩ := LoggingConfig.exists_unknown_level hc
    rw [configureLog_of_unknown hgiven hunknown]
    exact ⟨rfl, s, hgiven, rfl⟩

/-- **A program that starts in silence is set up with the section of the settings that it loads.** -/
theorem setUpWith_setUp {settings : Settings} {names : List String}
    (hload : (Config.load w w.cwd).result = .ok (settings, names)) (hsilent : r.log.Silent)
    (hready : logFileReady w r.log = .ok ()) : SetUpWith settings.logging o r (setUp w o r) := by
  obtain ⟨v, haccepted⟩ := Config.exists_logging_of_load hload
  -- what the load reports is logged in silence, so that the state is still the same
  have hsetUp : setUp w o r = configureLog w settings.logging o r := by
    unfold setUp
    rw [Run.bind_of_ok (Run.reporting_of_silent hsilent (Config.writable_load _ _)), hload]
  rw [hsetUp]
  exact setUpWith_configureLog hsilent.hasDate hready haccepted

end Cli

/-! ## The headline -/

namespace Log

open Cli

/-- **An accepted section is applied exactly as it says if its level is known, and else it is refused.** It is
refused by whoever applies it, and so a configuration that can be loaded may end the program that starts with it. -/
theorem applied_if_level_known {v : Json} {c : LoggingConfig} (haccepted : LoggingConfig.check v = .valid c)
    (s : State) :
    (c.LevelKnown → Applied c s.settings (s.configureFrom c).1.settings ∧
      (((s.configureFrom c).1.settings.file = true → HasDate s.now) → (s.configureFrom c).2 = .ok ())) ∧
    (¬ c.LevelKnown → ∃ text, c.givenLevel? = some text ∧
      s.configureFrom c = (s, .error (.value ("invalid log level: " ++ text)))) ∧
    ∀ (w : Config.World) (o : MainOptions) (start : Reading) (present : Binary64)
      (existing : List (String × Binary64)) (settings : EditorServices.Settings) (names : List String),
      (Config.load w w.cwd).result = .ok (settings, names) → HasDate start →
      logFileReady w (.initial start present existing) = .ok () →
      SetUpWith settings.logging o (.empty (.initial start present existing))
        (setUp w o (.empty (.initial start present existing))) := by
  refine ⟨?_, ?_, ?_⟩
  · intro hlevel
    obtain ⟨change, hchange, happlied⟩ := ofConfig_of_known haccepted hlevel
    rw [State.configureFrom_of_ok hchange, State.settings_configure]
    exact ⟨happlied _, State.result_configure⟩
  · intro hlevel
    obtain ⟨text, hgiven, hunknown⟩ := LoggingConfig.exists_unknown_level hlevel
    refine ⟨text, hgiven, ?_⟩
    rw [State.configureFrom, ofConfig_of_unknown hgiven hunknown]
  · intro w o start present existing settings names hload hdate hready
    exact setUpWith_setUp hload (State.silent_initial hdate present existing) hready

/-- A project that logs warnings to files. -/
def loggingProject : Config.World where
  tree := ⟨[("/p/glint.json", utf8Encode (Json.toText .wire
    (.obj [("logging", .obj [("level", .str " Warning"), ("format", .str "json"), ("file", .bool true)])])).toList)], []⟩
  env := [("GLINT_CONFIG_DIR", "/c")]
  cwd := "/p"

/-- Its section is applied, and options for all lines on the console are applied after it. -/
theorem loggingProject_applied :
    let v : Json := .obj [("level", .str " Warning"), ("format", .str "json"), ("file", .bool true)]
    let c : LoggingConfig := ⟨some " Warning", some "json", none, some true⟩
    let s : State := .initial (some (.whole 1700000000)) (.zero false) []
    LoggingConfig.check v = .valid c ∧ HasDate s.now ∧ c.LevelKnown ∧ logFileReady loggingProject s = .ok () ∧
    (Config.load loggingProject "/p").result = .ok (⟨.empty, .empty, c⟩, ["/p/glint.json"]) ∧
    Applied c .initial (s.configureFrom c).1.settings ∧ (s.configureFrom c).2 = .ok () ∧
    (setUp loggingProject ⟨some "debug", true⟩ (.empty s)).2 = .ok () ∧
    ∃ between, Applied c .initial between ∧
      OptionsApplied ⟨some "debug", true⟩ between
        (setUp loggingProject ⟨some "debug", true⟩ (.empty s)).1.log.settings := by
  intro v c s
  have haccepted : LoggingConfig.check v = .valid c := rfl
  have hdate : HasDate s.now := ⟨1700000000, by decide +kernel⟩
  have hready : logFileReady loggingProject s = .ok () := by decide +kernel
  have hload : (Config.load loggingProject "/p").result = .ok (⟨.empty, .empty, c⟩, ["/p/glint.json"]) := by
    decide +kernel
  have hlevel : c.LevelKnown := by
    rintro _ ⟨⟩
    exact ⟨.warn, by decide +kernel⟩
  have hoption : MainOptions.LevelKnown ⟨some "debug", true⟩ := by
    rintro _ ⟨⟩
    exact ⟨.debug, by decide +kernel⟩
  obtain ⟨hsection, -, hprogram⟩ := applied_if_level_known haccepted s
  obtain ⟨happlied, hresult⟩ := hsection hlevel
  have hsetUp : SetUpWith c ⟨some "debug", true⟩ (.empty s)
      (setUp loggingProject ⟨some "debug", true⟩ (.empty s)) :=
    hprogram loggingProject ⟨some "debug", true⟩ _ _ _ _ _ hload hdate hready
  refine ⟨haccepted, hdate, hlevel, hready, hload, happlied, hresult fun _ => hdate, ?_⟩
  exact hsetUp.applied hlevel hoption

/-- **Not every accepted section can be applied**: a level may be accepted that names no severity. -/
theorem loud_section_refused :
    ¬ ∀ (v : Json) (c : LoggingConfig) (s : State), LoggingConfig.check v = .valid c → HasDate s.now →
      (s.configureFrom c).2 = .ok () := by
  intro h
  have hok := h (.obj [("level", .str "loud")]) ⟨some "loud", none, none, none⟩
    (.initial (some (.whole 1700000000)) (.zero false) []) rfl ⟨1700000000, by decide +kernel⟩
  exact absurd hok (by decide +kernel)

end Log

end EditorServices
