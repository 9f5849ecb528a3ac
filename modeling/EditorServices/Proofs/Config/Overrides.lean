import EditorServices.Cli.Ask
import EditorServices.Proofs.Config.Precedence
import EditorServices.Proofs.Config.Sockets

/-!
# `Proofs.Config.Overrides` — options laid over the section of a server

Who asks one question may name the server and the language. What is named is laid over the members that the
section writes, and the whole is read anew. A section that was read from a configuration is `Sound`: its socket
has the form of one, and it names one endpoint at most. Sound sections are the ones that are read back as what
they are, and options keep a section sound, since each endpoint that is named ends the other.

## Contents
- **Sound sections.** `Sound`, and `sound_iff_check_toJson`.
- **Options.** `overridden`, which is what the members laid over those of a section write.
- **Loaded sections.** `sound_of_load`.
- **The headline.** `serverConfig_overridden`.
-/

namespace EditorServices

open Schema

namespace Schema

/-! ## Written values -/

theorem naturalFrom_zero_int (n : Nat) : naturalFrom 0 (.int n) = .valid n := by
  unfold naturalFrom integerFrom
  show (if (0 : Int) ≤ n then Checked.valid (n : Int) else .fail (.atLeast 0) (.int n)).map Int.toNat = _
  rw [if_pos (Int.natCast_nonneg n)]
  rfl

/-- The texts of a dictionary are read as they are. -/
theorem dictOf_string_toJson (env : Environment) : dictOf string env.toJson = .valid env := by
  show membersOf string (env.map fun p => (p.1, .str p.2)) = _
  induction env with
  | nil => rfl
  | cons p env ih =>
    show Checked.ap _ (membersOf string (env.map fun p => (p.1, .str p.2))) = _
    rw [ih]
    rfl

end Schema

namespace LspConfig

variable {c : LspConfig} {ms : Members}

/-! ## Sound sections -/

/-- What is true of a section that was accepted. -/
structure Sound (c : LspConfig) : Prop where
  socket : ∀ s, c.socket = some s → ∃ host port, IsSocket s host port
  single : (c.hasCommand && c.hasSocket) = false

theorem ReadFrom.sound (h : c.ReadFrom ms) : c.Sound := ⟨fun _ => h.exists_isSocket, h.single⟩

/-- What a sound section writes is what it is read from. -/
theorem Sound.readFrom_toMembers (h : c.Sound) : c.ReadFrom c.toMembers where
  command := by
    show (nullable (listOf string) ((c.command.map fun ws => .arr (ws.map .str)).getD .null)).under _ = _
    cases c.command with
    | none => rfl
    | some words =>
      show ((listOf string (.arr (words.map .str))).map some).under _ = _
      rw [listOf_string_eq_valid_iff.mpr rfl]
      rfl
  socket := by
    show (nullable checkSocket (.ofText? c.socket)).under _ = _
    cases hs : c.socket with
    | none => rfl
    | some s =>
      show ((checkSocket (.str s)).map some).under _ = _
      rw [checkSocket_eq_valid_iff.mpr ⟨rfl, h.socket s hs⟩]
      rfl
  language := by
    show (nullable string (.ofText? c.languageId)).under _ = _
    rw [nullable_string_eq_valid_iff.mpr rfl]
    rfl
  delay := by
    show (naturalFrom 0 (.int c.settleDelayMs)).under (.key delayField.label) = _
    rw [naturalFrom_zero_int]
    rfl
  warning := rfl
  error := rfl
  env := by
    show (dictOf string c.env.toJson).under _ = _
    rw [dictOf_string_toJson]
    rfl
  known := rfl
  single := h.single

/-- **The sound sections are those that are read back as what they are.** -/
theorem sound_iff_check_toJson : c.Sound ↔ check c.toJson = .valid c := by
  constructor
  · intro h
    exact check_eq_valid_iff.mpr ⟨c.toMembers, rfl, h.readFrom_toMembers⟩
  · intro h
    obtain ⟨_, -, hread⟩ := check_eq_valid_iff.mp h
    exact hread.sound

theorem sound_empty : empty.Sound := ⟨nofun, rfl⟩

/-! ## Options -/

variable {command : Option (List String)} {socket language : Option String}

/-- A section with a command, a socket and a language in place of its own, as far as they are given. A socket
ends a command, also one that is given with it. -/
def overridden (c : LspConfig) (command : Option (List String)) (socket language : Option String) :
    LspConfig :=
  { c with
    command := if socket.isSome then none else command.or c.command
    socket := if socket.isNone && command.isSome then none else socket.or c.socket
    languageId := language.or c.languageId }

/-- What is laid over the members of a section makes up the members of that one. -/
theorem toMembers_overridden (c : LspConfig) (command : Option (List String))
    (socket language : Option String) : c.toMembers.overlay (overrides command socket language) =
      (c.overridden command socket language).toMembers := by
  cases command <;> cases socket <;> cases language <;> rfl

/-- Options keep a section sound. -/
theorem Sound.overridden (h : c.Sound)
    (hsocket : ∀ s, socket = some s → ∃ host port, IsSocket s host port) :
    (c.overridden command socket language).Sound := by
  cases socket with
  | some s => exact ⟨fun _ ht => hsocket _ ht, rfl⟩
  | none =>
    cases command with
    | some words => exact ⟨nofun, Bool.and_false _⟩
    | none => exact ⟨h.socket, h.single⟩

theorem check_overridden (h : c.Sound)
    (hsocket : ∀ s, socket = some s → ∃ host port, IsSocket s host port) :
    check (.obj (c.toMembers.overlay (overrides command socket language))) =
      .valid (c.overridden command socket language) := by
  rw [toMembers_overridden]
  exact sound_iff_check_toJson.mp (h.overridden hsocket)

/-- So a section with options is read, whether there are any or none. -/
theorem withOverrides_eq_valid (h : c.Sound)
    (hsocket : ∀ s, socket = some s → ∃ host port, IsSocket s host port) :
    c.withOverrides (overrides command socket language) = .valid (c.overridden command socket language) := by
  unfold withOverrides
  split
  · next hnone =>
    -- with nothing laid over it the section is read back, as one with options and as it is
    have hsame : check (.obj (c.toMembers.overlay (overrides command socket language))) = _ :=
      check_overridden h hsocket
    rw [List.isEmpty_iff.mp hnone] at hsame
    exact (sound_iff_check_toJson.mp h).symm.trans hsame
  · exact check_overridden h hsocket

end LspConfig

/-! ## Loaded sections -/

/-- The section of a server in accepted settings is one that was accepted, or the one that configures
nothing. -/
theorem Settings.sound_of_check {j : Json} {settings : Settings} (h : Settings.check j = .valid settings) :
    settings.lsp.Sound := by
  cases j with
  | obj ms =>
    obtain ⟨hread, -⟩ := Checked.withIssues_eq_valid_iff.mp h
    obtain ⟨_, logging, h₂, -, rfl⟩ := Checked.ap_eq_valid hread
    obtain ⟨_, highlight, h₁, -, rfl⟩ := Checked.ap_eq_valid h₂
    obtain ⟨lsp, hlsp, rfl⟩ := Checked.map_eq_valid_iff.mp h₁
    rcases optional_eq_valid hlsp with ⟨-, rfl⟩ | ⟨v, -, hv⟩
    · exact LspConfig.sound_empty
    · obtain ⟨_, -, hsection⟩ := LspConfig.check_eq_valid_iff.mp hv
      exact hsection.sound
  | _ => cases h

namespace Config

variable {w : World} {directory : String} {settings : Settings} {names : List String}

/-- Loaded settings were accepted. -/
theorem exists_check_of_load (h : (load w directory).result = .ok (settings, names)) :
    ∃ v, Settings.check v = .valid settings := by
  obtain ⟨sources, -, h⟩ := result_bind_eq_ok h
  obtain ⟨read, hread, h⟩ := result_bind_eq_ok h
  cases h
  unfold settingsOf at hread
  split at hread
  · next hcheck =>
    cases hread
    exact ⟨_, hcheck⟩
  · cases hread

theorem sound_of_load (h : (load w directory).result = .ok (settings, names)) : settings.lsp.Sound := by
  obtain ⟨v, hcheck⟩ := exists_check_of_load h
  exact Settings.sound_of_check hcheck

end Config

/-! ## The headline -/

namespace Cli

open LspConfig (overrides)

/-- A section that options are laid over: the endpoint that they name is its only one, and what they do not
name stays as it is. -/
structure Overrides (command : Option (List String)) (socket language : Option String) (c c' : LspConfig) :
    Prop where
  bySocket : ∀ s, socket = some s → c'.socket = some s ∧ c'.command = none
  byCommand : ∀ words, command = some words → socket = none → c'.command = some words ∧ c'.socket = none
  endpoint : command = none → socket = none → c'.command = c.command ∧ c'.socket = c.socket
  byLanguage : ∀ l, language = some l → c'.languageId = some l
  language : language = none → c'.languageId = c.languageId
  delay : c'.settleDelayMs = c.settleDelayMs
  warning : c'.disableWarning = c.disableWarning
  error : c'.disableError = c.disableError
  env : c'.env = c.env

variable {command : Option (List String)} {socket language : Option String}

theorem overrides_overridden (c : LspConfig) (command : Option (List String))
    (socket language : Option String) :
    Overrides command socket language c (c.overridden command socket language) where
  bySocket := by
    rintro s rfl
    exact ⟨by cases command <;> rfl, rfl⟩
  byCommand := by
    rintro words rfl rfl
    exact ⟨rfl, rfl⟩
  endpoint := by
    rintro rfl rfl
    exact ⟨rfl, rfl⟩
  byLanguage := by
    rintro l rfl
    rfl
  language := by
    rintro rfl
    rfl
  delay := rfl
  warning := rfl
  error := rfl
  env := rfl

/-- **Options keep a loaded section valid.** Whatever is configured and whichever options are given, the
section with the options laid over what it writes is accepted, and is that section but for what the options
name. -/
theorem serverConfig_overridden {w : Config.World} {o : QueryOptions} {settings : Settings}
    {names : List String} {words : Option (List String)}
    (hload : (Config.load w (directoryOf o.file)).result = .ok (settings, names))
    (hwords : o.command.mapM commandWords = .ok words)
    (hsocket : ∀ s, o.socket = some s → ∃ host port, IsSocket s host port) :
    ∃ c, Overrides words o.socket o.language settings.lsp c ∧ (serverConfig w o).result = .ok c ∧
      LspConfig.check (.obj (settings.lsp.toMembers.overlay (overrides words o.socket o.language))) =
        .valid c := by
  have hsound := Config.sound_of_load hload
  refine ⟨_, overrides_overridden settings.lsp words o.socket o.language, ?_,
    LspConfig.check_overridden hsound hsocket⟩
  unfold serverConfig
  rw [result_bind hwords, result_bind hload]
  show (settings.lsp.withOverrides _).outcome "LSPConfig" = _
  rw [LspConfig.withOverrides_eq_valid hsound hsocket]
  rfl

/-- A project with a socket. -/
def socketProject : Config.World where
  tree := ⟨[("/p/glint.json", utf8Encode (Config.serverText [("socket", .str "h:1")]).toList)], []⟩
  env := [("GLINT_CONFIG_DIR", "/c")]
  cwd := "/"

/-- A command and a language, for a file of the project. -/
def commandOptions : QueryOptions :=
  ⟨⟨"/p/a.x", "/p/a.x", []⟩, 0, 0, some "serve '-v 1'", none, some "x"⟩

/-- The command ends the socket of the project. -/
theorem serverConfig_socketProject :
    ∃ c, c.command = some ["serve", "-v 1"] ∧ c.socket = none ∧ c.languageId = some "x" ∧
      (serverConfig socketProject commandOptions).result = .ok c := by
  have hload : (Config.load socketProject (directoryOf commandOptions.file)).result =
      .ok (⟨socketOnly "h:1", .empty, .empty⟩, ["/p/glint.json"]) := by decide +kernel
  have hwords : commandOptions.command.mapM commandWords = .ok (some ["serve", "-v 1"]) := by decide +kernel
  obtain ⟨c, h, hresult, -⟩ := serverConfig_overridden hload hwords nofun
  obtain ⟨hcommand, hsocket⟩ := h.byCommand _ rfl rfl
  exact ⟨c, hcommand, hsocket, h.byLanguage _ rfl, hresult⟩

end Cli

end EditorServices
