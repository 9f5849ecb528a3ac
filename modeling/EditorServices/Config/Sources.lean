import EditorServices.Config.File
import EditorServices.Config.Merge
import EditorServices.Config.Settings
import EditorServices.Host

/-!
# `Config.Sources` — where a configuration comes from

The files of the user come first, then those of the project from the root down to the starting
directory, then a variable of the environment; each is laid over what came before.

## Contents
- **Places.** The files that are looked at, in order.
- **Gathering.** `gather` reads all sources; `merged` lays them over each other.
- **Loading.** `load` checks the merged object; `Manager` keeps the settings of one directory.
-/

namespace EditorServices.Config

/-! ## Places -/

/-- What a configuration is loaded from. -/
structure World where
  tree : FileTree
  env : Environment
  cwd : String

/-- The object that one source contributes. -/
structure Source where
  name : String
  data : Members
deriving DecidableEq

/-- The plain and the commented file of a directory. -/
def plainName : String := "glint.json"
def commentedName : String := "glint.jsonc"

/-- The variable that may hold a configuration. -/
def contentVariable : String := "GLINT_CONFIG_CONTENT"

/-- The service under which sources are reported. -/
def service : String := "config"

/-- The files of the user, in order. -/
def userFiles (env : Environment) : List String :=
  [Path.child (UserDirectory.config env) plainName,
   Path.child (UserDirectory.config env) commentedName]

/-- The files of the project: from the root to a directory, in each the commented file and then the
plain one. -/
def projectFiles (tree : FileTree) (directory : String) : List String :=
  ((Path.ancestors directory).reverse.flatMap fun d =>
    [Path.child d commentedName, Path.child d plainName]).filter tree.isFile

/-! ## Gathering -/

/-- Reads files in order; those that hold something are reported and contribute. -/
def gatherFiles (w : World) (message : String) : List String → Reporting (List Source)
  | [] => pure []
  | path :: rest => do
    let tidy := String.ofList (Path.tidy path.toList)
    let data ← loadFile w.env tidy (w.tree.findFrom w.cwd tidy)
    if data.isEmpty then gatherFiles w message rest
    else do
      report .info service message [("path", .str path)]
      let more ← gatherFiles w message rest
      pure (⟨path, data⟩ :: more)

/-- The files of the project, which have to be such that they can be looked up. -/
def gatherProject (w : World) (directory : String) : Reporting (List Source) :=
  match w.tree.findFrom w.cwd (Path.child directory plainName) with
  | .refused why => .fail why.failure
  | _ => gatherFiles w "loaded project config" (projectFiles w.tree directory)

/-- The failure that a fault in the variable's text is. Only faults of form are the source's. -/
def variableFailure (text : List Char) (e : ReadError) : Failure :=
  match e.fault with
  | .tooManyDigits n => .value (tooManyDigitsText n)
  | .tooDeep => .tooDeep
  | _ => .config contentVariable (e.message text) []

/-- The object in the variable, if it is set and not empty. -/
def gatherVariable (env : Environment) : Reporting (List Source) :=
  match env.nonEmpty? contentVariable with
  | none => pure []
  | some text =>
    match Json.readConfig text.toList with
    | .error e => .fail (variableFailure text.toList e)
    | .ok (.obj data) => do
      report .info service ("loaded config from " ++ contentVariable) []
      pure [⟨contentVariable, data⟩]
    | .ok _ => .fail (.config contentVariable "expected a JSON object" [])

/-- All sources of a directory, in order. -/
def gather (w : World) (directory : String) : Reporting (List Source) := do
  let user ← gatherFiles w "loaded global config" (userFiles w.env)
  let project ← gatherProject w directory
  let variable' ← gatherVariable w.env
  pure (user ++ project ++ variable')

/-- The sources laid over each other. -/
def merged (sources : List Source) : Members := sources.foldl (fun ms s => merge ms s.data) []

/-! ## Loading -/

/-- The name of the configuration that no source contributed to. -/
def noSource : String := "<defaults>"

/-- The settings that sources make up. If they are not accepted the last source is named. -/
def settingsOf (sources : List Source) : Except Failure Settings :=
  match Settings.check (.obj (merged sources)) with
  | .valid s => .ok s
  | .invalid issues =>
    let origin := ((sources.getLast?).map (·.name)).getD noSource
    .error (.config origin (errorCount issues.length "Config") issues)

/-- The settings of a directory and the names of their sources. -/
def load (w : World) (directory : String) : Reporting (Settings × List String) := do
  let sources ← gather w directory
  let settings ← Reporting.ofExcept (settingsOf sources)
  pure (settings, sources.map (·.name))

/-- Keeps the settings of one directory once they are loaded. -/
structure Manager where
  directory : String
  loaded : Option (Settings × List String)

namespace Manager

/-- A manager of a directory seen from a working directory. -/
def new (cwd directory : String) : Except Failure Manager :=
  match Path.resolve? cwd directory with
  | some path => .ok ⟨path, none⟩
  | none => .error .brokenPath

/-- The names of the sources of the last load. -/
def sources (m : Manager) : List String := (m.loaded.map (·.2)).getD []

def reset (m : Manager) : Manager := { m with loaded := none }

/-- The settings, loaded if they are not known yet. A failed load changes nothing. -/
def get (w : World) (m : Manager) : Manager × Reporting Settings :=
  match m.loaded with
  | some (s, _) => (m, pure s)
  | none =>
    let r := load w m.directory
    match r.result with
    | .ok (s, names) => ({ m with loaded := some (s, names) }, ⟨r.entries, .ok s⟩)
    | .error e => (m, ⟨r.entries, .error e⟩)

end Manager

end EditorServices.Config
