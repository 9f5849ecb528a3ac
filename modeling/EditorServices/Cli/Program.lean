import EditorServices.Catalogue
import EditorServices.Cli.Ask
import EditorServices.Cli.Show

/-!
# `Cli.Program` — the program from its arguments on

The name of a command is looked up first; then the configuration of the working directory is loaded
and logging is set up; then the arguments of the command are read.

## Contents
- **Parts.** `accept`, for what was read of arguments; the version and the help text.
- **Logging.** `setUp`.
- **The program.** `program`.
-/

namespace EditorServices.Cli

/-! ## Parts -/

def versionLine : String := "glint 0.1.0"

/-- What the program is for. -/
def helpLines : List String :=
  ["Usage: glint [--version] [--log-level LEVEL] [--print-logs] COMMAND ...",
   "",
   "  highlight FILE [-l LANGUAGE] [-t THEME] [--start N] [--end N] [-n]",
   "  lsp hover|definition|references|completions FILE LINE CHARACTER",
   "      [-c COMMAND] [-s HOST:PORT] [-l LANGUAGE]"]

/-- Prints lines. -/
def printAll : List String → Run Unit
  | [] => return
  | line :: rest => do
    Run.printLine line.toList
    printAll rest

/-- Goes on with what arguments mean, or does what they ask for first. -/
def accept {α : Type} : Parsed α → Run α
  | .accepted a => return a
  | .help => do
    printAll helpLines
    Run.stop .done
  | .version => do
    printAll [versionLine]
    Run.stop .done
  | .refused => Run.stop .usage

/-! ## Logging -/

/-- What the options of the program change of logging. -/
def logChange (o : MainOptions) : Except Failure Log.Change := do
  let level ← o.logLevel.mapM (Log.setting "level" Log.Level.parse?)
  return ⟨level, if o.printLogs then some .pretty else none,
    if o.printLogs then some true else none, none⟩

/-- Makes sure that log files can be kept: their directory is there or can be made, and under the name of the
next file there is no directory and nothing that the host refuses to open. -/
def logFileReady (w : Config.World) (s : Log.State) : Except Failure Unit := do
  let dir := UserDirectory.log w.env
  match w.tree.obstacle? w.cwd dir with
  | some .above => .error .notADirectory
  | some .itself => .error .fileExists
  | some (.refused why) => .error why.failure
  | none =>
    let name ← s.fileName false
    match w.tree.findFrom w.cwd (Path.child dir name) with
    | .directory | .lockedDirectory => .error .isADirectory
    | .lockedFile => .error .permission
    | .refused why => .error why.failure
    | .file _ | .nothing => .ok ()

/-- Changes the settings of logging. -/
def changeLog (w : Config.World) (change : Log.Change) : Run Unit := do
  let record ← Run.get
  if (record.log.settings.apply change).file then Run.ofExcept (logFileReady w record.log)
  Run.logging fun s => s.configure change false

/-- Sets up logging as a section of the configuration and the options of the program say. -/
def configureLog (w : Config.World) (c : LoggingConfig) (o : MainOptions) : Run Unit := do
  changeLog w (← Run.ofExcept (Log.Change.ofConfig c))
  if o.logLevel.isSome || o.printLogs then changeLog w (← Run.ofExcept (logChange o))

/-- Loads the configuration of the working directory and sets up logging. -/
def setUp (w : Config.World) (o : MainOptions) : Run Unit := do
  match ← Run.reporting (Config.load w w.cwd) with
  | .error (.config source message issues) =>
    Run.printMarked ("[red]" ++ (Failure.config source message issues).fullText ++ "[/red]")
    Run.stop .told
  | .error f => Run.stop (.escaped f)
  | .ok settings => configureLog w settings.1.logging o

/-! ## The program -/

/-- The program. -/
def program (w : Config.World) (host : Host) (server : Transport.ScriptedServer)
    (args : List String) : Run Unit := do
  let (options, name, args) ← accept (readMain args)
  match commands.lookup name with
  | none => Run.stop .usage
  | some command =>
    setUp w options
    match command with
    | .highlight =>
      showFile w (← Run.ofExcept (← accept (readHighlight w.tree w.cwd args)))
    | .query =>
      let (query, args) ← accept (readQueryName args)
      askServer w host server query (← Run.ofExcept (← accept (readQuery w.tree w.cwd args)))

end EditorServices.Cli
