import EditorServices.Cli.Program

/-!
# `Main` — the program

Gathers what a run may look at, runs, and writes down what it did. This host starts no servers and
opens no connections.

## Contents
- **Gathering.** The environment, the clock, the files that may be read, and the log files.
- **Writing down.** Output, log files, the exit code.
-/

namespace EditorServices.Main

open Cli

/-! ## Gathering -/

/-- The bytes of a file; none if it cannot be read. -/
def readFile? (path : String) : IO (Option Bytes) := do
  try
    let bytes ← IO.FS.readBinFile path
    return some bytes.toList
  catch _ => return none

/-- The text of a file; empty if it cannot be read. -/
def readText (path : String) : IO String := do
  let bytes := (← readFile? path).getD []
  return (((fileText? bytes).map String.ofList).getD "")

/-- A variable written as its name, an equals sign and its value. -/
def variableOf? (s : List Char) : Option (String × String) :=
  if s.contains '=' then
    some (String.ofList (s.takeWhile (· ≠ '=')), String.ofList ((s.dropWhile (· ≠ '=')).drop 1))
  else none

/-- The variables of this process. -/
def environment : IO Environment := do
  let text ← readText "/proc/self/environ"
  return (splitAt1 (Char.ofNat 0) text.toList).filterMap variableOf?

/-- The number at the start of what follows a word in a text. -/
def numberAfter (word text : String) : Nat :=
  match text.splitOn word with
  | _ :: rest :: _ => digitsNumber ((rest.toList.takeWhile Char.isDigit).filterMap asciiDigit?)
  | _ => 0

/-- Seconds since the start of 1970: the start of the host and the time it is up. -/
def now : IO Binary64 := do
  let started := numberAfter "btime " (← readText "/proc/stat")
  let running := numberAfter "\n" ("\n" ++ (← readText "/proc/uptime"))
  return Binary64.ofInt (started + running : Nat)

/-- The directories whose configuration a run may look at: those of the arguments and the working
directory. -/
def directories (cwd : String) (args : List String) : List String :=
  cwd :: args.map fun a => Path.parent (Path.absolute cwd a)

/-- The files that a run may read. -/
def candidates (env : Environment) (cwd : String) (args : List String) : List String :=
  let project := (directories cwd args).flatMap fun d =>
    (Path.ancestors d).flatMap fun a =>
      [Path.child a Config.plainName, Path.child a Config.commentedName]
  let paths := (Config.userFiles env ++ project ++ args).map (Path.absolute cwd)
  paths.eraseDups

/-- The files that a run may read, with their bytes. -/
def gatherFiles : List String → IO (Named Bytes)
  | [] => return []
  | path :: rest => do
    let found ← readFile? path
    let more ← gatherFiles rest
    return match found with
      | some bytes => (path, bytes) :: more
      | none => more

/-- The log files that are there, with the times of their last writing. -/
def logFiles (dir : String) : IO (List (String × Binary64)) := do
  try
    let entries ← (← IO.FS.realPath dir).readDir
    entries.toList.mapM fun e => do
      let info ← e.path.metadata
      return (e.fileName, Binary64.ofInt info.modified.sec)
  catch _ => return []

/-! ## Writing down -/

/-- Writes log files that a run wrote to, and removes those that it dropped. -/
def keepLogs (dir : String) (before : List (String × Binary64)) (s : Log.State) : IO Unit := do
  for f in s.files do
    match f.written with
    | .during _ =>
      IO.FS.createDirAll dir
      IO.FS.writeFile (Path.child dir f.name) (String.ofList f.text)
    | _ => pure ()
  for f in before do
    unless s.files.any (·.name == f.1) do
      IO.FS.removeFile (Path.child dir f.1)

/-- What is printed of a failure that was not expected. -/
def unexpected : Except Stop Unit → String
  | .error (.escaped f) => f.reported ++ "\n"
  | .error .usage => "\n".intercalate helpLines ++ "\n"
  | _ => ""

end EditorServices.Main

open EditorServices in
def main (args : List String) : IO UInt32 := do
  let env ← Main.environment
  let cwd := toString (← IO.currentDir)
  let files ← Main.gatherFiles (Main.candidates env cwd args)
  let dir := UserDirectory.log env
  let before ← Main.logFiles dir
  let world : Config.World := ⟨⟨files, [cwd]⟩, env, cwd⟩
  let server := Transport.ScriptedServer.new [] (some "no connections on this host") ""
  let now ← Main.now
  let (record, ended) := Cli.program world ⟨"host", none⟩ server args
    (.empty (.initial (some (.binary now)) now before))
  IO.print (String.ofList record.out)
  IO.eprint (String.ofList record.errorText ++ Main.unexpected ended)
  Main.keepLogs dir before record.log
  return UInt32.ofNat (Cli.exitCode ended)
