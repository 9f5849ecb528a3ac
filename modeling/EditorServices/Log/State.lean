import EditorServices.Config.Settings
import EditorServices.Host
import EditorServices.Log.Clock
import EditorServices.Log.Line

/-!
# `Log.State` — loggers, sinks and log files

## Contents
- **Settings.** What is logged and where to.
- **Files.** The log directory; a fresh file for each configuration, of which the latest are kept.
- **State.** Clock, loggers by identity and by service, console text.
- **Operations.** Creating, cloning and tagging loggers, writing lines, timers, configuration.
-/

namespace EditorServices.Log

/-! ## Settings -/

/-- What is logged and where to. -/
structure Settings where
  level : Level
  format : Format
  console : Bool
  file : Bool
deriving DecidableEq

/-- The settings before any configuration. -/
def Settings.initial : Settings := ⟨.info, .kv, false, false⟩

/-- A change of settings; absent parts stay as they are. -/
structure Change where
  level : Option Level
  format : Option Format
  console : Option Bool
  file : Option Bool
deriving DecidableEq

def Settings.apply (s : Settings) (c : Change) : Settings :=
  ⟨c.level.getD s.level, c.format.getD s.format, c.console.getD s.console, c.file.getD s.file⟩

/-! ## Files -/

/-- When a file was last written: at a time before the program started, at a step of it, or, as its
date says, at a time that is still to come. -/
inductive Written where
  | before (time : Binary64)
  | during (step : Nat)
  | after (time : Binary64)
deriving DecidableEq

/-- The place of a date among writings, seen from the present. -/
def Written.ofTime (present time : Binary64) : Written :=
  if Binary64.ltFinite present time then .after time else .before time

/-- The order of last writing. -/
def Written.le : Written → Written → Bool
  | .before a, .before b => !Binary64.ltFinite b a
  | .before _, _ => true
  | .during a, .during b => a ≤ b
  | .during _, .after _ => true
  | .after a, .after b => !Binary64.ltFinite b a
  | _, _ => false

/-- A file in the log directory. -/
structure LogFile where
  name : String
  written : Written
  text : List Char
deriving DecidableEq

/-- The number of dated files that are kept. -/
def keptFiles : Nat := 10

/-- Whether a name has the form of a dated log file: four, two and two characters joined by hyphens,
a capital T, six characters, and the extension. -/
def isDatedName (name : String) : Bool :=
  match name.toList with
  | [_, _, _, _, '-', _, _, '-', _, _, 'T', _, _, _, _, _, _, '.', 'l', 'o', 'g'] => true
  | _ => false

/-- The files that stay when the oldest dated ones are removed. -/
def keepLatest (files : List LogFile) : List LogFile :=
  let dated := (files.filter fun f => isDatedName f.name).mergeSort fun a b =>
    a.written.le b.written
  let old := (dated.take (dated.length - keptFiles)).map (·.name)
  files.filter fun f => !old.contains f.name

/-- Starts a file afresh. -/
def startFile (files : List LogFile) (name : String) (step : Nat) : List LogFile :=
  files.filter (·.name ≠ name) ++ [⟨name, .during step, []⟩]

/-- Adds a line to a file. -/
def appendLine (files : List LogFile) (name : String) (step : Nat) (line : List Char) :
    List LogFile :=
  files.map fun f => if f.name = name then ⟨name, .during step, f.text ++ line⟩ else f

/-! ## State -/

/-- A logger is known by its number; its tags are attached to every line it writes. -/
abbrev LoggerId := Nat

structure State where
  settings : Settings
  now : Reading
  lastLine : Reading
  /-- Tags of the loggers by number. -/
  loggers : List (Named Value)
  /-- Loggers that are shared by their service. -/
  services : List (String × LoggerId)
  /-- The name of the current file; it stays known after the file is closed. -/
  current : Option String
  isOpen : Bool
  files : List LogFile
  /-- Counts what was written to files. -/
  step : Nat
  /-- The text written to the console. -/
  console : List Char

namespace State

/-- The state whose clock shows a point in time, with files that are there already and their dates
seen from the present. -/
def initial (start : Reading) (present : Binary64) (existing : List (String × Binary64)) :
    State where
  settings := .initial
  now := start
  lastLine := start
  loggers := []
  services := []
  current := none
  isOpen := false
  files := existing.map fun (name, time) => ⟨name, .ofTime present time, []⟩
  step := 0
  console := []

/-! ## Operations -/

/-- A new logger. -/
def newLogger (s : State) (tags : Named Value) : State × LoggerId :=
  ({ s with loggers := s.loggers ++ [tags] }, s.loggers.length)

/-- The logger with the given tags, shared by all that name the same service. -/
def create (s : State) (tags : Named Value) : State × LoggerId :=
  match tags.get? "service" with
  | some (.json (.str service)) =>
    if service.isEmpty then s.newLogger tags
    else match s.services.lookup service with
      | some id => (s, id)
      | none =>
        let (s, id) := s.newLogger tags
        ({ s with services := s.services ++ [(service, id)] }, id)
  | _ => s.newLogger tags

def tagsOf (s : State) (id : LoggerId) : Named Value := (s.loggers[id]?).getD []

/-- A logger of its own with the tags of another. -/
def clone (s : State) (id : LoggerId) : State × LoggerId := s.newLogger (s.tagsOf id)

/-- Sets a tag. -/
def tag (s : State) (id : LoggerId) (key : String) (value : Value) : State :=
  { s with loggers := s.loggers.set id ((s.tagsOf id).put key value) }

/-- A state after an operation, and what came of the operation. -/
abbrev After (α : Type) : Type := State × Except Failure α

/-- Writes a line to the sinks that are on; the console comes first. -/
def write (s : State) (line : List Char) : After Unit :=
  let s := if s.settings.console then { s with console := s.console ++ line } else s
  match s.current with
  | some name =>
    if s.settings.file && s.isOpen then
      if isWritable line then
        ({ s with files := appendLine s.files name s.step line, step := s.step + 1 }, .ok ())
      else (s, .error .unwritable)
    else (s, .ok ())
  | none => (s, .ok ())

/-- A log call with explicit tags. A point in time is kept even if it has no date or there is no line,
but then nothing is written. -/
def logTags (s : State) (tags : Named Value) (level : Level) (message : Value)
    (extra : Named Value) : After Unit :=
  if level.rank < s.settings.level.rank then (s, .ok ())
  else
    match milliseconds s.lastLine s.now with
    | .error f => (s, .error f)
    | .ok delta =>
      let s := { s with lastLine := s.now }
      match timeText s.now with
      | .error f => (s, .error f)
      | .ok time =>
        match line s.settings.format level (payload time delta level message (tags.overlay extra)) with
        | .error f => (s, .error f)
        | .ok written => s.write written

/-- A log call of a logger. -/
def log (s : State) (id : LoggerId) (level : Level) (message : Value) (extra : Named Value) :
    After Unit :=
  s.logTags (s.tagsOf id) level message extra

/-- The log call of a service. -/
def logEntry (s : State) (e : Entry) : After Unit :=
  s.logTags [("service", .json (.str e.service))] e.level (.json (.str e.message))
    (e.extra.map fun (k, v) => (k, .json v))

/-- A running timer. -/
structure Timer where
  logger : LoggerId
  message : Value
  extra : Named Value
  start : Reading

/-- Starts a timer, which writes a line. -/
def startTimer (s : State) (id : LoggerId) (message : Value) (extra : Named Value) :
    After Timer :=
  let (s, r) := s.log id .info message (extra.put "status" (.json (.str "started")))
  (s, r.map fun _ => ⟨id, message, extra, s.now⟩)

/-- Stops a timer, which writes a line with the time that has passed. -/
def stopTimer (s : State) (t : Timer) : After Unit :=
  match milliseconds t.start s.now with
  | .error f => (s, .error f)
  | .ok duration =>
    s.log t.logger .info t.message
      ((t.extra.put "status" (.json (.str "completed"))).put "duration" (.json (.int duration)))

/-- A timer that runs while the clock moves on by some seconds. It is stopped even if the clock
cannot move. -/
def timed (s : State) (id : LoggerId) (message : Value) (extra : Named Value) (seconds : Reading) :
    After Unit :=
  match s.startTimer id message extra with
  | (s, .error f) => (s, .error f)
  | (s, .ok t) =>
    match later s.now seconds with
    | .ok now => { s with now := now }.stopTimer t
    | .error f =>
      let (s, r) := s.stopTimer t
      (s, r.bind fun _ => .error f)

/-- Closes the current file. -/
def close (s : State) : State := { s with isOpen := false }

/-- The name of the file of a development run. -/
def devName : String := "dev.log"

/-- The name of the file that a run writes. -/
def fileName (s : State) (dev : Bool) : Except Failure String :=
  if dev then .ok devName else (stampText s.now).map (· ++ ".log")

/-- Changes the settings. File output starts a fresh file, after the oldest ones are removed; at a
point in time that has no date the file of before stays the current one, closed. -/
def configure (s : State) (change : Change) (dev : Bool) : After Unit :=
  let s := { s with settings := s.settings.apply change, isOpen := false }
  if s.settings.file then
    let s := { s with files := keepLatest s.files }
    match s.fileName dev with
    | .error f => (s, .error f)
    | .ok name =>
      ({ s with
        files := startFile s.files name s.step
        step := s.step + 1
        current := some name
        isOpen := true }, .ok ())
  else ({ s with current := none }, .ok ())

end State

/-- The setting that a text names. -/
def setting {α : Type} (what : String) (parse : String → Option α) (s : String) :
    Except Failure α :=
  match parse s with
  | some a => .ok a
  | none => .error (.value ("invalid log " ++ what ++ ": " ++ s))

/-- The setting that a text names; an empty or absent text changes nothing. -/
def named? {α : Type} (what : String) (parse : String → Option α) :
    Option String → Except Failure (Option α)
  | none => .ok none
  | some s =>
    if s.isEmpty then .ok none
    else (setting what parse s).map some

/-- The setting that a value names: the usual one for null, else what a text says. -/
def readSetting {α : Type} (what : String) (parse : String → Option α) (usual : α) :
    Json → Except Failure α
  | .null => .ok usual
  | .str s => setting what parse s
  | _ => .error (.unknownAttribute "")

def readLevel : Json → Except Failure Level := readSetting "level" Level.parse? .info

def readFormat : Json → Except Failure Format := readSetting "format" Format.parse? .kv

/-- The change that a configuration section asks for. -/
def Change.ofConfig (c : LoggingConfig) : Except Failure Change := do
  let level ← named? "level" Level.parse? c.level
  let format ← named? "format" Format.parse? c.format
  .ok ⟨level, format, c.console, c.file⟩

namespace State

/-- Applies a configuration section. -/
def configureFrom (s : State) (c : LoggingConfig) : After Unit :=
  match Change.ofConfig c with
  | .ok change => s.configure change false
  | .error f => (s, .error f)

end State

end EditorServices.Log
