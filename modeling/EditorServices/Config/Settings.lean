import EditorServices.Schema.Checked
import EditorServices.Failure
import EditorServices.Text.IntegerText
import EditorServices.Environment

/-!
# `Config.Settings` — the sections of a configuration

## Contents
- **Servers.** `LspConfig`: how a language server is reached; its endpoint rules.
- **Highlighting.** `HighlightConfig`.
- **Logging.** `LoggingConfig`.
- **All of it.** `Settings`.

Each section has a reader `check`, which refuses unknown names, and a writer `toJson`, which uses
the field's own names.
-/

namespace EditorServices

open Schema

/-! ## Servers -/

/-- How a language server is reached and what is expected of it. -/
structure LspConfig where
  command : Option (List String)
  socket : Option String
  languageId : Option String
  settleDelayMs : Nat
  disableWarning : Bool
  disableError : Bool
  env : Environment
deriving DecidableEq

/-- A socket text cut at its last colon. -/
def cutSocket? (s : List Char) : Option (List Char × List Char) :=
  if s.contains ':' then
    let port := (s.reverse.takeWhile (· ≠ ':')).reverse
    some (s.take (s.length - port.length - 1), port)
  else none

/-- Whether a text has the form of a socket: a host, a colon, and a port of digits. -/
def isSocketText (s : List Char) : Bool :=
  match cutSocket? s with
  | some (host, port) => !host.isEmpty && !port.isEmpty && port.all isAnyDigit
  | none => false

namespace LspConfig

/-- A section that configures nothing. -/
def empty : LspConfig := ⟨none, none, none, 300, false, false, []⟩

def commandField : FieldName := .plain "command"
def socketField : FieldName := .plain "socket"
def languageField : FieldName := ⟨"language_id", some "languageId"⟩
def delayField : FieldName := ⟨"settle_delay_ms", some "settleDelayMs"⟩
def warningField : FieldName := ⟨"disable_warning", some "disableWarning"⟩
def errorField : FieldName := ⟨"disable_error", some "disableError"⟩
def envField : FieldName := .plain "env"

def fields : List FieldName :=
  [commandField, socketField, languageField, delayField, warningField, errorField, envField]

/-- A socket text of the right form. -/
def checkSocket (j : Json) : Checked String :=
  (string j).refine fun s =>
    if isSocketText s.toList then .valid s
    else .fail (.rule "socket must be in host:port form") j

/-- Whether a command is configured; an empty one counts as none. -/
def hasCommand (c : LspConfig) : Bool := c.command.any fun words => !words.isEmpty

/-- Whether a socket is configured; an empty one counts as none. -/
def hasSocket (c : LspConfig) : Bool := c.socket.any fun s => !s.isEmpty

/-- A section, made of some members, names at most one endpoint. -/
def oneEndpoint (ms : Members) (c : LspConfig) : Checked LspConfig :=
  if c.hasCommand && c.hasSocket then
    .fail (.rule "configure either 'command' or 'socket', not both") (.obj ms)
  else .valid c

/-- The members of a section. -/
def checkMembers (ms : Members) : Checked LspConfig :=
  (LspConfig.mk
      <$> optional ms commandField none (nullable (listOf string))
      <*> optional ms socketField none (nullable checkSocket)
      <*> optional ms languageField none (nullable string)
      <*> optional ms delayField 300 (naturalFrom 0)
      <*> optional ms warningField false boolean
      <*> optional ms errorField false boolean
      <*> optional ms envField [] (dictOf string)
    |>.withIssues (extraNames fields ms)).refine (oneEndpoint ms)

def check : Json → Checked LspConfig := record "LSPConfig" checkMembers

def toMembers (c : LspConfig) : Members :=
  [("command", (c.command.map fun ws => Json.arr (ws.map Json.str)).getD .null),
   ("socket", .ofText? c.socket),
   ("language_id", .ofText? c.languageId),
   ("settle_delay_ms", .int c.settleDelayMs),
   ("disable_warning", .bool c.disableWarning),
   ("disable_error", .bool c.disableError),
   ("env", c.env.toJson)]

def toJson (c : LspConfig) : Json := .obj c.toMembers

/-- The members that take the place of those of a section: either endpoint ends the other. -/
def overrides (command : Option (List String)) (socket language : Option String) : Members :=
  let ofCommand : Members := match command with
    | some words => [("command", .ofTexts words), ("socket", .null)]
    | none => []
  let ofSocket : Members := match socket with
    | some s => [("socket", .str s), ("command", .null)]
    | none => []
  let ofLanguage : Members := match language with
    | some l => [("language_id", .str l)]
    | none => []
  (ofCommand.overlay ofSocket).overlay ofLanguage

/-- A section with some members replaced, which is read anew. -/
def withOverrides (c : LspConfig) (overrides : Members) : Checked LspConfig :=
  if overrides.isEmpty then .valid c else check (.obj (c.toMembers.overlay overrides))

/-- The delay after a document is opened, in seconds. -/
def settleDelay (c : LspConfig) : Except Failure Binary64 :=
  let seconds := Binary64.ofRatio false c.settleDelayMs 1000
  if seconds.isInfinite then .error .overflow else .ok seconds

/-- Host and port of the socket. -/
def socketAddress (c : LspConfig) : Except Failure (String × Nat) :=
  match c.socket with
  | none => .error (.value "no socket configured")
  | some s =>
    if s.isEmpty then .error (.value "no socket configured")
    else
      let (host, port) := (cutSocket? s.toList).getD ([], s.toList)
      match plainNumber port with
      | .ok n => .ok (String.ofList host, n)
      | .error message => .error (.value message)

end LspConfig

/-! ## Highlighting -/

/-- Where large batches are tokenized. -/
inductive WorkerKind where
  | process
  | thread
deriving DecidableEq, Repr, Inhabited

namespace WorkerKind

def name : WorkerKind → String
  | .process => "process"
  | .thread => "thread"

def choices : List (String × WorkerKind) := [("process", .process), ("thread", .thread)]

end WorkerKind

/-- How text is highlighted. -/
structure HighlightConfig where
  theme : String
  batchThreshold : Nat
  worker : WorkerKind
deriving DecidableEq

namespace HighlightConfig

/-- The theme used when none is given or the given one is unknown. -/
def defaultTheme : String := "monokai"

/-- Batches of this size or larger go to a worker. -/
def defaultThreshold : Nat := 50

def empty : HighlightConfig := ⟨defaultTheme, defaultThreshold, .process⟩

def themeField : FieldName := .plain "theme"
def thresholdField : FieldName := ⟨"batch_threshold", some "batchThreshold"⟩
def workerField : FieldName := .plain "worker"

def fields : List FieldName := [themeField, thresholdField, workerField]

def checkMembers (ms : Members) : Checked HighlightConfig :=
  HighlightConfig.mk
      <$> optional ms themeField defaultTheme string
      <*> optional ms thresholdField defaultThreshold (naturalFrom 1)
      <*> optional ms workerField .process (word WorkerKind.choices)
    |>.withIssues (extraNames fields ms)

def check : Json → Checked HighlightConfig := record "HighlightConfig" checkMembers

def toJson (c : HighlightConfig) : Json :=
  .obj [("theme", .str c.theme), ("batch_threshold", .int c.batchThreshold),
    ("worker", .str c.worker.name)]

end HighlightConfig

/-! ## Logging -/

/-- What is logged and where to; absent settings leave the current ones alone. -/
structure LoggingConfig where
  level : Option String
  format : Option String
  console : Option Bool
  file : Option Bool
deriving DecidableEq

namespace LoggingConfig

def empty : LoggingConfig := ⟨none, none, none, none⟩

/-- The names of line formats. -/
def formatWords : List (String × String) :=
  [("kv", "kv"), ("json", "json"), ("pretty", "pretty")]

def levelField : FieldName := .plain "level"
def formatField : FieldName := .plain "format"
def consoleField : FieldName := .plain "console"
def fileField : FieldName := .plain "file"

def fields : List FieldName := [levelField, formatField, consoleField, fileField]

def checkMembers (ms : Members) : Checked LoggingConfig :=
  LoggingConfig.mk
      <$> optional ms levelField none (nullable string)
      <*> optional ms formatField none (nullable (word formatWords))
      <*> optional ms consoleField none (nullable boolean)
      <*> optional ms fileField none (nullable boolean)
    |>.withIssues (extraNames fields ms)

def check : Json → Checked LoggingConfig := record "LoggingConfig" checkMembers

def toJson (c : LoggingConfig) : Json :=
  .obj [("level", .ofText? c.level),
    ("format", .ofText? c.format),
    ("console", (c.console.map Json.bool).getD .null),
    ("file", (c.file.map Json.bool).getD .null)]

end LoggingConfig

/-! ## All of it -/

/-- A whole configuration. -/
structure Settings where
  lsp : LspConfig
  highlight : HighlightConfig
  logging : LoggingConfig
deriving DecidableEq

namespace Settings

def lspField : FieldName := .plain "lsp"
def highlightField : FieldName := .plain "highlight"
def loggingField : FieldName := .plain "logging"

def fields : List FieldName := [lspField, highlightField, loggingField]

def checkMembers (ms : Members) : Checked Settings :=
  Settings.mk
      <$> optional ms lspField .empty LspConfig.check
      <*> optional ms highlightField .empty HighlightConfig.check
      <*> optional ms loggingField .empty LoggingConfig.check
    |>.withIssues (extraNames fields ms)

def check : Json → Checked Settings := record "Config" checkMembers

def toJson (s : Settings) : Json :=
  .obj [("lsp", s.lsp.toJson), ("highlight", s.highlight.toJson), ("logging", s.logging.toJson)]

end Settings

end EditorServices
