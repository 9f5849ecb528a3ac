import EditorServices.Cli.Command
import EditorServices.Cli.Errand
import EditorServices.Cli.Run
import EditorServices.Schema.Checked
import EditorServices.Session.Trace
import EditorServices.Text.ShellWords

/-!
# `Cli.Ask` — one question to a language server

The server is reached as the configuration of the file's directory says, unless options say
otherwise. A session that could be made is disposed of in any case.

## Contents
- **Configuration.** `serverConfig`, the section with what options put in its place.
- **Conversations.** `converse`, the errand of a question, with a scripted server.
- **The command.** `answerWith`, which makes the session, and `askServer`; `isExpected` says which failures
  are told in one line.
-/

namespace EditorServices.Cli

open Session (Play Profile Query Answer)

/-! ## Configuration -/

/-- The words of a command line. -/
def commandWords (text : String) : Except Failure (List String) :=
  match shellWords text.toList with
  | .ok words => .ok (words.map String.ofList)
  | .error fault => .error (.value fault.message)

/-- The directory of a file. -/
def directoryOf (file : NamedFile) : String := Path.parent file.path

/-- The section of the configuration that holds for a query. -/
def serverConfig (w : Config.World) (o : QueryOptions) : Reporting LspConfig := do
  let words ← Reporting.ofExcept (o.command.mapM commandWords)
  let settings ← Config.load w (directoryOf o.file)
  let overrides := LspConfig.overrides words o.socket o.language
  Reporting.ofExcept ((settings.1.lsp.withOverrides overrides).outcome "LSPConfig")

/-! ## Conversations -/

/-- Takes an errand to its end. -/
def carryOut (y : Play) (e : Errand) : Play × Except Failure Answer :=
  match _h : e.call? with
  | none => (y, e.gave)
  | some c =>
    let r := y.complete c
    carryOut r.1 (e.next r.2)
termination_by e.left
decreasing_by exact Errand.left_next (by assumption) _

/-- The handshake, the document and a question; the session is disposed of also after a failure. -/
def converse (y : Play) (q : Query) (line character : Nat) : Play × Except Failure Answer :=
  carryOut y (.of (Errand.calls q line character))

/-! ## The command -/

/-- What an answer is printed as. -/
def Answer.toJson : Answer → Json
  | .done => .null
  | .suggestions items => .arr (items.map Completion.Suggestion.toJson)
  | .text s => .str s
  | .target location => location
  | .locations items => .arr items

/-- Failures that are told in one line. -/
def isExpected : Failure → Bool
  | .handshakeRejected _ | .channelClosed _ _ | .unsupported _ | .session _ | .config _ _ _
  | .value _ | .invalid _ _ | .malformedText _ => true
  | _ => false

/-- What comes of a question: a server is chosen and a session made for it, with which `talk` is held. -/
def answerWith (w : Config.World) (host : Host) (o : QueryOptions)
    (talk : Profile → Run (Except Failure Answer)) : Run (Except Failure Answer) := do
  match ← Run.reporting (serverConfig w o) with
  | .error f => return .error f
  | .ok config =>
    match Transport.Endpoint.ofConfig host config (some (directoryOf o.file)) with
    | .error f => return .error f
    | .ok endpoint =>
      Run.modify fun r => { r with endpoint := some endpoint }
      match Profile.ofConfig host w.cwd o.file.path config with
      | .error f => return .error f
      | .ok profile => talk profile

/-- The answer of a scripted server. -/
def answerOf (w : Config.World) (host : Host) (server : Transport.ScriptedServer) (q : Query)
    (o : QueryOptions) : Run (Except Failure Answer) :=
  answerWith w host o fun profile => do
    let (y, answer) := converse (.new profile server (some o.file.bytes)) q o.line o.character
    Run.logAll (y.notes.filterMap Session.Note.entry?)
    Run.modify fun r => { r with notes := r.notes ++ y.notes }
    return answer

/-- Prints what the server answers. -/
def askServer (w : Config.World) (host : Host) (server : Transport.ScriptedServer) (q : Query)
    (o : QueryOptions) : Run Unit := do
  match ← answerOf w host server q o with
  | .ok answer => Run.printLine ((Answer.toJson answer).print .indented)
  | .error f =>
    if isExpected f then
      Run.complain (f.summary?.getD f.text)
      Run.stop .told
    else Run.stop (.escaped f)

end EditorServices.Cli
