import EditorServices.Json.Fields
import EditorServices.Schema.Report

/-!
# `Failure` — why an operation came to no result

## Contents
- **Causes.** `Failure`, one constructor for each cause that callers can tell apart.
- **Texts.** `text` says what happened, `fullText` also lists issues; `summary?` is the short
  message for users, given for the causes that users know; `reported` and `lastLine` are for reports
  of what was not expected.
- **Structured form.** `toJson`, and `outcomeJson` of a result or a failure.
- **Values in place of failures.** `shownValue`.
- **Expected kinds.** `textOf` and `membersOf`, which refuse values of another kind.
-/

namespace EditorServices

/-! ## Causes -/

/-- Why an operation came to no result. -/
inductive Failure where
  /-- The server answered the handshake with an error. -/
  | handshakeRejected (detail : Json)
  /-- The channel to the server ended, could not be opened, or was disposed of. -/
  | channelClosed (reason : String) (cause : Option String)
  /-- The host lacks something that the caller asked for. -/
  | unsupported (message : String)
  /-- A session failed in some other way. -/
  | session (message : String)
  /-- A configuration source is at fault; `issues` if it was read but not accepted. -/
  | config (source message : String) (issues : List Schema.Issue)
  /-- A lexer gave up on a line. -/
  | tokenize (message : String)
  /-- A value does not fit. -/
  | value (message : String)
  /-- Something failed while running. -/
  | runtime (message : String)
  /-- A record was not accepted. -/
  | invalid (model : String) (issues : List Schema.Issue)
  /-- Properties of an event are of another kind. -/
  | wrongProperties (model : String)
  /-- A value of another kind was expected. -/
  | wrongKind
  /-- A configuration file has a token in the wrong place. -/
  | unexpectedToken
  /-- Arrays and objects are nested too deeply. -/
  | tooDeep
  /-- A style tag closes what is not open. -/
  | unmatchedTag
  | missingFile
  /-- A file is in the way of a directory, above it or under its name. -/
  | notADirectory
  | fileExists
  /-- A directory is in the way of a file. -/
  | isADirectory
  /-- The bytes of a file are no text. -/
  | malformedText (detail : String)
  /-- A text with half a surrogate pair cannot be written as bytes. -/
  | unwritable
  | cancelled
  | outOfRange
  | overflow
  /-- There is not enough memory. -/
  | noRoom
  | system (message : String)
  /-- A name is too long for the host. -/
  | longName
  /-- The host refuses access to a file or a directory. -/
  | permission
  /-- There is no frame body to deliver again. -/
  | noBody
  | unknownName
  /-- A value has no part of some name. -/
  | unknownAttribute (message : String)
deriving DecidableEq, Inhabited

/-- Outcomes can be compared when what they hold can. -/
instance decidableEqOutcome {ε α : Type} [DecidableEq ε] [DecidableEq α] : DecidableEq (Except ε α)
  | .ok x, .ok y => decidable_of_iff (x = y) ⟨congrArg Except.ok, Except.ok.inj⟩
  | .error e, .error f => decidable_of_iff (e = f) ⟨congrArg Except.error, Except.error.inj⟩
  | .ok _, .error _ => .isFalse nofun
  | .error _, .ok _ => .isFalse nofun

/-- A path holds a character that no name of a file can hold. -/
def Failure.brokenPath : Failure := .value "embedded null byte"

/-! ## Texts -/

/-- How many validation errors a record had, in words. -/
def errorCount (n : Nat) (model : String) : String :=
  toString n ++ (if n = 1 then " validation error for " else " validation errors for ") ++ model

namespace Failure

/-- What a rejected handshake is reported as: the message of the detail, or else the whole
detail. -/
def handshakeText (detail : Json) : String :=
  let message := match detail.get? "message" with
    | some m => if m.isFalsy then detail else m
    | none => detail
  "Initialization failed: " ++ message.shown

/-- What happened. -/
def text : Failure → String
  | .handshakeRejected detail => handshakeText detail
  | .channelClosed reason _ => reason
  | .unsupported m | .session m | .tokenize m | .value m | .runtime m | .system m
  | .malformedText m | .unknownAttribute m => m
  | .config source message _ => "Config error in " ++ source ++ ": " ++ message
  | .invalid model issues => errorCount issues.length model
  | .wrongProperties model => "Properties must be instance of " ++ model
  | .wrongKind | .unexpectedToken | .tooDeep | .unmatchedTag | .missingFile | .notADirectory
  | .fileExists | .isADirectory | .unwritable | .cancelled | .outOfRange | .overflow | .noRoom
  | .longName | .permission | .noBody | .unknownName => ""

/-- What happened, with all issues of a configuration or a record. -/
def fullText (f : Failure) : String :=
  match f with
  | .config _ _ issues | .invalid _ issues =>
    "\n".intercalate (f.text :: issues.map Schema.Issue.report)
  | _ => f.text

/-- The short message for users; none for causes that users do not know. -/
def summary? : Failure → Option String
  | .handshakeRejected detail =>
    some ("Language server rejected initialization: " ++ detail.shown)
  | .channelClosed reason _ => some ("Language server connection closed (" ++ reason ++ ")")
  | .unsupported m => some ("Unsupported on this platform: " ++ m)
  | .config source message issues => some (Failure.config source message issues).text
  | _ => none

/-- The name of the cause. -/
def kindName : Failure → String
  | .handshakeRejected _ => "InitializationFailedError"
  | .channelClosed _ _ => "TransportClosedError"
  | .unsupported _ => "UnsupportedOperationError"
  | .session _ => "LSPError"
  | .config _ _ _ => "ConfigError"
  | .tokenize _ => "TokenizeError"
  | .value _ => "ValueError"
  | .runtime _ => "RuntimeError"
  | .invalid _ _ => "ValidationError"
  | .wrongProperties _ | .wrongKind => "TypeError"
  | .unexpectedToken => "UnexpectedToken"
  | .tooDeep => "RecursionError"
  | .unmatchedTag => "MarkupError"
  | .missingFile => "FileNotFoundError"
  | .notADirectory => "NotADirectoryError"
  | .fileExists => "FileExistsError"
  | .isADirectory => "IsADirectoryError"
  | .malformedText _ => "UnicodeDecodeError"
  | .unwritable => "UnicodeEncodeError"
  | .cancelled => "CancelledError"
  | .outOfRange => "IndexError"
  | .overflow => "OverflowError"
  | .noRoom => "MemoryError"
  | .system _ | .longName => "OSError"
  | .permission => "PermissionError"
  | .noBody => "UnboundLocalError"
  | .unknownName => "KeyError"
  | .unknownAttribute _ => "AttributeError"

/-- The component that a cause belongs to, if it is one of the program's own. -/
def component? : Failure → Option String
  | .handshakeRejected _ | .channelClosed _ _ | .unsupported _ | .session _ =>
    some "glint.lsp.errors"
  | .config _ _ _ => some "glint.core.config"
  | .tokenize _ => some "glint.highlight.tokenizer"
  | _ => none

/-- The cause and what happened. -/
def described (f : Failure) : String := f.kindName ++ ": " ++ f.text

/-- The cause with its component, and what happened unless that is empty. -/
def reported (f : Failure) : String :=
  let name := match f.component? with
    | some c => c ++ "." ++ f.kindName
    | none => f.kindName
  if f.text.isEmpty then name else name ++ ": " ++ f.text

/-- The last line of what is reported, without the line ends after it. -/
def lastLine (f : Failure) : String :=
  String.ofList ((f.reported.toList.reverse.dropWhile (· = '\n')).takeWhile (· ≠ '\n')).reverse

/-! ## Structured form -/

/-- What is known of a failure beside the name of its cause. -/
def details : Failure → Members
  | .handshakeRejected detail =>
    [("message", .str (handshakeText detail)), ("detail", detail)]
  | .channelClosed reason cause => [("message", .str reason), ("cause", Json.ofText? cause)]
  | .config source message issues =>
    [("path", .str source), ("message", .str (Failure.config source message issues).text)] ++
      if issues.isEmpty then [] else [("errors", .arr (issues.map Schema.Issue.toJson))]
  | .invalid _ issues => [("errors", .arr (issues.map Schema.Issue.toJson))]
  | .unsupported m | .session m | .tokenize m | .value m | .runtime m => [("message", .str m)]
  | .wrongProperties model => [("message", .str (Failure.wrongProperties model).text)]
  | _ => []

/-- The structured form of a failure. -/
def toJson (f : Failure) : Json := .obj (("error", .str f.kindName) :: f.details)

/-- The structured form of what came of an operation. -/
def outcomeJson (r : Except Failure Json) : Json :=
  match r with
  | .ok v => .obj [("result", v)]
  | .error f => f.toJson

/-! ## Values in place of failures -/

/-- A value that was raised in place of a failure: lists and records are laid out. -/
def shownValue : Json → String
  | .arr xs => (Json.arr xs).toText .laidOut
  | .obj ms => (Json.obj ms).toText .laidOut
  | v => v.shown

/-! ## Expected kinds -/

/-- The text that a value is. -/
def textOf : Json → Except Failure String
  | .str s => .ok s
  | _ => .error .wrongKind

/-- The members that a value has. -/
def membersOf : Json → Except Failure Members
  | .obj ms => .ok ms
  | _ => .error (.unknownAttribute "")

end Failure

end EditorServices
