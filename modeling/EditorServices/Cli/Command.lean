import EditorServices.Cli.Options
import EditorServices.FileTree
import EditorServices.Session.Query
import EditorServices.Text.IntegerText

/-!
# `Cli.Command` — what the arguments of each command mean

Arguments are read in stages: those of the program, then the name of a command, then those of the
command.

## Contents
- **Outcomes.** `Parsed`, which also says that help is wanted or that the arguments are wrong.
- **Arguments.** Numbers and files.
- **Commands.** Options of the program, of highlighting and of queries, with their readers.
-/

namespace EditorServices.Cli

open Session (Query)

/-! ## Outcomes -/

/-- What arguments mean. -/
inductive Parsed (α : Type) where
  | accepted (a : α)
  /-- The command is to show what it is for. -/
  | help
  /-- The program is to show its version. -/
  | version
  /-- The arguments are wrong. -/
  | refused

/-- What options mean that come first, whatever else is there. -/
def firstWish? {α : Type} (g : Given) : Option (Parsed α) :=
  (g.options.find? fun o => o.1 = "help" ∨ o.1 = "version").map fun o =>
    if o.1 = "help" then .help else .version

/-- Reads arguments that a reader accepts, unless help or the version is asked for. -/
def parsed {α : Type} (r : Reader) (args : List String) (meaning : Given → Option α) : Parsed α :=
  match r.read? args with
  | none => .refused
  | some g =>
    match firstWish? g, meaning g with
    | some wish, _ => wish
    | none, some a => .accepted a
    | none, none => .refused

/-! ## Arguments -/

/-- A number from zero on. -/
def natural? (s : String) : Option Nat :=
  match IntegerText.readInteger s.toList with
  | .value (.ofNat n) => some n
  | _ => none

/-- The value of an option that is a number from zero on; refused if there is another value. -/
def naturalOption? (g : Given) (name : String) : Option (Option Nat) :=
  match g.value? name with
  | none => some none
  | some s => (natural? s).map some

/-- A file that an argument names, with the path that leads to it. -/
structure NamedFile where
  /-- The path as it was given, in its tidy form. -/
  given : String
  path : String
  bytes : Bytes
deriving DecidableEq

/-- The file that a path names, if there is one. A broken path cannot even be looked for. -/
def file? (tree : FileTree) (cwd argument : String) : Option (Except Failure NamedFile) :=
  let given := String.ofList (Path.tidy argument.toList)
  if Path.isBroken given then some (.error .brokenPath)
  else match tree.locate? cwd given with
    | none => none
    | some path =>
      match tree.find path with
      | .file bytes => some (.ok ⟨given, path, bytes⟩)
      | _ => none

/-! ## Commands -/

/-- What is asked of the program before any command. -/
structure MainOptions where
  logLevel : Option String
  printLogs : Bool
deriving DecidableEq

def mainReader : Reader :=
  ⟨[helpOption, ⟨"version", some 'v', false⟩, ⟨"log-level", none, true⟩,
    ⟨"print-logs", none, false⟩], false⟩

/-- The options of the program, the name of a command, and its arguments. -/
def readMain : List String → Parsed (MainOptions × String × List String)
  | [] => .refused
  | args =>
    parsed mainReader args fun g =>
      match g.words with
      | [] => none
      | name :: rest => some (⟨g.nonEmpty? "log-level", g.has "print-logs"⟩, name, rest)

/-- What is asked of highlighting. -/
structure HighlightOptions where
  file : NamedFile
  language : Option String
  theme : Option String
  first : Nat
  last : Option Nat
  numbers : Bool
deriving DecidableEq

def highlightReader : Reader :=
  ⟨[helpOption, ⟨"language", some 'l', true⟩, ⟨"theme", some 't', true⟩, ⟨"start", none, true⟩,
    ⟨"end", none, true⟩, ⟨"line-numbers", some 'n', false⟩], true⟩

/-- The options are looked at before the file. -/
def readHighlight (tree : FileTree) (cwd : String) (args : List String) :
    Parsed (Except Failure HighlightOptions) :=
  parsed highlightReader args fun g => do
    let first ← naturalOption? g "start"
    let last ← naturalOption? g "end"
    let word ← g.words.head?
    match ← file? tree cwd word with
    | .error f => return .error f
    | .ok file =>
      if g.words.length = 1 then
        return .ok ⟨file, g.nonEmpty? "language", g.nonEmpty? "theme", first.getD 0, last,
          g.has "line-numbers"⟩
      else none

/-- What is asked of a query. -/
structure QueryOptions where
  file : NamedFile
  line : Nat
  character : Nat
  command : Option String
  socket : Option String
  language : Option String
deriving DecidableEq

def queryReader : Reader :=
  ⟨[helpOption, ⟨"command", some 'c', true⟩, ⟨"socket", some 's', true⟩,
    ⟨"language", some 'l', true⟩], true⟩

/-- The file is looked at before the position. -/
def readQuery (tree : FileTree) (cwd : String) (args : List String) :
    Parsed (Except Failure QueryOptions) :=
  parsed queryReader args fun g => do
    let word ← g.words.head?
    match ← file? tree cwd word with
    | .error f => return .error f
    | .ok file =>
      let [line, character] := g.words.tail | none
      let line ← natural? line
      let character ← natural? character
      return .ok ⟨file, line, character, g.nonEmpty? "command", g.nonEmpty? "socket",
        g.nonEmpty? "language"⟩

/-- The queries by the names of their commands. -/
def queries : List (String × Query) :=
  [("hover", .hover), ("definition", .definition), ("references", .references),
   ("completions", .completions)]

/-- The query that arguments name, and its own arguments. -/
def readQueryName (args : List String) : Parsed (Query × List String) :=
  parsed ⟨[helpOption], false⟩ args fun g =>
    match g.words with
    | [] => none
    | name :: rest => (queries.lookup name).map fun q => (q, rest)

/-- A command of the program. -/
inductive CommandName where
  | highlight
  | query
deriving DecidableEq, Repr

/-- The commands by name. -/
def commands : List (String × CommandName) := [("highlight", .highlight), ("lsp", .query)]

end EditorServices.Cli
