/-!
# `Cli.Options` — arguments as options and words

An option has a long name, and may have a one-letter name. Letters of options without a value can be
written together. A value stands after an equals sign, directly after the letter, or in the next
argument. After two hyphens there are only words.

## Contents
- **Grammar.** `OptionKind`, `Reader`.
- **Arguments.** `Given`, what the arguments of a command say.
- **Reading.** `Reader.read?`; none if an option is unknown, lacks its value, or has one too many.
- **Looking up.** `Given.value?` and `Given.has`.
-/

namespace EditorServices.Cli

/-! ## Grammar -/

/-- An option of a command. -/
structure OptionKind where
  /-- The long name without its hyphens. -/
  name : String
  letter : Option Char
  takesValue : Bool
deriving DecidableEq, Repr

/-- The options of a command, and whether options may follow words. -/
structure Reader where
  kinds : List OptionKind
  mixed : Bool
deriving DecidableEq, Repr

/-- The option that shows what a command is for; every command has it. -/
def helpOption : OptionKind := ⟨"help", none, false⟩

/-! ## Arguments -/

/-- What arguments say: the options in order, each with its value if it takes one, and the words. -/
structure Given where
  options : List (String × String)
  words : List String
deriving DecidableEq, Repr

namespace Given

/-- Arguments with an option before them. -/
def withOption (g : Given) (name value : String) : Given :=
  { g with options := (name, value) :: g.options }

/-- Arguments with some options before them. -/
def withOptions (g : Given) (options : List (String × String)) : Given :=
  { g with options := options ++ g.options }

/-- Arguments with a word before them. -/
def withWord (g : Given) (word : String) : Given := { g with words := word :: g.words }

/-! ## Looking up -/

/-- The value of an option; the last one counts. -/
def value? (g : Given) (name : String) : Option String := g.options.reverse.lookup name

/-- The value of an option unless it is empty. -/
def nonEmpty? (g : Given) (name : String) : Option String :=
  (g.value? name).filter fun s => !s.isEmpty

def has (g : Given) (name : String) : Bool := (g.value? name).isSome

end Given

/-! ## Reading -/

/-- What one argument says: options, and the option whose value is in the next argument. -/
structure Piece where
  options : List (String × String)
  waiting : Option String
deriving DecidableEq, Repr

namespace Reader

def long? (r : Reader) (name : List Char) : Option OptionKind :=
  r.kinds.find? fun k => k.name.toList = name

def letter? (r : Reader) (c : Char) : Option OptionKind := r.kinds.find? fun k => k.letter = some c

/-- A long option: its name, and its value after an equals sign. -/
def longPiece? (r : Reader) (name : List Char) (value : Option (List Char)) : Option Piece :=
  match r.long? name, value with
  | none, _ => none
  | some k, none =>
    if k.takesValue then some ⟨[], some k.name⟩ else some ⟨[(k.name, "")], none⟩
  | some k, some v => if k.takesValue then some ⟨[(k.name, String.ofList v)], none⟩ else none

/-- Options written as letters. The rest after a letter is the value of an option that takes one. -/
def letterPiece? (r : Reader) : List Char → Option Piece
  | [] => some ⟨[], none⟩
  | c :: rest =>
    match r.letter? c with
    | none => none
    | some k =>
      if k.takesValue then
        if rest.isEmpty then some ⟨[], some k.name⟩
        else some ⟨[(k.name, String.ofList rest)], none⟩
      else (r.letterPiece? rest).map fun p => { p with options := (k.name, "") :: p.options }

/-- What an argument that starts with a hyphen says. -/
def piece? (r : Reader) : List Char → Option Piece
  | '-' :: '-' :: s =>
    let name := s.takeWhile (· ≠ '=')
    r.longPiece? name (if name.length < s.length then some (s.drop (name.length + 1)) else none)
  | '-' :: s => r.letterPiece? s
  | _ => none

/-- Whether an argument is meant as an option. -/
def isOption (arg : String) : Bool :=
  match arg.toList with
  | '-' :: _ :: _ => true
  | _ => false

/-- What arguments say. -/
def read? (r : Reader) : List String → Option Given
  | [] => some ⟨[], []⟩
  | arg :: rest =>
    if arg = "--" then some ⟨[], rest⟩
    else if isOption arg then
      match r.piece? arg.toList, rest with
      | none, _ => none
      | some ⟨options, none⟩, rest => (r.read? rest).map (·.withOptions options)
      | some ⟨_, some _⟩, [] => none
      | some ⟨options, some name⟩, value :: rest =>
        (r.read? rest).map fun g => (g.withOption name value).withOptions options
    else if r.mixed then (r.read? rest).map (·.withWord arg)
    else some ⟨[], arg :: rest⟩
termination_by args => args.length

end Reader

end EditorServices.Cli
