import EditorServices.Json.Reader

/-!
# `Json.Commented` — JSON with comments and trailing commas

A commented text is read in two stages. The first cuts it into tokens and follows their grammar from
left to right, which settles where comments, blanks and trailing commas are; the second reads the
tokens that are left as plain JSON.

## Contents
- **Tokens.** `Token` and `nextToken`, the longest token at the start of a text.
- **Grammar.** `Machine`, which takes one token at a time and keeps those of plain JSON.
- **Reading.** `Limits` of a reader, and `Json.readCommented`.
-/

namespace EditorServices.Commented

/-! ## Tokens -/

/-- A token with its text where that is not settled by its kind. -/
inductive Token where
  | openBrace
  | closeBrace
  | openBracket
  | closeBracket
  | comma
  | colon
  | text (s : List Char)
  /-- A number or a word. -/
  | scalar (s : List Char)
deriving DecidableEq, Repr

namespace Token

/-- The text of a token. -/
def written : Token → List Char
  | .openBrace => ['{']
  | .closeBrace => ['}']
  | .openBracket => ['[']
  | .closeBracket => [']']
  | .comma => [',']
  | .colon => [':']
  | .text s => s
  | .scalar s => s

end Token

/-- Blanks between tokens: those of JSON and the form feed. -/
def isSkipped (c : Char) : Bool := isJsonBlank c || c.toNat == 12

/-- The text after leading blanks and comments. A comment runs from a hash or two solidi to the end
of its line. -/
def skipIgnored : Bool → List Char → List Char
  | _, [] => []
  | true, c :: r => if c = '\n' then skipIgnored false r else skipIgnored true r
  | false, c :: r =>
    if isSkipped c then skipIgnored false r
    else if c = '#' then skipIgnored true r
    else if c = '/' ∧ r.head? = some '/' then skipIgnored true r
    else c :: r

/-- A string up to and with its closing quote: the first quote that no backslash escapes. A string
holds no line feed. The first argument says whether the next character is escaped. -/
def readText : Bool → List Char → Option (List Char × List Char)
  | _, [] => none
  | escaped, c :: r =>
    if c = '\n' then none
    else if c = '"' ∧ escaped = false then some (['"'], r)
    else (readText (c = '\\' ∧ escaped = false) r).map fun (s, rest) => (c :: s, rest)

/-- The text of the exponent at the start of a text, the empty text if there is none. -/
def exponentText : List Char → List Char
  | e :: r =>
    if e = 'e' ∨ e = 'E' then
      let sign := match r with
        | '+' :: _ => ['+']
        | '-' :: _ => ['-']
        | _ => []
      let digits := (r.drop sign.length).takeWhile isDigit
      if digits.isEmpty then [] else e :: (sign ++ digits)
    else []
  | [] => []

/-- The text of the longest number at the start of a text: a sign, digits with at most one point
among them, and an exponent. -/
def numberText (s : List Char) : Option (List Char) :=
  let sign := match s with
    | '+' :: _ => ['+']
    | '-' :: _ => ['-']
    | _ => []
  let s := s.drop sign.length
  let whole := s.takeWhile isDigit
  let s := s.drop whole.length
  let fraction := match s with
    | '.' :: r => '.' :: r.takeWhile isDigit
    | _ => []
  if whole.isEmpty && fraction.length < 2 then none
  else some (sign ++ whole ++ fraction ++ exponentText (s.drop fraction.length))

/-- The words of commented JSON. -/
def words : List (List Char) := ["true".toList, "false".toList, "null".toList]

/-- The token at the start of a text and the text after it; none if no token starts there. -/
def nextToken (s : List Char) : Option (Token × List Char) :=
  match s with
  | [] => none
  | c :: r =>
    if c = '{' then some (.openBrace, r)
    else if c = '}' then some (.closeBrace, r)
    else if c = '[' then some (.openBracket, r)
    else if c = ']' then some (.closeBracket, r)
    else if c = ',' then some (.comma, r)
    else if c = ':' then some (.colon, r)
    else if c = '"' then (readText false r).map fun (t, rest) => (.text ('"' :: t), rest)
    else match words.find? (·.isPrefixOf s) with
      | some w => some (.scalar w, s.drop w.length)
      | none => (numberText s).map fun n => (.scalar n, s.drop n.length)

/-! ## Grammar -/

/-- What may come next. -/
inductive Expecting where
  | value
  /-- A first item, the end of the array, or a lone trailing comma. -/
  | firstItem
  /-- An item after a comma, or the end of the array. -/
  | nextItem
  /-- A comma or the end of the array. -/
  | afterItem
  /-- A first member, the end of the object, or a lone trailing comma. -/
  | firstMember
  | nextMember
  | colon
  | afterMember
  /-- Only the end of the array or object: a trailing comma stands in it alone. -/
  | onlyEnd
  /-- Nothing: the value is complete. -/
  | nothing
deriving DecidableEq, Repr

/-- The grammar on its way through a text. -/
structure Machine where
  expecting : Expecting
  /-- The arrays (false) and objects (true) that are open, the innermost first. -/
  nesting : List Bool
  /-- The tokens of plain JSON so far, the latest first. -/
  kept : List Token
deriving DecidableEq

namespace Machine

def initial : Machine := ⟨.value, [], []⟩

/-- What comes after a value, given what is open around it. -/
def afterValue : List Bool → Expecting
  | [] => .nothing
  | true :: _ => .afterMember
  | false :: _ => .afterItem

/-- Takes the first token of a value, after tokens that were held back. -/
def takeValue (m : Machine) (held : List Token) : Token → Option Machine
  | .openBrace => some ⟨.firstMember, true :: m.nesting, .openBrace :: held ++ m.kept⟩
  | .openBracket => some ⟨.firstItem, false :: m.nesting, .openBracket :: held ++ m.kept⟩
  | .text s => some ⟨afterValue m.nesting, m.nesting, .text s :: held ++ m.kept⟩
  | .scalar s => some ⟨afterValue m.nesting, m.nesting, .scalar s :: held ++ m.kept⟩
  | _ => none

/-- Ends the innermost array or object with its closing token. -/
def close (m : Machine) (t : Token) : Option Machine :=
  match m.nesting, t with
  | true :: outer, .closeBrace => some ⟨afterValue outer, outer, t :: m.kept⟩
  | false :: outer, .closeBracket => some ⟨afterValue outer, outer, t :: m.kept⟩
  | _, _ => none

/-- Takes a name, after tokens that were held back. -/
def takeName (m : Machine) (held : List Token) : Token → Option Machine
  | .text s => some ⟨.colon, m.nesting, .text s :: held ++ m.kept⟩
  | _ => none

/-- Takes one token; none if it stands in the wrong place. -/
def step (m : Machine) (t : Token) : Option Machine :=
  match m.expecting with
  | .value => m.takeValue [] t
  | .firstItem =>
    if t = .comma then some { m with expecting := .onlyEnd }
    else (m.close t).or (m.takeValue [] t)
  | .nextItem => (m.close t).or (m.takeValue [.comma] t)
  | .afterItem =>
    if t = .comma then some { m with expecting := .nextItem } else m.close t
  | .firstMember =>
    if t = .comma then some { m with expecting := .onlyEnd }
    else (m.close t).or (m.takeName [] t)
  | .nextMember => (m.close t).or (m.takeName [.comma] t)
  | .colon =>
    if t = .colon then some { m with expecting := .value, kept := .colon :: m.kept } else none
  | .afterMember =>
    if t = .comma then some { m with expecting := .nextMember } else m.close t
  | .onlyEnd => m.close t
  | .nothing => none

end Machine

/-! ## Reading -/

/-- Why a commented text was not read. -/
inductive Fault where
  /-- No token starts at some place. -/
  | noToken
  /-- A token stands in the wrong place, or the text ends too early. -/
  | misplaced
  /-- Arrays and objects are nested too deeply. -/
  | tooDeep
  /-- The tokens that are left are no plain JSON. -/
  | plain (e : ReadError) (tokens : List Char)
deriving DecidableEq

/-- Runs the grammar over a text; every round takes at least one character. -/
def scan : Nat → Machine → List Char → Except Fault (List Token)
  | 0, _, _ => .error .noToken
  | fuel + 1, m, s =>
    match skipIgnored false s with
    | [] => if m.expecting = .nothing then .ok m.kept.reverse else .error .misplaced
    | c :: r =>
      match nextToken (c :: r) with
      | none => .error .noToken
      | some (t, rest) =>
        match m.step t with
        | none => .error .misplaced
        | some m => scan fuel m rest

/-- How much a token adds to the depth: an array counts once, an object twice, for its members and
for their values. -/
def Token.depthChange : Token → Int
  | .openBracket => 1
  | .closeBracket => -1
  | .openBrace => 2
  | .closeBrace => -2
  | _ => 0

/-- The greatest depth along tokens that start at a depth. -/
def deepest (depth : Int) : List Token → Int
  | [] => depth
  | t :: ts => max depth (deepest (depth + t.depthChange) ts)

/-- The greatest depth that is read. -/
def maxDepth : Int := 485

/-- What a reader takes; none is no limit. -/
structure Limits where
  /-- The greatest depth of the tokens. -/
  nesting : Option Int
  /-- The most digits of an integer. -/
  digits : Option Nat
  /-- How many arrays and objects may be open at once when the tokens that are left are read. -/
  depth : Option Nat
  /-- The tokens are never deeper than what may be open. -/
  covered : ∀ d ∈ depth, ∃ n ∈ nesting, n ≤ (d : Int)

namespace Limits

/-- A reader that takes whatever the grammar allows. -/
def unlimited : Limits := ⟨none, none, none, nofun⟩

def usual : Limits :=
  ⟨some maxDepth, some maxIntegerDigits, some 985, fun _ h => ⟨_, rfl, by cases h; decide⟩⟩

/-- The dialect of the tokens that are left. -/
def dialect (limits : Limits) : Dialect := .strict limits.digits limits.depth

end Limits

/-- The plain JSON text of a commented one. -/
def plainText (s : List Char) (limits : Limits := .usual) : Except Fault (List Char) := do
  let tokens ← scan (s.length + 1) .initial s
  if limits.nesting.any (· < deepest 0 tokens) then .error .tooDeep
  else .ok (tokens.flatMap Token.written)

end EditorServices.Commented

namespace EditorServices

/-- Reads a commented text. -/
def Json.readCommented (s : List Char) (limits : Commented.Limits := .usual) :
    Except Commented.Fault Json := do
  let plain ← Commented.plainText s limits
  match Json.readConfig plain limits.dialect with
  | .ok v => .ok v
  | .error e => .error (.plain e plain)

end EditorServices
