import EditorServices.Text.Digit
import EditorServices.Text.WordChar

/-!
# `Text.Literal` — texts that write a fixed value

A parameter of a style tag has to write a number, a text, one of a few words, or tuples, sets and
dictionaries of these. Only the question whether a text does so is answered here; the value itself
is not needed.

## Contents
- **Numbers.** `number?`, a number at the start of a text.
- **Quotes.** `afterQuote?`, the rest after a text between quotes.
- **Tokens.** `tokens?` cuts a text into what a value is written with.
- **Values.** `Shape`, what can be done with a value, and `expression?`.
- **Literals.** `isLiteral`.
-/

namespace EditorServices.Literal

/-! ## Numbers -/

/-- The rest after further digits; an underscore has to be followed by one. -/
def moreDigits? (p : Char → Bool) : List Char → Option (List Char)
  | '_' :: c :: r => if p c then moreDigits? p r else none
  | ['_'] => none
  | c :: r => if p c then moreDigits? p r else some (c :: r)
  | [] => some []

/-- The rest after one digit or more. -/
def afterDigits? (p : Char → Bool) : List Char → Option (List Char)
  | c :: r => if p c then moreDigits? p r else none
  | [] => none

def isHexDigit (c : Char) : Bool :=
  c.isDigit || ('a' ≤ c && c ≤ 'f') || ('A' ≤ c && c ≤ 'F')

/-- The digits of a base that a letter after a zero announces. -/
def baseDigits? (c : Char) : Option (Char → Bool) :=
  match c.toLower with
  | 'x' => some isHexDigit
  | 'o' => some fun c => '0' ≤ c && c ≤ '7'
  | 'b' => some fun c => c = '0' || c = '1'
  | _ => none

/-- The rest after the digits of an announced base. -/
def afterBase? (p : Char → Bool) : List Char → Option (List Char)
  | '_' :: r => afterDigits? p r
  | r => afterDigits? p r

/-- The rest after a point and the digits that may follow it, if a point comes first. -/
def afterFraction? : List Char → Option (Bool × List Char)
  | '.' :: c :: r =>
    if c.isDigit then (moreDigits? Char.isDigit r).map fun r => (true, r) else some (true, c :: r)
  | ['.'] => some (true, [])
  | s => some (false, s)

/-- The rest after an exponent, if one comes first. -/
def afterExponent? : List Char → Option (Bool × List Char)
  | c :: r =>
    if c.toLower = 'e' then
      (afterDigits? Char.isDigit (match r with
        | '+' :: r | '-' :: r => r
        | r => r)).map fun r => (true, r)
    else some (false, c :: r)
  | [] => some (false, [])

/-- Whether the digits of a whole number are as they should be: not too many, and no other digit
after a leading zero. -/
def isWholeNumber (digits : List Char) : Bool :=
  let ds := digits.filter Char.isDigit
  ds.length ≤ maxIntegerDigits && (ds.head? ≠ some '0' || ds.all (· = '0'))

/-- What a number may not be followed by. -/
def runsOn : List Char → Bool
  | c :: _ => isWordChar c || 128 ≤ c.toNat
  | [] => false

/-- Whether a decimal number is imaginary, and the rest after it. -/
def decimal? (s : List Char) : Option (Bool × List Char) := do
  let whole ← match s with
    | '.' :: r => (afterDigits? Char.isDigit r).map fun _ => s
    | _ => afterDigits? Char.isDigit s
  let (pointed, r) ← afterFraction? whole
  let (scaled, r) ← afterExponent? r
  match r with
  | 'j' :: r | 'J' :: r => some (true, r)
  | r =>
    if pointed || scaled || isWholeNumber (s.take (s.length - whole.length)) then some (false, r)
    else none

/-- Whether the number at the start of a text is imaginary, and the rest after it. -/
def number? (s : List Char) : Option (Bool × List Char) := do
  let (imaginary, r) ← match s with
    | '0' :: c :: r => match baseDigits? c with
      | some p => (afterBase? p r).map fun r => (false, r)
      | none => decimal? s
    | _ => decimal? s
  if runsOn r then none else some (imaginary, r)

/-! ## Quotes -/

/-- Whether a text starts with a number of hexadecimal digits. -/
def startsHex (n : Nat) (s : List Char) : Bool :=
  (s.take n).length = n && (s.take n).all isHexDigit

/-- Whether the rest of an escape after its first character is as it should be. Escapes that name a
character of the whole set are only plain text between quotes for bytes. -/
def isEscape (bytes : Bool) (c : Char) (s : List Char) : Bool :=
  match c with
  | 'x' => startsHex 2 s
  | 'u' => bytes || startsHex 4 s
  | 'U' => bytes || (startsHex 8 s && ((s.take 2).all (· = '0') &&
      (s.drop 2).head?.any fun d => d = '0' || d = '1' && (s.drop 3).head? = some '0'))
  | 'N' => bytes || (s.head? = some '\x7b' && (s.drop 1).head? ≠ some '\x7d' &&
      s.contains '\x7d')
  | _ => true

def isLineEnd (c : Char) : Bool := c = '\n' || c = '\r'

/-- The rest after the closing quote of a text. Three quotes close what three quotes opened, and
only such a text may go over several lines. -/
def afterQuote? (raw bytes triple : Bool) (mark : Char) : List Char → Option (List Char)
  | [] => none
  | '\\' :: c :: r =>
    if (raw || isEscape bytes c r) && !(bytes && 128 ≤ c.toNat) then
      afterQuote? raw bytes triple mark r
    else none
  | c :: r =>
    if c = mark then
      if !triple then some r
      else if r.take 2 = [mark, mark] then some (r.drop 2)
      else afterQuote? raw bytes triple mark r
    else if c = '\\' || (isLineEnd c && !triple) || (bytes && 128 ≤ c.toNat) then none
    else afterQuote? raw bytes triple mark r

/-- The rest after a text whose opening quote is the first character. -/
def afterQuoted? (raw bytes : Bool) : List Char → Option (List Char)
  | [] => none
  | mark :: r =>
    if r.take 2 = [mark, mark] then afterQuote? raw bytes true mark (r.drop 2)
    else afterQuote? raw bytes false mark r

/-- What letters before a quote mean: whether the text is raw, and whether it is one of bytes. -/
def quotePrefixes : List (String × Bool × Bool) :=
  [("", false, false), ("u", false, false), ("r", true, false), ("b", false, true),
    ("br", true, true), ("rb", true, true)]

def isQuote (c : Char) : Bool := c = '"' || c = '\''

/-! ## Tokens -/

/-- What a value is written with. -/
inductive Token where
  | number (imaginary : Bool)
  | quoted (bytes : Bool)
  | constant
  /-- The word that makes an empty set. -/
  | set
  | sign
  | mark (c : Char)
deriving DecidableEq, Repr

/-- The words that are values. -/
def constants : List String := ["True", "False", "None"]

/-- The token at the start of a text that is no mark, and the rest after it. -/
def longToken? (s : List Char) : Option (Token × List Char) :=
  let word := s.takeWhile isWordChar
  let rest := s.dropWhile isWordChar
  let name := String.ofList word
  if rest.head?.any isQuote then do
    let (raw, bytes) ← quotePrefixes.lookup (String.ofList (word.map Char.toLower))
    let r ← afterQuoted? raw bytes rest
    some (.quoted bytes, r)
  else if s.take 3 = ['.', '.', '.'] then some (.constant, s.drop 3)
  else if s.head?.any fun c => c.isDigit || c = '.' then
    (number? s).map fun (imaginary, r) => (.number imaginary, r)
  else if constants.contains name then some (.constant, rest)
  else if name = "set" then some (.set, rest)
  else none

/-- How deep brackets may be nested. -/
def maxDepth : Nat := 200

/-- The tokens of a text inside a number of brackets. Outside of brackets a line end ends the value
once it has begun. -/
def tokensWithin : Nat → Nat → Bool → List Char → Option (List Token)
  | 0, _, _, _ => none
  | _, _, _, [] => some []
  | fuel + 1, depth, begun, c :: r =>
    let goOn (t : Token) (depth : Nat) (r : List Char) : Option (List Token) :=
      (tokensWithin fuel depth true r).map fun ts => t :: ts
    if c = ' ' || c = '\t' || c = '\x0c' then tokensWithin fuel depth begun r
    else if c = '#' then tokensWithin fuel depth begun (r.dropWhile fun d => !isLineEnd d)
    else if isLineEnd c then
      if depth = 0 && begun then (tokensWithin fuel 0 true r).filter List.isEmpty
      else tokensWithin fuel depth begun r
    else if c = '\\' then match r with
      | d :: r => if isLineEnd d then tokensWithin fuel depth begun r else none
      | [] => none
    else if c = '+' || c = '-' then goOn .sign depth r
    else if c = ',' || c = ':' then goOn (.mark c) depth r
    else if c = '(' || c = '\x7b' then
      if depth < maxDepth then goOn (.mark c) (depth + 1) r else none
    else if c = ')' || c = '\x7d' then goOn (.mark c) (depth - 1) r
    else match longToken? (c :: r) with
      | some (t, rest) => goOn t depth rest
      | none => none

/-- The tokens of a text; each takes at least one character. -/
def tokens? (s : List Char) : Option (List Token) := tokensWithin (s.length + 1) 0 false s

/-! ## Values -/

/-- What can be done with a value. -/
inductive Shape where
  /-- It can have a sign. -/
  | number (imaginary : Bool)
  /-- It is a number that has a sign. -/
  | signed (imaginary : Bool)
  /-- It is another value, which may be a key of a set or dictionary. -/
  | value (isKey : Bool)
deriving DecidableEq, Repr

/-- Whether a value can be a key. -/
def Shape.isKey : Shape → Bool
  | .value b => b
  | _ => true

/-- Whether an imaginary number can be added to a value. -/
def Shape.isReal : Shape → Bool
  | .number imaginary | .signed imaginary => !imaginary
  | .value _ => false

/-- A reader of a value at the start of tokens. -/
abbrev Reader := List Token → Option (Shape × List Token)

/-- The values up to a closing mark, after a comma. -/
def itemsUpTo? (read : Reader) (close : Char) : Nat → List Token → Option (List Shape × List Token)
  | 0, _ => none
  | fuel + 1, ts =>
    if ts.head? = some (.mark close) then some ([], ts.tail)
    else do
      let (item, r) ← read ts
      match r with
      | .mark c :: r =>
        if c = close then some ([item], r)
        else if c = ',' then do
          let (items, r) ← itemsUpTo? read close fuel r
          some (item :: items, r)
        else none
      | _ => none

/-- What stands between round brackets, after the opening one: a tuple, or a value as it is. -/
def group? (read : Reader) : Reader := fun ts =>
  match ts with
  | .mark ')' :: r => some (.value true, r)
  | _ => do
    let (item, r) ← read ts
    match r with
    | .mark ')' :: r => some (item, r)
    | .mark ',' :: r => do
      let (items, r) ← itemsUpTo? read ')' (r.length + 1) r
      some (.value ((item :: items).all Shape.isKey), r)
    | _ => none

/-- A key, a colon and a value; what comes of it is the key. -/
def entry? (read : Reader) : Reader := fun ts => do
  let (key, r) ← read ts
  match r with
  | .mark ':' :: r => do
    let (_, r) ← read r
    some (key, r)
  | _ => none

/-- What stands between curly brackets, after the opening one: a set or a dictionary. -/
def braces? (read : Reader) : Reader := fun ts =>
  match ts with
  | .mark '\x7d' :: r => some (.value false, r)
  | _ => do
    let (_, r) ← read ts
    let (items, r) ← itemsUpTo? (if r.head? = some (.mark ':') then entry? read else read) '\x7d'
      (ts.length + 1) ts
    if items.all Shape.isKey then some (.value false, r) else none

/-- A value without signs around it. -/
def atom? (read : Reader) : Reader := fun ts =>
  match ts with
  | .number imaginary :: r => some (.number imaginary, r)
  | .constant :: r => some (.value true, r)
  | .quoted bytes :: r =>
    let more := r.takeWhile fun t => t = .quoted true || t = .quoted false
    if more.all (· = .quoted bytes) then some (.value true, r.drop more.length) else none
  | .set :: .mark '(' :: .mark ')' :: r => some (.value false, r)
  | .mark '(' :: r => group? read r
  | .mark '\x7b' :: r => braces? read r
  | _ => none

/-- A value that may have one sign. -/
def signed? (read : Reader) : Reader := fun ts =>
  match ts with
  | .sign :: r => do
    match ← atom? read r with
    | (.number imaginary, r) => some (.signed imaginary, r)
    | _ => none
  | _ => atom? read ts

/-- A value, to which an imaginary number may be added. -/
def sum? (read : Reader) : Reader := fun ts => do
  let (first, r) ← signed? read ts
  match r with
  | .sign :: r => do
    match ← signed? read r with
    | (.number true, r) =>
      if first.isReal && r.head? ≠ some .sign then some (.value true, r) else none
    | _ => none
  | _ => some (first, r)

/-- A value whose brackets are nested less than `fuel` deep. -/
def expression? : Nat → Reader
  | 0 => fun _ => none
  | fuel + 1 => sum? (expression? fuel)

/-! ## Literals -/

/-- Whether a text writes a fixed value. Outside of brackets commas make a tuple, too. -/
def isLiteral (s : List Char) : Bool :=
  match tokens? s with
  | none | some [] => false
  | some ts => match group? (expression? (maxDepth + 2)) (ts ++ [.mark ')']) with
    | some (_, rest) => rest.isEmpty
    | none => false

end EditorServices.Literal
