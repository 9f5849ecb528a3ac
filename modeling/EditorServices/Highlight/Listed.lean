import EditorServices.Highlight.Request

/-!
# `Highlight.Listed` — lines whose tokens are given in a list

A list of pairs of a scope and a text stands for what a lexer finds in a line. The scopes are names
with dots, and the texts may be of any kind; what does not fit is found when the tokens are styled,
one after the other.

## Contents
- **Places.** `Place`, what names lead to, and `placeOf`.
- **Tokens.** `ListedToken` and `listedTokens`, up to an entry that stands for a failure.
- **Themes.** `ThemeTable`, a theme whose definitions may be of any kind.
- **Spans.** `highlightListed`.
-/

namespace EditorServices.Highlight

/-! ## Places -/

/-- What names lead to: a scope, or something that every scope has beside the scopes below it. -/
inductive Place where
  | scope (s : Scope)
  /-- The scopes that are below a scope, as a set. -/
  | set
  /-- Something that can be done with a scope. -/
  | method (kind : String)

/-- What every scope has beside the scopes below it. -/
def furnishings : List (String × Place) :=
  [("subtypes", .set), ("split", .method "method"), ("count", .method "builtin_function_or_method"),
    ("index", .method "builtin_function_or_method")]

/-- The place that a name leads to from another one. -/
def Place.enter (p : Place) (name : String) : Except String Place :=
  match p with
  | .scope .beyond => .error (Scope.refusedName "NoneType" name)
  | .scope s => match furnishings.lookup name with
    | some q => .ok q
    | none => (s.enter name).map .scope
  | .set => .error (Scope.refusedName "set" name)
  | .method kind => .error (Scope.refusedName kind name)

/-- The place that names lead to one after the other. -/
def Place.follow (p : Place) : List String → Except String Place
  | [] => .ok p
  | name :: rest => do (← p.enter name).follow rest

/-- The place that a value names; what counts as nothing names the root. -/
def placeOf (j : Json) : Except String Place :=
  if j.isFalsy then .ok (.scope .root)
  else match j with
    | .str s => (Place.scope .root).follow (Scope.splitNames s)
    | j => .error (Scope.refusedName j.kindName "split")

/-! ## Tokens -/

/-- A token that is given. -/
structure ListedToken where
  place : Place
  text : Json

/-- The tokens of a list, up to an entry that stands for a failure. -/
def listedTokens : List Json → Except String (List ListedToken)
  | [] => .ok []
  | .arr [.str "raise", m] :: _ => .error m.shown
  | .arr [a, b] :: rest => do
    let place ← placeOf a
    let more ← listedTokens rest
    .ok (⟨place, b⟩ :: more)
  | .arr xs :: _ =>
    .error (if xs.length < 2 then
      "not enough values to unpack (expected 2, got " ++ toString xs.length ++ ")"
    else "too many values to unpack (expected 2)")
  | j :: _ => .error ("cannot unpack non-iterable " ++ j.kindName ++ " object")

/-! ## Themes -/

/-- A theme, and the scopes whose definitions are no records. -/
structure ThemeTable where
  theme : Theme
  spoilt : List Scope

/-- The table that a record describes. -/
def ThemeTable.ofMembers (ms : Members) : Except Failure ThemeTable := do
  let theme ← Theme.ofMembers ms
  let spoilt := (ms.filter fun m => !m.2.isObject).filterMap fun m => (Scope.ofText m.1).toOption
  return ⟨theme, spoilt⟩

/-- The text of the style of a scope. A definition that is no record cannot be read when it is
needed. -/
def ThemeTable.styleText? (t : ThemeTable) (s : Scope) : Except Failure (Option String) :=
  match s.lineage.find? fun a => (t.theme.styles? a).isSome with
  | some a =>
    if t.spoilt.contains a then .error (.unknownAttribute "") else .ok (t.theme.styleText? s)
  | none => .ok none

/-! ## Spans -/

/-- The span of a token, whose style is looked up before its text is checked. -/
def ListedToken.span (theme : ThemeTable) (token : ListedToken) : Except Failure Span :=
  match token.place with
  | .set => .error .wrongKind
  | .method _ => .error (.unknownAttribute "")
  | .scope s => do
    let style ← theme.styleText? s
    match token.text with
    | .str text => .ok (.node text (some s.text) style [])
    | j => .error (Tokenizer.notText j)

/-- What is said of a line that has to be a text but is not, and of tokens that cannot be read. -/
def refusedList (reason : String) : Failure := .tokenize ("List lexer failed: " ++ reason)

/-- The span of a line whose tokens are given; tokens whose text counts as nothing are left out. -/
def highlightListed (line : Json) (entries : List Json) (theme : ThemeTable) :
    Except Failure Span :=
  match line.asText?, listedTokens entries with
  | none, _ => .error (refusedList (Scope.refusedName line.kindName "decode"))
  | _, .error reason => .error (refusedList reason)
  | some _, .ok tokens => do
    let spans ← (tokens.filter fun token => !token.text.isFalsy).mapM (ListedToken.span theme)
    return .node "" none none spans

end EditorServices.Highlight
