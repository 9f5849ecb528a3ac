import EditorServices.Text.LowerCase
import EditorServices.Text.Split

/-!
# `Highlight.Scope` — the kinds of tokens

Scopes form a tree: each is written as the path from the root, and inherits from the scopes above
it.

## Contents
- **Scopes.** `Scope` and its text.
- **Names.** The scope that a text names; some names are shortcuts, one leads back.
- **Inheritance.** `lineage` lists a scope and all above it, the closest first.
-/

namespace EditorServices.Highlight

/-! ## Scopes -/

/-- A kind of token. -/
inductive Scope where
  /-- The scope at the end of a path of names from the root. -/
  | path (names : List String)
  /-- What is above the root, which is no scope of its own. -/
  | beyond
deriving DecidableEq, Repr, Inhabited

namespace Scope

/-- The root of all scopes. -/
def root : Scope := .path []

/-- The word that every scope's text starts with. -/
def rootName : String := "Token"

/-- The path of a scope with dots between its names. -/
def text : Scope → String
  | .path names => ".".intercalate (rootName :: names)
  | .beyond => "None"

/-- The names in a text with dots between them. -/
def splitNames (s : String) : List String := (splitAt1 '.' s.toList).map String.ofList

/-! ## Names -/

/-- The scope that a text names when the root is left out. -/
def below (s : String) : Scope := .path (splitNames s)

/-- Names below the root that stand for other scopes. -/
def shortcuts : List (String × Scope) :=
  [(rootName, root), ("String", below "Literal.String"), ("Number", below "Literal.Number")]

/-- What is said of a name that something of a kind does not have. -/
def refusedName (kind name : String) : String :=
  "'" ++ kind ++ "' object has no attribute '" ++ name ++ "'"

/-- The name that leads back to the scope above. -/
def backName : String := "parent"

/-- The scope above another one. -/
def up : Scope → Scope
  | .path names => if names.isEmpty then .beyond else .path names.dropLast
  | .beyond => .beyond

/-- The scope that a name leads to from another one. The name of a scope below it starts with a
capital. -/
def enter (s : Scope) (name : String) : Except String Scope :=
  match s with
  | .beyond => .error (refusedName "NoneType" name)
  | .path names =>
    match if names.isEmpty then shortcuts.lookup name else none with
    | some t => .ok t
    | none =>
      if name.toList.head?.any isCapital then .ok (.path (names ++ [name]))
      else if name = backName then .ok s.up
      else .error (refusedName "_TokenType" name)

/-- The scope that names lead to one after the other. -/
def follow (s : Scope) : List String → Except String Scope
  | [] => .ok s
  | name :: rest => do (← s.enter name).follow rest

/-- The scope that a text names; the word for the root may be left out. -/
def ofText (s : String) : Except String Scope :=
  if s.isEmpty then .ok root else root.follow (splitNames s)

/-! ## Inheritance -/

/-- A scope and all above it, the closest first. -/
def lineage : Scope → List Scope
  | .path names =>
    (List.range (names.length + 1)).map fun k => .path (names.take (names.length - k))
  | .beyond => []

end Scope

end EditorServices.Highlight
