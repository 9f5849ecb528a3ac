import EditorServices.Schema.Checked

/-!
# `Highlight.Span` — runs of text with a style

A span has text of its own and children that are further spans; a highlighted line is a root without
text whose children are the line's tokens.

## Contents
- **Spans.** `Span`, the text it covers, its equality.
- **Reading and writing.** `Span.check`, `Span.toJson`.
-/

namespace EditorServices.Highlight

open Schema

/-! ## Spans -/

/-- A run of text with a style; children are nested runs. -/
inductive Span where
  | node (text : String) (scope style : Option String) (children : List Span)
deriving Inhabited

namespace Span

def text : Span → String
  | .node t _ _ _ => t

def scope : Span → Option String
  | .node _ s _ _ => s

def style : Span → Option String
  | .node _ _ s _ => s

def children : Span → List Span
  | .node _ _ _ cs => cs

/-- A run without style or children. -/
def plain (text : String) : Span := .node text none none []

mutual

def decEq : (a b : Span) → Decidable (a = b)
  | .node t s y cs, .node t' s' y' cs' =>
    if h : t = t' ∧ s = s' ∧ y = y' then
      match decEqList cs cs' with
      | isTrue h' => isTrue (by simp [h, h'])
      | isFalse h' => isFalse (by simp [h'])
    else isFalse (by
      intro e
      simp only [node.injEq] at e
      exact h ⟨e.1, e.2.1, e.2.2.1⟩)

def decEqList : (a b : List Span) → Decidable (a = b)
  | [], [] => isTrue rfl
  | [], _ :: _ => isFalse (by simp)
  | _ :: _, [] => isFalse (by simp)
  | x :: xs, y :: ys =>
    match x.decEq y, decEqList xs ys with
    | isTrue h, isTrue h' => isTrue (by rw [h, h'])
    | isFalse h, _ => isFalse (by simp [h])
    | _, isFalse h => isFalse (by simp [h])

end

instance : DecidableEq Span := decEq

mutual

/-- The text that a span and everything below it covers. -/
def plainText : Span → List Char
  | .node t _ _ cs => t.toList ++ plainTexts cs

def plainTexts : List Span → List Char
  | [] => []
  | c :: cs => plainText c ++ plainTexts cs

end

/-! ## Reading and writing -/

/-- How deep spans may be nested in a value that is read. -/
def maxDepth : Nat := 255

mutual

/-- Checks a span and everything below it, down to some depth. -/
def checkWithin (depth : Nat) : Json → Checked Span
  | .obj ms =>
    match depth with
    | 0 => .fail .tooDeep (.obj ms)
    | depth + 1 =>
      Span.node
        <$> optional ms (.plain "text") "" string
        <*> optional ms (.plain "scope") none (nullable string)
        <*> optional ms (.plain "style") none (nullable string)
        <*> checkChildren depth ms
  | j => .fail (if depth = 0 then .tooDeep else .modelType "Span") j

/-- The children among the members of a span. -/
def checkChildren (depth : Nat) : List (String × Json) → Checked (List Span)
  | [] => .valid []
  | (k, j) :: ms =>
    if k = "children" then
      (match j with
        | .arr xs => checkItems depth 0 xs
        | j => .fail .listType j).under (.key "children")
    else checkChildren depth ms

def checkItems (depth : Nat) : Nat → List Json → Checked (List Span)
  | _, [] => .valid []
  | n, x :: xs =>
    List.cons <$> (checkWithin depth x).under (.index n) <*> checkItems depth (n + 1) xs

end

/-- Checks a span and everything below it. -/
def check (j : Json) : Checked Span := checkWithin maxDepth j

mutual

def toJson : Span → Json
  | .node t s y cs =>
    .obj [("text", .str t), ("scope", .ofText? s),
      ("style", .ofText? y), ("children", .arr (toJsons cs))]

def toJsons : List Span → List Json
  | [] => []
  | c :: cs => toJson c :: toJsons cs

end

end Span

end EditorServices.Highlight
