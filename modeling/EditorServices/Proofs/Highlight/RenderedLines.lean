import EditorServices.Highlight.Rendering
import Mathlib.Data.List.Basic

/-!
# `Proofs.Highlight.RenderedLines` — a rendered line shows the text and the styles of its tree

Rendering hands styles down the tree and writes down texts in a row, with ranges of positions for the styles.
Read from the line, each position belongs to a character of one node, and over it lies the style of the
closest node from there up that has one, or none.

## Contents
- **Trees.** `Span.Cell`, a character with the node that it belongs to and the nodes above it;
  `Span.closestStyle?`, the style that such a row of nodes gives.
- **Lines.** `StyledLine.shownFrom`, the characters of a line with the styles over them.
- **Texts in a row.** `shownFrom_ofTexts`, by induction over the texts.
- **Walking a tree.** `charsOf_textsOf`, by induction over the tree.
- **Rendering.** `tree_rendered`.
-/

namespace EditorServices.Highlight

/-! ## Trees -/

namespace Span

/-- The style that a node has; an empty one is none. -/
def ownStyle? (s : Span) : Option String := s.style.filter fun style => !style.isEmpty

/-- The first style in a row of nodes. -/
def closestStyle? (nodes : List Span) : Option String := nodes.findSome? ownStyle?

/-- A node of a tree and the nodes above it, its parent first and the root last. -/
inductive Lineage (root : Span) : Span → List Span → Prop where
  | root : Lineage root root []
  | child {parent child : Span} {above : List Span} (h : Lineage root parent above)
      (hchild : child ∈ parent.children) : Lineage root child (parent :: above)

/-- A character of the text of a node, with the nodes above that node. -/
structure Cell where
  char : Char
  node : Span
  above : List Span

/-- The style of a character: that of its node, or else of the closest one above it. -/
def Cell.style? (c : Cell) : Option String := closestStyle? (c.node :: c.above)

/-- The characters of a node. -/
def ownCells (above : List Span) (s : Span) : List Cell := s.text.toList.map fun c => ⟨c, s, above⟩

mutual

/-- The characters of a node and of all nodes below it, in order. -/
def cells (above : List Span) : Span → List Cell
  | .node text scope style children =>
    ownCells above (.node text scope style children) ++
      cellsAll (.node text scope style children :: above) children

def cellsAll (above : List Span) : List Span → List Cell
  | [] => []
  | s :: ss => cells above s ++ cellsAll above ss

end

theorem map_char_ownCells (above : List Span) (s : Span) : (ownCells above s).map Cell.char = s.text.toList := by
  unfold ownCells
  rw [List.map_map]
  exact List.map_id _

mutual

/-- The characters of a tree are its text. -/
theorem map_char_cells (above : List Span) (s : Span) : (s.cells above).map Cell.char = s.plainText := by
  cases s with
  | node text scope style children =>
    rw [cells, plainText, List.map_append, map_char_ownCells, map_char_cellsAll _ children]
    rfl

theorem map_char_cellsAll (above : List Span) (spans : List Span) :
    (cellsAll above spans).map Cell.char = plainTexts spans := by
  cases spans with
  | nil => rfl
  | cons s ss => rw [cellsAll, plainTexts, List.map_append, map_char_cells above s, map_char_cellsAll above ss]

end

/-- A character stands in the text of its node, and what is above it leads up to the root. -/
structure Cell.Placed (root : Span) (c : Cell) : Prop where
  inText : c.char ∈ c.node.text.toList
  lineage : Lineage root c.node c.above

mutual

theorem placed_cells {root : Span} {above : List Span} (s : Span) (h : Lineage root s above) :
    ∀ c ∈ s.cells above, c.Placed root := by
  cases s with
  | node text scope style children =>
    intro c hc
    rw [cells] at hc
    rcases List.mem_append.mp hc with hown | hbelow
    · obtain ⟨x, hx, rfl⟩ := List.mem_map.mp hown
      exact ⟨hx, h⟩
    · exact placed_cellsAll children h (fun child hchild => hchild) c hbelow

theorem placed_cellsAll {root parent : Span} {above : List Span} (spans : List Span)
    (h : Lineage root parent above) (hspans : ∀ child ∈ spans, child ∈ parent.children) :
    ∀ c ∈ cellsAll (parent :: above) spans, c.Placed root := by
  cases spans with
  | nil => exact fun c hc => absurd hc List.not_mem_nil
  | cons s ss =>
    intro c hc
    rw [cellsAll] at hc
    rcases List.mem_append.mp hc with hs | hss
    · exact placed_cells s (h.child (hspans s List.mem_cons_self)) c hs
    · exact placed_cellsAll ss h (fun child hchild => hspans child (List.mem_cons_of_mem s hchild)) c hss

end

/-- The closest style is never empty. -/
theorem ne_empty_of_closestStyle? {nodes : List Span} {style : String} (h : closestStyle? nodes = some style) :
    style.isEmpty = false := by
  obtain ⟨s, -, hs⟩ := List.exists_of_findSome?_eq_some h
  have hkept := (Option.filter_eq_some_iff.mp hs).2
  simpa using hkept

end Span

namespace StyledLine

open Highlight.Span (Cell closestStyle?)

/-! ## Lines -/

/-- The styles of the ranges over a position. -/
def stylesAt (ranges : List StyledRange) (i : Nat) : List String :=
  (ranges.filter fun r => r.start ≤ i && i < r.stop).map StyledRange.style

/-- The characters of a line whose positions are counted from a first one, each with the styles over it. -/
def shownFrom (start : Nat) (line : StyledLine) : List (Char × List String) :=
  (line.text.zipIdx start).map fun (c, i) => (c, stylesAt line.ranges i)

/-- The characters of a line with the styles over them. -/
def shown (line : StyledLine) : List (Char × List String) := line.shownFrom 0

theorem map_fst_shownFrom (start : Nat) (line : StyledLine) : (line.shownFrom start).map Prod.fst = line.text := by
  unfold shownFrom
  rw [List.map_map]
  exact List.zipIdx_map_fst start line.text

theorem stylesAt_cons_of_covers {r : StyledRange} {i : Nat} (h : r.start ≤ i ∧ i < r.stop)
    (ranges : List StyledRange) : stylesAt (r :: ranges) i = r.style :: stylesAt ranges i := by
  unfold stylesAt
  rw [List.filter_cons_of_pos (by simpa using h), List.map_cons]

theorem stylesAt_cons_of_not_covers {r : StyledRange} {i : Nat} (h : ¬(r.start ≤ i ∧ i < r.stop))
    (ranges : List StyledRange) : stylesAt (r :: ranges) i = stylesAt ranges i := by
  unfold stylesAt
  rw [List.filter_cons_of_neg (by simpa using h)]

/-- No style lies over what comes before all ranges. -/
theorem stylesAt_eq_nil {ranges : List StyledRange} {i : Nat} (h : ∀ r ∈ ranges, i < r.start) :
    stylesAt ranges i = [] := by
  unfold stylesAt
  rw [List.map_eq_nil_iff, List.filter_eq_nil_iff]
  intro r hr hcovers
  have hbefore := h r hr
  simp only [Bool.and_eq_true, decide_eq_true_eq] at hcovers
  omega

/-! ## Texts in a row -/

/-- A style as it lies over characters: an empty one does not. -/
def laid (style : String) : List String := if style.isEmpty then [] else [style]

/-- The characters of texts in a row, each with the style of its text. -/
def charsOf (texts : List (List Char × String)) : List (Char × String) :=
  texts.flatMap fun (text, style) => text.map fun c => (c, style)

theorem charsOf_cons (text : List Char) (style : String) (rest : List (List Char × String)) :
    charsOf ((text, style) :: rest) = text.map (fun c => (c, style)) ++ charsOf rest := rfl

theorem charsOf_append (ts us : List (List Char × String)) : charsOf (ts ++ us) = charsOf ts ++ charsOf us :=
  List.flatMap_append

/-- Ranges lie where their texts are. -/
theorem le_start_of_mem_ofTexts {texts : List (List Char × String)} {start : Nat} {r : StyledRange}
    (h : r ∈ (ofTexts start texts).ranges) : start ≤ r.start := by
  induction texts generalizing start with
  | nil => cases h
  | cons t rest ih =>
    obtain ⟨text, style⟩ := t
    have hrest (hmem : r ∈ (ofTexts (start + (visible text).length) rest).ranges) : start ≤ r.start :=
      Nat.le_trans (Nat.le_add_right start _) (ih hmem)
    rw [ofTexts] at h
    split at h
    · exact hrest h
    · rcases List.mem_cons.mp h with rfl | hmem
      · exact Nat.le_refl start
      · exact hrest hmem

variable {text : List Char} {style : String} {rest : List (List Char × String)} {start i : Nat}

/-- Over the first text lies its own style and no later one. -/
theorem stylesAt_first (h : start ≤ i ∧ i < start + (visible text).length) :
    stylesAt (ofTexts start ((text, style) :: rest)).ranges i = laid style := by
  have hlater : stylesAt (ofTexts (start + (visible text).length) rest).ranges i = [] :=
    stylesAt_eq_nil fun r hr => Nat.lt_of_lt_of_le h.2 (le_start_of_mem_ofTexts hr)
  have hne : text.isEmpty = false := by
    cases text with
    | nil => exact absurd (Nat.lt_of_le_of_lt h.1 h.2) (Nat.lt_irrefl start)
    | cons c r => rfl
  rw [ofTexts, laid, hne, Bool.false_or]
  split
  · exact hlater
  · rw [stylesAt_cons_of_covers h, hlater]

/-- Over what comes after the first text lies none of its style. -/
theorem stylesAt_later (h : start + (visible text).length ≤ i) :
    stylesAt (ofTexts start ((text, style) :: rest)).ranges i =
      stylesAt (ofTexts (start + (visible text).length) rest).ranges i := by
  rw [ofTexts]
  split
  · rfl
  · exact stylesAt_cons_of_not_covers (fun hcovers => Nat.not_lt.mpr h hcovers.2) _

/-- **A line of texts in a row shows their visible characters, each under the style of its text.** -/
theorem shownFrom_ofTexts (start : Nat) (texts : List (List Char × String)) :
    (ofTexts start texts).shownFrom start =
      ((charsOf texts).filter fun c => !isControl c.1).map fun c => (c.1, laid c.2) := by
  induction texts generalizing start with
  | nil => rfl
  | cons t rest ih =>
    obtain ⟨text, style⟩ := t
    have hfirst : ((visible text).zipIdx start).map
          (fun x => (x.1, stylesAt (ofTexts start ((text, style) :: rest)).ranges x.2)) =
        (visible text).map fun c => (c, laid style) := by
      calc
        _ = ((visible text).zipIdx start).map (fun x => (x.1, laid style)) := by
          refine List.map_congr_left fun x hx => ?_
          obtain ⟨hlow, hhigh, -⟩ := List.mem_zipIdx hx
          rw [stylesAt_first ⟨hlow, hhigh⟩]
        _ = (((visible text).zipIdx start).map Prod.fst).map (fun c => (c, laid style)) := by
          rw [List.map_map]
          rfl
        _ = _ := by rw [List.zipIdx_map_fst]
    have hlater : ((ofTexts (start + (visible text).length) rest).text.zipIdx
            (start + (visible text).length)).map
          (fun x => (x.1, stylesAt (ofTexts start ((text, style) :: rest)).ranges x.2)) =
        (ofTexts (start + (visible text).length) rest).shownFrom (start + (visible text).length) := by
      refine List.map_congr_left fun x hx => ?_
      rw [stylesAt_later (List.mem_zipIdx hx).1]
    have hcut : (ofTexts start ((text, style) :: rest)).text =
        visible text ++ (ofTexts (start + (visible text).length) rest).text := rfl
    unfold shownFrom
    rw [hcut, List.zipIdx_append, List.map_append, hfirst, hlater, ih, charsOf_cons, List.filter_append,
      List.map_append, List.filter_map, List.map_map]
    rfl

/-! ## Walking a tree -/

/-- The style in force at a node is that of the closest node from there up. -/
theorem styleAt_closestStyle? (s : Span) (above : List Span) :
    styleAt s.style ((closestStyle? above).getD "") = (closestStyle? (s :: above)).getD "" := by
  unfold closestStyle? styleAt
  rw [List.findSome?_cons, Span.ownStyle?]
  cases s.style with
  | none => rfl
  | some style =>
    cases he : style.isEmpty with
    | true => simp [Option.filter, he]
    | false => simp [Option.filter, he]

mutual

/-- **The texts of a tree are its characters, each with the closest style.** -/
theorem charsOf_textsOf (above : List Span) (s : Span) :
    charsOf (textsOf ((closestStyle? above).getD "") s) =
      (s.cells above).map fun c => (c.char, c.style?.getD "") := by
  cases s with
  | node text scope style children =>
    have hstyle : styleAt style ((closestStyle? above).getD "") =
        (closestStyle? (.node text scope style children :: above)).getD "" :=
      styleAt_closestStyle? (.node text scope style children) above
    rw [textsOf, hstyle, charsOf_cons, charsOf_textsOfAll _ children, Span.cells, List.map_append,
      Span.ownCells, List.map_map]
    rfl

theorem charsOf_textsOfAll (above : List Span) (spans : List Span) :
    charsOf (textsOfAll ((closestStyle? above).getD "") spans) =
      (Span.cellsAll above spans).map fun c => (c.char, c.style?.getD "") := by
  cases spans with
  | nil => rfl
  | cons s ss =>
    rw [textsOfAll, charsOf_append, charsOf_textsOf above s, charsOf_textsOfAll above ss, Span.cellsAll,
      List.map_append]

end

theorem laid_getD (c : Cell) : laid (c.style?.getD "") = c.style?.toList := by
  cases h : c.style? with
  | none => rfl
  | some style =>
    show laid style = [style]
    rw [laid, Span.ne_empty_of_closestStyle? h]
    rfl

/-! ## Rendering -/

/-- **A rendered line loses neither text nor style.** Whatever the tree, the line's text is the tree's without
the characters that steer a terminal. The characters of the tree are its text in order, each in the text of a
node of the tree under the nodes above it; and the line shows those that are left one by one, each under the
style of its own node if that is not empty, else under the style of the closest node above it that has one,
and under no style if there is none. -/
theorem tree_rendered (tree : Span) (text : List Char) :
    (ofSpan (some tree) text).text = visible tree.plainText ∧
      (tree.cells []).map Cell.char = tree.plainText ∧
      (∀ c ∈ tree.cells [], c.char ∈ c.node.text.toList ∧ Span.Lineage tree c.node c.above) ∧
      (ofSpan (some tree) text).shown =
        ((tree.cells []).filter fun c => !isControl c.char).map fun c =>
          (c.char, (closestStyle? (c.node :: c.above)).toList) := by
  have hshown : (ofSpan (some tree) text).shown =
      ((tree.cells []).filter fun c => !isControl c.char).map fun c => (c.char, c.style?.toList) := by
    have hchars : charsOf (textsOf "" tree) = (tree.cells []).map fun c => (c.char, c.style?.getD "") :=
      charsOf_textsOf [] tree
    show (ofTexts 0 (textsOf "" tree)).shownFrom 0 = _
    rw [shownFrom_ofTexts, hchars, List.filter_map, List.map_map]
    refine List.map_congr_left fun c _ => ?_
    show (c.char, laid (c.style?.getD "")) = _
    rw [laid_getD]
  have hplain := Span.map_char_cells [] tree
  refine ⟨?_, hplain, fun c hc => ?_, hshown⟩
  · have htext := map_fst_shownFrom 0 (ofSpan (some tree) text)
    rw [← htext]
    show (ofSpan (some tree) text).shown.map Prod.fst = _
    rw [hshown, List.map_map, visible, ← hplain, List.filter_map]
    rfl
  · have hplaced := Span.placed_cells tree .root c hc
    exact ⟨hplaced.inText, hplaced.lineage⟩

/-- Two levels without a style of their own, and a bell that is dropped. -/
example : (ofSpan (some (.node "a" none (some "red") [.node "" none none [.node "b\x07c" none (some "") []]]))
    []).shown = [('a', ["red"]), ('b', ["red"]), ('c', ["red"])] := by decide

end StyledLine

end EditorServices.Highlight
