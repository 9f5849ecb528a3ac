import EditorServices.Proofs.Json.CommentedValues

/-!
# `Proofs.Json.PrintedTrees` — the trees of values

A style writes a value as the tokens of a tree, which has the value. Where it puts blanks does not matter: what is
printed is one layout of these tokens.

## Contents
- **Trees.** `Json.tree`.
- **Tokens.** `formed_tree`, they are written as such.
- **Values.** `Json.Taken.value?_tree`.
- **Printing.** `laid_print`.
-/

namespace EditorServices

open Commented (Token Tree Gap Laid Leads scalarText numberText signText fractionText leads_token gap_of_blanks
  further joined)
open Json (Taken)

variable {style : PrintStyle} {digits depth : Option Nat} {v : Json} {level : Nat}

/-! ## Trees -/

mutual

/-- The tree that a style writes a value as. -/
def Json.tree (style : PrintStyle) : Json → Tree
  | .null => .scalar ['n', 'u', 'l', 'l']
  | .bool true => .scalar ['t', 'r', 'u', 'e']
  | .bool false => .scalar ['f', 'a', 'l', 's', 'e']
  | .int n => .scalar (intDigits n)
  | .float x => .scalar (x.text style.numbers).toList
  | .str s => .text (style.quote s)
  | .arr xs => .array (itemTrees style xs)
  | .obj ms => .object (memberTrees style ms)

def Json.itemTrees (style : PrintStyle) : List Json → List Tree
  | [] => []
  | x :: xs => x.tree style :: itemTrees style xs

def Json.memberTrees (style : PrintStyle) : List (String × Json) → List (List Char × Tree)
  | [] => []
  | (k, x) :: ms => (style.quote k, x.tree style) :: memberTrees style ms

end

theorem Json.itemTrees_eq (style : PrintStyle) (xs : List Json) : itemTrees style xs = xs.map (tree style) := by
  induction xs with
  | nil => rfl
  | cons x xs ih => rw [itemTrees, ih, List.map_cons]

theorem Json.memberTrees_eq (style : PrintStyle) (ms : List (String × Json)) :
    memberTrees style ms = ms.map fun p => (style.quote p.1, p.2.tree style) := by
  induction ms with
  | nil => rfl
  | cons p ms ih => rw [memberTrees, ih, List.map_cons]

/-! ## Tokens -/

theorem numberText_digits (negative : Bool) {ds : List Char} (hne : ds ≠ []) (hds : ∀ d ∈ ds, isDigit d = true) :
    numberText ((if negative then ['-'] else []) ++ ds) = some ((if negative then ['-'] else []) ++ ds) := by
  have hsign : signText ((if negative then ['-'] else []) ++ ds) = if negative then ['-'] else [] := by
    cases negative with
    | true => rfl
    | false =>
      obtain ⟨d, ds, rfl⟩ := List.exists_cons_of_ne_nil hne
      have hd : ¬ (d = '+' ∨ d = '-') := by
        have hdigit := hds d List.mem_cons_self
        rintro (rfl | rfl) <;> cases hdigit
      show signText (d :: ds) = []
      rw [Commented.signText_cons, if_neg hd]
  have htake : ds.takeWhile isDigit = ds := List.takeWhile_eq_self_iff.mpr hds
  have hempty : ds.isEmpty = false := List.isEmpty_eq_false_iff.mpr hne
  rw [Commented.numberText_eq, hsign]
  dsimp only
  rw [List.drop_left, htake, List.drop_length, hempty]
  simp [fractionText, Commented.exponentText]

theorem scalarText_intDigits (n : Int) : scalarText (intDigits n) = some (intDigits n) := by
  have hwords : Commented.words.find? (·.isPrefixOf (intDigits n)) = none := by
    obtain ⟨c, r, hcr⟩ := List.exists_cons_of_ne_nil (intDigits_ne_nil n)
    have hc : c = '-' ∨ isDigit c = true := mem_intDigits (hcr ▸ List.mem_cons_self)
    have hne : ∀ l ∈ ['t', 'f', 'n'], (l == c) = false := by
      intro l hl
      rw [beq_eq_false_iff_ne]
      rintro rfl
      simp only [List.mem_cons, List.not_mem_nil, or_false] at hl
      rcases hl with rfl | rfl | rfl <;> rcases hc with hc | hc <;> cases hc
    rw [List.find?_eq_none, hcr]
    intro w hw
    simp only [Commented.words, List.mem_cons, List.not_mem_nil, or_false] at hw
    rcases hw with rfl | rfl | rfl
    · simp [List.isPrefixOf_cons_cons, hne 't' (by decide)]
    · simp [List.isPrefixOf_cons_cons, hne 'f' (by decide)]
    · simp [List.isPrefixOf_cons_cons, hne 'n' (by decide)]
  have hnumber := fun negative => numberText_digits negative (decimalDigits_ne_nil n.natAbs)
    fun d hd => isDigit_of_mem hd
  unfold scalarText
  rw [hwords, Option.none_or]
  unfold intDigits
  by_cases hn : n < 0
  · rw [if_pos hn]
    exact hnumber true
  · rw [if_neg hn]
    exact hnumber false

/-- A string is written as a token. -/
theorem formed_quote (hstyle : style.showsHalves = false) (s : String) : (Token.text (style.quote s)).Formed :=
  ⟨style.escape s.toList, (decode?_eq_some_iff.mp (decode?_escape hstyle s.toList)).enclosed, rfl⟩

theorem formed_scalar {s : List Char} (h : scalarText s = some s) : (Tree.scalar s).Formed := by
  intro tok htok
  cases List.mem_singleton.mp htok
  exact h

/-- **The tokens of a value that is taken are written as such.** -/
theorem Json.Taken.formed_tree (hstyle : style.showsHalves = false) (h : Taken digits depth v) :
    (v.tree style).Formed := by
  induction h with
  | null => exact formed_scalar (by decide)
  | bool b => cases b <;> exact formed_scalar (by decide)
  | @int _ n few => exact formed_scalar (scalarText_intDigits n)
  | str s =>
    intro tok htok
    cases List.mem_singleton.mp htok
    exact formed_quote hstyle s
  | arr room _ ih =>
    rw [Json.tree, Json.itemTrees_eq]
    exact Tree.formed_array (List.forall_mem_map.mpr ih)
  | obj room distinct _ ih =>
    rw [Json.tree, Json.memberTrees_eq]
    exact Tree.formed_object (List.forall_mem_map.mpr fun p hp => ⟨formed_quote hstyle p.1, ih p hp⟩)

/-! ## Values -/

theorem literal?_quote (hstyle : style.showsHalves = false) (s : String) :
    Commented.literal? decode? (style.quote s) = some s := by
  rw [PrintStyle.quote, Commented.literal?_quoted, decode?_escape hstyle, Option.map_some, String.ofList_toList]

theorem itemValues?_trees {xs : List Json} (h : ∀ x ∈ xs, (x.tree style).value? digits decode? = some x) :
    Tree.itemValues? digits decode? (Json.itemTrees style xs) = some xs := by
  induction xs with
  | nil => rfl
  | cons x xs ih =>
    rw [Json.itemTrees, Tree.itemValues?, h x List.mem_cons_self, ih fun y hy => h y (List.mem_cons_of_mem x hy)]
    rfl

theorem memberValues?_trees (hstyle : style.showsHalves = false) {ms : List (String × Json)}
    (h : ∀ p ∈ ms, (p.2.tree style).value? digits decode? = some p.2) :
    Tree.memberValues? digits decode? (Json.memberTrees style ms) = some ms := by
  induction ms with
  | nil => rfl
  | cons p ms ih =>
    rw [Json.memberTrees, Tree.memberValues?, literal?_quote hstyle, h p List.mem_cons_self,
      ih fun q hq => h q (List.mem_cons_of_mem p hq)]
    rfl

/-- **The tree of a value that is taken has that value.** -/
theorem Json.Taken.value?_tree (hstyle : style.showsHalves = false) (h : Taken digits depth v) :
    (v.tree style).value? digits decode? = some v := by
  induction h with
  | null => rfl
  | bool b => cases b <;> rfl
  | int few => exact scalarValue?_intDigits few
  | str s =>
    rw [Json.tree, Tree.value?, literal?_quote hstyle]
    rfl
  | arr room _ ih =>
    rw [Json.tree, Tree.value?, itemValues?_trees ih]
    rfl
  | obj room distinct _ ih =>
    rw [Json.tree, Tree.value?, memberValues?_trees hstyle ih, Option.map_some, Named.ofPairs_of_nodup distinct]

/-! ## Printing -/

/-- The blanks of a style are blanks. -/
structure PrintStyle.Spaced (style : PrintStyle) : Prop where
  comma : Gap style.afterComma
  colon : Gap style.afterColon

theorem gap_lineBreak (style : PrintStyle) (level : Nat) : Gap (style.lineBreak level) := by
  unfold PrintStyle.lineBreak
  split
  · exact .nil
  · refine .blank rfl (gap_of_blanks fun c hc => ?_)
    rw [List.eq_of_mem_replicate hc]
    rfl

theorem PrintStyle.Spaced.leads_separator (h : style.Spaced) (level : Nat) :
    Leads [.comma] (style.separator level) := by
  unfold PrintStyle.separator
  split
  · exact (leads_token .comma).append (gap_lineBreak style level).leads
  · exact (leads_token .comma).append h.comma.leads

/-- A name and a value, with what a style puts between them. -/
theorem PrintStyle.Spaced.leads_member (h : style.Spaced) {ts : List Token} {s : List Char} (k : String)
    (hs : Leads ts s) :
    Leads (.text (style.quote k) :: .colon :: ts) (style.quote k ++ ':' :: style.afterColon ++ s) := by
  have hcolon := (leads_token .colon).append (h.colon.leads.append hs)
  have hboth := (leads_token (.text (style.quote k))).append hcolon
  simpa [Token.written] using hboth

mutual

theorem leads_printAt (h : style.Spaced) : ∀ (v : Json) (level : Nat),
    Leads (v.tree style).tokens (v.printAt style level)
  | .null, _ => leads_token (.scalar _)
  | .bool true, _ => leads_token (.scalar _)
  | .bool false, _ => leads_token (.scalar _)
  | .int n, _ => leads_token (.scalar _)
  | .float x, _ => leads_token (.scalar _)
  | .str s, _ => leads_token (.text _)
  | .arr [], _ => (leads_token .openBracket).append (leads_token .closeBracket)
  | .arr (x :: xs), level => by
    have hitems := (leads_printAt h x (level + 1)).append (leads_printItems h xs (level + 1))
    have hclose := (gap_lineBreak style level).leads.append (leads_token .closeBracket)
    have hall := (leads_token .openBracket).append
      ((gap_lineBreak style (level + 1)).leads.append (hitems.append hclose))
    simpa [Json.tree, Json.itemTrees, Tree.tokens, Tree.itemRows, joined, Json.printAt, Token.written] using hall
  | .obj [], _ => (leads_token .openBrace).append (leads_token .closeBrace)
  | .obj ((k, x) :: ms), level => by
    have hmembers := (h.leads_member k (leads_printAt h x (level + 1))).append (leads_printMembers h ms (level + 1))
    have hclose := (gap_lineBreak style level).leads.append (leads_token .closeBrace)
    have hall := (leads_token .openBrace).append
      ((gap_lineBreak style (level + 1)).leads.append (hmembers.append hclose))
    simpa [Json.tree, Json.memberTrees, Tree.tokens, Tree.memberRows, joined, Json.printAt, Token.written] using hall

theorem leads_printItems (h : style.Spaced) : ∀ (xs : List Json) (level : Nat),
    Leads (further (Tree.itemRows (Json.itemTrees style xs))) (Json.printItems style level xs)
  | [], _ => Gap.nil.leads
  | x :: xs, level => by
    have hitem := (h.leads_separator level).append (leads_printAt h x level)
    have hall := hitem.append (leads_printItems h xs level)
    simpa [Json.itemTrees, Tree.itemRows, further, Json.printItems] using hall

theorem leads_printMembers (h : style.Spaced) : ∀ (ms : List (String × Json)) (level : Nat),
    Leads (further (Tree.memberRows (Json.memberTrees style ms))) (Json.printMembers style level ms)
  | [], _ => Gap.nil.leads
  | (k, x) :: ms, level => by
    have hmember := (h.leads_separator level).append (h.leads_member k (leads_printAt h x level))
    have hall := hmember.append (leads_printMembers h ms level)
    simpa [Json.memberTrees, Tree.memberRows, further, Json.printMembers] using hall

end

/-- **What is printed is a layout of the tokens of the tree.** -/
theorem laid_print (h : style.Spaced) (v : Json) : Laid (v.tree style).tokens (v.print style) :=
  (leads_printAt h v 0).laid

end EditorServices
