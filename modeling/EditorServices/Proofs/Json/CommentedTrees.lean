import EditorServices.Proofs.Json.CommentedGrammar

/-!
# `Proofs.Json.CommentedTrees` — the trees that the grammar sees

Tokens of plain JSON make up a tree, whose leaves are strings and scalars as they are written. What the grammar
allows beyond that are trailing commas: every value is the row of the tokens of a tree with some of them put in
before closing tokens, and on its way through such a row the machine keeps the tokens of the tree.

## Contents
- **Trees.** `Tree`, its tokens and its depth.
- **Trailing commas.** `Trailed`, tokens with trailing commas put in.
- **Runs.** `runs_tokens`, and `feed_of_trailed` for whole rows.
- **Values.** `Value.exists_trailed`, every value is a tree with trailing commas.
- **Depth.** `Deepens`, and `deepest_tokens`.
-/

namespace EditorServices.Commented

/-! ## Trees -/

/-- A value as it is written in tokens of plain JSON. -/
inductive Tree where
  | text (literal : List Char)
  | scalar (s : List Char)
  | array (items : List Tree)
  | object (members : List (List Char × Tree))

/-- Rows of tokens with a comma before each of them. -/
def further : List (List Token) → List Token
  | [] => []
  | row :: rows => .comma :: (row ++ further rows)

/-- Rows of tokens with commas between them. -/
def joined : List (List Token) → List Token
  | [] => []
  | row :: rows => row ++ further rows

namespace Tree

/-- What is true of leaves, and of arrays and objects if it is of what they hold, is true of all trees. -/
@[elab_as_elim]
theorem induct {P : Tree → Prop} (text : ∀ l, P (.text l)) (scalar : ∀ s, P (.scalar s))
    (array : ∀ items, (∀ t ∈ items, P t) → P (.array items))
    (object : ∀ members : List (List Char × Tree), (∀ p ∈ members, P p.2) → P (.object members)) (t : Tree) :
    P t :=
  @Tree.rec P (fun items => ∀ t ∈ items, P t) (fun members => ∀ p ∈ members, P p.2) (fun p => P p.2)
    text scalar array object
    nofun (fun _ _ ht hts => List.forall_mem_cons.mpr ⟨ht, hts⟩)
    nofun (fun _ _ hp hps => List.forall_mem_cons.mpr ⟨hp, hps⟩) (fun _ _ ht => ht) t

mutual

/-- The tokens of a tree. -/
def tokens : Tree → List Token
  | .text l => [.text l]
  | .scalar s => [.scalar s]
  | .array items => .openBracket :: (joined (itemRows items) ++ [.closeBracket])
  | .object members => .openBrace :: (joined (memberRows members) ++ [.closeBrace])

/-- The tokens of items, one by one. -/
def itemRows : List Tree → List (List Token)
  | [] => []
  | t :: ts => t.tokens :: itemRows ts

/-- The tokens of members, one by one. -/
def memberRows : List (List Char × Tree) → List (List Token)
  | [] => []
  | (name, t) :: ms => (.text name :: .colon :: t.tokens) :: memberRows ms

end

mutual

/-- The depth of a tree, as it is counted in its tokens. -/
def depth : Tree → Nat
  | .text _ => 0
  | .scalar _ => 0
  | .array items => 1 + itemsDepth items
  | .object members => 2 + membersDepth members

def itemsDepth : List Tree → Nat
  | [] => 0
  | t :: ts => max t.depth (itemsDepth ts)

def membersDepth : List (List Char × Tree) → Nat
  | [] => 0
  | (_, t) :: ms => max t.depth (membersDepth ms)

end

theorem itemRows_eq (items : List Tree) : itemRows items = items.map tokens := by
  induction items with
  | nil => rfl
  | cons t ts ih => rw [itemRows, ih, List.map_cons]

theorem memberRows_eq (members : List (List Char × Tree)) :
    memberRows members = members.map fun p => .text p.1 :: .colon :: p.2.tokens := by
  induction members with
  | nil => rfl
  | cons p ms ih => rw [memberRows, ih, List.map_cons]

end Tree

/-! ## Trailing commas -/

/-- Tokens with commas put in before closing tokens, one at most before each. -/
inductive Trailed : List Token → List Token → Prop
  | nil : Trailed [] []
  | keep {ts us : List Token} (t : Token) (more : Trailed ts us) : Trailed (t :: ts) (t :: us)
  | comma {ts us : List Token} (kind : Bool) (more : Trailed ts us) :
      Trailed (closer kind :: ts) (.comma :: closer kind :: us)

/-- A token ends an array or an object. -/
def isCloser : Token → Bool
  | .closeBracket | .closeBrace => true
  | _ => false

section

variable {ts us more : List Token} {t : Token} {kind : Bool}

theorem Trailed.refl (ts : List Token) : Trailed ts ts := by
  induction ts with
  | nil => exact .nil
  | cons t ts ih => exact .keep t ih

theorem Trailed.append {us' : List Token} (h : Trailed ts us) (h' : Trailed more us') :
    Trailed (ts ++ more) (us ++ us') := by
  induction h with
  | nil => exact h'
  | keep t _ ih => exact .keep t ih
  | comma kind _ ih => exact .comma kind ih

/-- Commas are put into each part of a row. -/
theorem Trailed.exists_append (h : Trailed (ts ++ more) us) :
    ∃ a b, us = a ++ b ∧ Trailed ts a ∧ Trailed more b := by
  induction ts generalizing us with
  | nil => exact ⟨[], us, rfl, .nil, h⟩
  | cons t ts ih =>
    cases h with
    | keep _ hmore =>
      obtain ⟨a, b, rfl, ha, hb⟩ := ih hmore
      exact ⟨t :: a, b, rfl, .keep t ha, hb⟩
    | comma kind hmore =>
      obtain ⟨a, b, rfl, ha, hb⟩ := ih hmore
      exact ⟨.comma :: closer kind :: a, b, rfl, .comma kind ha, hb⟩

/-- None is put in before a token that closes nothing. -/
theorem Trailed.exists_cons (h : Trailed (t :: ts) us) (ht : isCloser t = false) :
    ∃ us', us = t :: us' ∧ Trailed ts us' := by
  cases h with
  | keep _ hmore => exact ⟨_, rfl, hmore⟩
  | comma kind _ => cases kind <;> cases ht

/-- Before a closing token there is none, or one. -/
theorem Trailed.closer_cases (h : Trailed [closer kind] us) : us = [closer kind] ∨ us = [.comma, closer kind] := by
  generalize hts : [closer kind] = ts at h
  cases h with
  | nil => cases hts
  | keep t hmore =>
    cases hts
    cases hmore
    exact .inl rfl
  | comma kind' hmore =>
    obtain ⟨hk, rfl⟩ := List.cons.inj hts
    cases hmore
    rw [← hk]
    exact .inr rfl

end

/-! ## Runs -/

namespace Machine

/-- What is expected right after the start of an array (false) or an object (true). -/
def first : Bool → Expecting
  | true => .firstMember
  | false => .firstItem

/-- What is expected after a comma in an array or an object. -/
def next : Bool → Expecting
  | true => .nextMember
  | false => .nextItem

/-- Takes the first token of an item or a member. -/
def takeElement : Bool → Machine → List Token → Token → Option Machine
  | true, m, held, t => m.takeName held t
  | false, m, held, t => m.takeValue held t

section

variable {kind : Bool} {outer : List Bool} {kept held : List Token} {t : Token} {m m' : Machine}

theorem step_first : step ⟨first kind, kind :: outer, kept⟩ t =
    if t = .comma then some ⟨.onlyEnd, kind :: outer, kept⟩
    else (close ⟨first kind, kind :: outer, kept⟩ t).or
      (takeElement kind ⟨first kind, kind :: outer, kept⟩ [] t) := by
  cases kind <;> rfl

theorem step_next : step ⟨next kind, kind :: outer, kept⟩ t =
    (close ⟨next kind, kind :: outer, kept⟩ t).or
      (takeElement kind ⟨next kind, kind :: outer, kept⟩ [.comma] t) := by
  cases kind <;> rfl

theorem step_after : step ⟨afterValue (kind :: outer), kind :: outer, kept⟩ t =
    if t = .comma then some ⟨next kind, kind :: outer, kept⟩
    else close ⟨afterValue (kind :: outer), kind :: outer, kept⟩ t := by
  cases kind <;> rfl

theorem close_closer (h : m.nesting = kind :: outer) :
    m.close (closer kind) = some ⟨afterValue outer, outer, closer kind :: m.kept⟩ := by
  unfold close
  rw [h]
  cases kind <;> rfl

/-- What starts an element is neither a comma nor a closing token. -/
theorem ne_comma_of_takeElement (h : takeElement kind m held t = some m') :
    t ≠ .comma ∧ ∀ other : Machine, other.close t = none := by
  cases t with
  | comma | colon | closeBrace | closeBracket => cases kind <;> cases h
  | _ =>
    refine ⟨by simp, fun other => ?_⟩
    unfold close
    split <;> simp_all

theorem step_first_element (h : takeElement kind ⟨first kind, kind :: outer, kept⟩ [] t = some m') :
    step ⟨first kind, kind :: outer, kept⟩ t = some m' := by
  obtain ⟨hcomma, hclose⟩ := ne_comma_of_takeElement h
  rw [step_first, if_neg hcomma, hclose, Option.none_or, h]

theorem step_next_element (h : takeElement kind ⟨next kind, kind :: outer, kept⟩ [.comma] t = some m') :
    step ⟨next kind, kind :: outer, kept⟩ t = some m' := by
  obtain ⟨-, hclose⟩ := ne_comma_of_takeElement h
  rw [step_next, hclose, Option.none_or, h]

end

end Machine

/-- A row of tokens is taken as a value, trailing commas or not: in any state after any tokens that are held
back, and all of it is kept. -/
def Runs (row : List Token) : Prop :=
  ∀ us, Trailed row us → ∃ u us', us = u :: us' ∧ ∀ (m : Machine) (held : List Token),
    ∃ m', m.takeValue held u = some m' ∧
      m'.feed us' = some ⟨Machine.afterValue m.nesting, m.nesting, row.reverse ++ held ++ m.kept⟩

/-- A row of tokens is taken as an item of an array (false) or a member of an object (true). -/
def RunsIn (kind : Bool) (row : List Token) : Prop :=
  ∀ us, Trailed row us → ∃ u us', us = u :: us' ∧ ∀ (m : Machine) (held : List Token) (outer : List Bool),
    m.nesting = kind :: outer → ∃ m', Machine.takeElement kind m held u = some m' ∧
      m'.feed us' = some ⟨Machine.afterValue m.nesting, m.nesting, row.reverse ++ held ++ m.kept⟩

theorem Runs.item {row : List Token} (h : Runs row) : RunsIn false row := by
  intro us hus
  obtain ⟨u, us', rfl, hrun⟩ := h us hus
  exact ⟨u, us', rfl, fun m held _ _ => hrun m held⟩

theorem Runs.member {row : List Token} (h : Runs row) (name : List Char) :
    RunsIn true (.text name :: .colon :: row) := by
  intro us hus
  obtain ⟨us₁, rfl, hus₁⟩ := hus.exists_cons rfl
  obtain ⟨us₂, rfl, hus₂⟩ := hus₁.exists_cons rfl
  obtain ⟨u, us', rfl, hrun⟩ := h us₂ hus₂
  refine ⟨.text name, _, rfl, fun m held outer hm => ⟨_, rfl, ?_⟩⟩
  obtain ⟨m', htake, hfeed⟩ := hrun ⟨.value, m.nesting, .colon :: .text name :: (held ++ m.kept)⟩ []
  show (Machine.takeValue ⟨.value, m.nesting, _⟩ [] u).bind (fun m' => m'.feed us') = _
  rw [List.cons_append, htake]
  show m'.feed us' = _
  rw [hfeed]
  simp

section

variable {kind : Bool} {rows : List (List Token)} {row us : List Token}

/-- The end of an array or an object, with a trailing comma or without. -/
theorem feed_closer {expecting : Expecting} (hus : Trailed [closer kind] us) (outer : List Bool) (kept : List Token)
    (hclose : Machine.step ⟨expecting, kind :: outer, kept⟩ (closer kind) =
      Machine.close ⟨expecting, kind :: outer, kept⟩ (closer kind))
    (hcomma : ∃ e, Machine.step ⟨expecting, kind :: outer, kept⟩ .comma = some ⟨e, kind :: outer, kept⟩ ∧
      Machine.step ⟨e, kind :: outer, kept⟩ (closer kind) = Machine.close ⟨e, kind :: outer, kept⟩ (closer kind)) :
    Machine.feed ⟨expecting, kind :: outer, kept⟩ us =
      some ⟨Machine.afterValue outer, outer, closer kind :: kept⟩ := by
  rcases hus.closer_cases with rfl | rfl
  · show (Machine.step _ _).bind _ = _
    rw [hclose, Machine.close_closer rfl]
    rfl
  · obtain ⟨e, hstep, hclose⟩ := hcomma
    show (Machine.step _ _).bind _ = _
    rw [hstep]
    show (Machine.step _ _).bind _ = _
    rw [hclose, Machine.close_closer rfl]
    rfl

/-- From one element on: further elements, each after a comma, perhaps a trailing comma, and the end. -/
theorem feed_more (h : ∀ row ∈ rows, RunsIn kind row)
    (hus : Trailed (further rows ++ [closer kind]) us) (outer : List Bool) (kept : List Token) :
    Machine.feed ⟨Machine.afterValue (kind :: outer), kind :: outer, kept⟩ us =
      some ⟨Machine.afterValue outer, outer, closer kind :: ((further rows).reverse ++ kept)⟩ := by
  induction rows generalizing us kept with
  | nil =>
    refine feed_closer hus outer kept ?_ ⟨Machine.next kind, ?_, ?_⟩
    · cases kind <;> rfl
    · cases kind <;> rfl
    · cases kind <;> rfl
  | cons row rows ih =>
    rw [further, List.cons_append, List.append_assoc] at hus
    obtain ⟨us₁, rfl, hus₁⟩ := hus.exists_cons rfl
    obtain ⟨a, b, rfl, ha, hb⟩ := hus₁.exists_append
    obtain ⟨u, us', rfl, hrun⟩ := h row List.mem_cons_self a ha
    obtain ⟨m', htake, hfeed⟩ := hrun ⟨Machine.next kind, kind :: outer, kept⟩ [.comma] outer rfl
    have hmore := ih (fun r hr => h r (List.mem_cons_of_mem row hr)) hb (row.reverse ++ [.comma] ++ kept)
    show (Machine.step _ .comma).bind _ = _
    rw [Machine.step_after, if_pos rfl]
    show (Machine.step _ u).bind _ = _
    rw [Machine.step_next_element htake]
    show m'.feed (us' ++ b) = _
    rw [Machine.feed_append, hfeed]
    show Machine.feed _ b = _
    rw [hmore]
    simp [further]

theorem feed_joined (h : ∀ row ∈ rows, RunsIn kind row) (hus : Trailed (joined rows ++ [closer kind]) us)
    (outer : List Bool) (kept : List Token) :
    Machine.feed ⟨Machine.first kind, kind :: outer, kept⟩ us =
      some ⟨Machine.afterValue outer, outer, closer kind :: ((joined rows).reverse ++ kept)⟩ := by
  cases rows with
  | nil =>
    refine feed_closer hus outer kept ?_ ⟨.onlyEnd, ?_, ?_⟩
    · cases kind <;> rfl
    · cases kind <;> rfl
    · cases kind <;> rfl
  | cons row rows =>
    rw [joined, List.append_assoc] at hus
    obtain ⟨a, b, rfl, ha, hb⟩ := hus.exists_append
    obtain ⟨u, us', rfl, hrun⟩ := h row List.mem_cons_self a ha
    obtain ⟨m', htake, hfeed⟩ := hrun ⟨Machine.first kind, kind :: outer, kept⟩ [] outer rfl
    have hmore := feed_more (fun r hr => h r (List.mem_cons_of_mem row hr)) hb outer (row.reverse ++ [] ++ kept)
    show (Machine.step _ u).bind _ = _
    rw [Machine.step_first_element htake]
    show m'.feed (us' ++ b) = _
    rw [Machine.feed_append, hfeed]
    show Machine.feed _ b = _
    rw [hmore]
    simp [joined]

end

/-- **A tree is taken as a value.** -/
theorem runs_tokens (t : Tree) : Runs t.tokens := by
  induction t using Tree.induct with
  | text l =>
    intro us hus
    obtain ⟨us', rfl, hus'⟩ := hus.exists_cons rfl
    cases hus'
    exact ⟨_, [], rfl, fun m held => ⟨_, rfl, rfl⟩⟩
  | scalar s =>
    intro us hus
    obtain ⟨us', rfl, hus'⟩ := hus.exists_cons rfl
    cases hus'
    exact ⟨_, [], rfl, fun m held => ⟨_, rfl, rfl⟩⟩
  | array items ih =>
    intro us hus
    obtain ⟨us', rfl, hus'⟩ := hus.exists_cons rfl
    have hrows : ∀ row ∈ Tree.itemRows items, RunsIn false row := by
      rw [Tree.itemRows_eq, List.forall_mem_map]
      exact fun t ht => (ih t ht).item
    refine ⟨_, us', rfl, fun m held => ⟨_, rfl, ?_⟩⟩
    refine (feed_joined hrows hus' m.nesting _).trans ?_
    simp [Tree.tokens, closer]
  | object members ih =>
    intro us hus
    obtain ⟨us', rfl, hus'⟩ := hus.exists_cons rfl
    have hrows : ∀ row ∈ Tree.memberRows members, RunsIn true row := by
      rw [Tree.memberRows_eq, List.forall_mem_map]
      exact fun p hp => (ih p hp).member p.1
    refine ⟨_, us', rfl, fun m held => ⟨_, rfl, ?_⟩⟩
    refine (feed_joined hrows hus' m.nesting _).trans ?_
    simp [Tree.tokens, closer]

/-- **On its way through a tree with trailing commas the machine keeps the tree.** -/
theorem feed_of_trailed {t : Tree} {ts : List Token} (h : Trailed t.tokens ts) :
    Machine.initial.feed ts = some ⟨.nothing, [], t.tokens.reverse⟩ := by
  obtain ⟨u, us, rfl, hrun⟩ := runs_tokens t ts h
  obtain ⟨m', htake, hfeed⟩ := hrun .initial []
  show (Machine.takeValue .initial [] u).bind _ = _
  rw [htake]
  refine hfeed.trans ?_
  simp [Machine.initial, Machine.afterValue]

/-! ## Values -/

/-- The tokens of an item of an array (false) or a member of an object (true). -/
inductive IsElement : Bool → List Token → Prop
  | item (t : Tree) : IsElement false t.tokens
  | member (name : List Char) (t : Tree) : IsElement true (.text name :: .colon :: t.tokens)

theorem exists_items {rows : List (List Token)} (h : ∀ row ∈ rows, IsElement false row) :
    ∃ items, Tree.itemRows items = rows := by
  induction rows with
  | nil => exact ⟨[], rfl⟩
  | cons row rows ih =>
    obtain ⟨items, rfl⟩ := ih fun r hr => h r (List.mem_cons_of_mem row hr)
    cases h row List.mem_cons_self with
    | item t => exact ⟨t :: items, rfl⟩

theorem exists_members {rows : List (List Token)} (h : ∀ row ∈ rows, IsElement true row) :
    ∃ members, Tree.memberRows members = rows := by
  induction rows with
  | nil => exact ⟨[], rfl⟩
  | cons row rows ih =>
    obtain ⟨members, rfl⟩ := ih fun r hr => h r (List.mem_cons_of_mem row hr)
    cases h row List.mem_cons_self with
    | member name t => exact ⟨(name, t) :: members, rfl⟩

/-- Tokens are rows of elements, joined in some way, with trailing commas put in up to the end of the array or
the object. -/
def Closes (kind : Bool) (join : List (List Token) → List Token) (inner : List Token) : Prop :=
  ∃ rows, (∀ row ∈ rows, IsElement kind row) ∧ Trailed (join rows ++ [closer kind]) (inner ++ [closer kind])

mutual

/-- **Every value is a tree with trailing commas put in.** -/
theorem Value.exists_trailed : ∀ {ts : List Token}, Value ts → ∃ t : Tree, Trailed t.tokens ts
  | _, .text s => ⟨.text s, .refl _⟩
  | _, .scalar s => ⟨.scalar s, .refl _⟩
  | _, .array elements => by
    obtain ⟨rows, hrows, htrailed⟩ := elements.exists_rows
    obtain ⟨items, rfl⟩ := exists_items hrows
    exact ⟨.array items, .keep _ htrailed⟩
  | _, .object elements => by
    obtain ⟨rows, hrows, htrailed⟩ := elements.exists_rows
    obtain ⟨members, rfl⟩ := exists_members hrows
    exact ⟨.object members, .keep _ htrailed⟩

theorem Elements.exists_rows : ∀ {kind : Bool} {inner : List Token}, Elements kind inner → Closes kind joined inner
  | _, _, .empty => ⟨[], nofun, .refl _⟩
  | _, _, .comma => ⟨[], nofun, .comma _ .nil⟩
  | _, _, .first element rest => by
    obtain ⟨row, hrow, htrailed⟩ := element.exists_row
    obtain ⟨rows, hrows, hmore⟩ := rest.exists_rows
    refine ⟨row :: rows, List.forall_mem_cons.mpr ⟨hrow, hrows⟩, ?_⟩
    rw [joined, List.append_assoc, List.append_assoc]
    exact htrailed.append hmore

theorem More.exists_rows : ∀ {kind : Bool} {more : List Token}, More kind more → Closes kind further more
  | _, _, .none => ⟨[], nofun, .refl _⟩
  | _, _, .trailing => ⟨[], nofun, .comma _ .nil⟩
  | _, _, .next element rest => by
    obtain ⟨row, hrow, htrailed⟩ := element.exists_row
    obtain ⟨rows, hrows, hmore⟩ := rest.exists_rows
    refine ⟨row :: rows, List.forall_mem_cons.mpr ⟨hrow, hrows⟩, ?_⟩
    rw [further, List.cons_append, List.cons_append, List.append_assoc, List.append_assoc]
    exact .keep _ (htrailed.append hmore)

theorem Element.exists_row : ∀ {kind : Bool} {e : List Token}, Element kind e →
    ∃ row, IsElement kind row ∧ Trailed row e
  | _, _, .item value => by
    obtain ⟨t, ht⟩ := value.exists_trailed
    exact ⟨_, .item t, ht⟩
  | _, _, .member name value => by
    obtain ⟨t, ht⟩ := value.exists_trailed
    exact ⟨_, .member name t, .keep _ (.keep _ ht)⟩

end

/-! ## Depth -/

/-- A row of tokens leads back to the depth that it starts at, and goes some way beyond it. -/
def Deepens (n : Nat) (row : List Token) : Prop :=
  ∀ (base : Int) (rest : List Token), deepest base (row ++ rest) = max (base + n) (deepest base rest)

theorem deepens_nil : Deepens 0 [] := by
  intro base rest
  have hle := le_deepest base rest
  simp only [List.nil_append]
  omega

section

variable {n k : Nat} {row more : List Token}

theorem deepens_cons {t : Token} (ht : t.depthChange = 0) (h : Deepens n row) : Deepens n (t :: row) := by
  intro base rest
  have hrow := h base rest
  show max base (deepest (base + t.depthChange) (row ++ rest)) = _
  rw [ht, Int.add_zero, hrow]
  omega

theorem Deepens.append (h : Deepens n row) (h' : Deepens k more) : Deepens (max n k) (row ++ more) := by
  intro base rest
  have hrow := h base (more ++ rest)
  have hmore := h' base rest
  rw [List.append_assoc, hrow, hmore]
  omega

/-- Between an opening and a closing token a row goes deeper. -/
theorem Deepens.enclosed {start stop : Token} (hstart : start.depthChange = k) (hstop : stop.depthChange = -k)
    (h : Deepens n row) : Deepens (k + n) (start :: (row ++ [stop])) := by
  intro base rest
  have hrow := h (base + k) (stop :: rest)
  show max base (deepest (base + start.depthChange) (row ++ [stop] ++ rest)) = _
  rw [hstart, List.append_assoc, List.singleton_append, hrow]
  show max base (max _ (max (base + k) (deepest (base + k + stop.depthChange) rest))) = _
  rw [hstop, Int.add_neg_cancel_right]
  omega

end

/-- A comma is as deep as what comes after it. -/
theorem deepens_joined {n : Nat} {rows : List (List Token)} (h : Deepens n (further rows)) :
    Deepens n (joined rows) := by
  cases rows with
  | nil => exact h
  | cons row rows =>
    intro base rest
    have hfurther := h base rest
    have hle := le_deepest base (joined (row :: rows) ++ rest)
    change max base (deepest (base + 0) (joined (row :: rows) ++ rest)) = _ at hfurther
    rw [Int.add_zero] at hfurther
    omega

/-- **The depth of a tree is that of its tokens.** -/
theorem deepens_tokens (t : Tree) : Deepens t.depth t.tokens := by
  induction t using Tree.induct with
  | text l => exact deepens_cons rfl deepens_nil
  | scalar s => exact deepens_cons rfl deepens_nil
  | array items ih =>
    have hitems : Deepens (Tree.itemsDepth items) (further (Tree.itemRows items)) := by
      induction items with
      | nil => exact deepens_nil
      | cons t ts ihs =>
        have ht := ih t List.mem_cons_self
        exact deepens_cons rfl (ht.append (ihs fun u hu => ih u (List.mem_cons_of_mem t hu)))
    exact (deepens_joined hitems).enclosed rfl rfl
  | object members ih =>
    have hmembers : Deepens (Tree.membersDepth members) (further (Tree.memberRows members)) := by
      induction members with
      | nil => exact deepens_nil
      | cons p ps ihs =>
        have hp := deepens_cons (t := .text p.1) rfl (deepens_cons (t := .colon) rfl (ih p List.mem_cons_self))
        exact deepens_cons rfl (hp.append (ihs fun q hq => ih q (List.mem_cons_of_mem p hq)))
    exact (deepens_joined hmembers).enclosed rfl rfl

theorem deepest_tokens (t : Tree) : deepest 0 t.tokens = t.depth := by
  have h := deepens_tokens t 0 []
  rw [List.append_nil] at h
  rw [h]
  show max (0 + (t.depth : Int)) 0 = _
  omega

end EditorServices.Commented
