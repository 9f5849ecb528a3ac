import EditorServices.Proofs.Json.CommentedLayout
import EditorServices.Proofs.Json.CommentedTrees
import EditorServices.Proofs.Json.PlainScalars
import EditorServices.Proofs.Json.PlainStrings

/-!
# `Proofs.Json.PlainTrees` — the tokens of a tree are read as its value

The value of a tree is put together from those of its leaves: a string is what is written between its quotes,
and a scalar is a word or a number, as a whole. Reading the tokens of a tree in a row gives that value and
nothing else, and fails if there is none.

## Contents
- **Values.** `Tree.value?`, for any way to read what is between quotes.
- **Text.** How the tokens of a tree are written, part by part.
- **Steps.** `readItems_eq_ok_iff` and `readMembers_eq_ok_iff`.
- **Reading.** `ReadAs`, for items, members, and by induction for trees: `readAs`.
-/

namespace EditorServices.Commented

variable {rest r s : List Char} {digits depth maxDepth : Option Nat} {v : Json} {t u : Tree} {ts : List Tree}
  {p q : List Char × Tree} {ps : List (List Char × Tree)}

/-! ## Values -/

/-- The text of a string in quotes, given how to read what is between them. -/
def literal? (between : List Char → Option (List Char)) : List Char → Option String
  | '"' :: l => (between l.dropLast).map String.ofList
  | _ => none

theorem literal?_quoted (between : List Char → Option (List Char)) (body : List Char) :
    literal? between ('"' :: (body ++ ['"'])) = (between body).map String.ofList := by
  rw [literal?, List.dropLast_concat]

namespace Tree

section

variable (digits : Option Nat) (between : List Char → Option (List Char))

mutual

/-- The value of a tree, if all its leaves have one: given how many digits of integers are read, and how to
read what is between quotes. -/
def value? : Tree → Option Json
  | .text l => (literal? between l).map .str
  | .scalar s => scalarValue? digits s
  | .array items => (itemValues? items).map .arr
  | .object members => (memberValues? members).map fun ms => .obj (Named.ofPairs ms)

def itemValues? : List Tree → Option (List Json)
  | [] => some []
  | t :: ts => (t.value?).bind fun v => (itemValues? ts).map (v :: ·)

def memberValues? : List (List Char × Tree) → Option (List (String × Json))
  | [] => some []
  | (name, t) :: ms => (literal? between name).bind fun k =>
    (t.value?).bind fun v => (memberValues? ms).map ((k, v) :: ·)

end

end

/-! ## Text -/

/-- The tokens of a tree in a row. -/
def written (t : Tree) : List Char := t.tokens.flatMap Token.written

/-- The items of an array after its bracket. -/
def itemsWritten : Tree → List Tree → List Char
  | t, [] => t.written ++ [']']
  | t, u :: us => t.written ++ ',' :: itemsWritten u us

/-- A member of an object, with what comes after it. -/
def memberWritten (p : List Char × Tree) (more : List Char) : List Char := p.1 ++ ':' :: (p.2.written ++ more)

/-- The members of an object after its brace. -/
def membersWritten : List Char × Tree → List (List Char × Tree) → List Char
  | p, [] => memberWritten p ['}']
  | p, q :: qs => memberWritten p (',' :: membersWritten q qs)

theorem written_array (t : Tree) (ts : List Tree) : (Tree.array (t :: ts)).written = '[' :: itemsWritten t ts := by
  have hmore : ∀ t, t.written ++ (further (itemRows ts) ++ [Token.closeBracket]).flatMap Token.written =
      itemsWritten t ts := by
    induction ts with
    | nil => exact fun t => rfl
    | cons u us ih =>
      intro t
      rw [itemsWritten, ← ih u]
      simp [itemRows, further, written, Token.written]
  rw [← hmore]
  simp [written, tokens, itemRows, joined, Token.written]

theorem written_object (p : List Char × Tree) (ps : List (List Char × Tree)) :
    (Tree.object (p :: ps)).written = '{' :: membersWritten p ps := by
  have hmore : ∀ p, memberWritten p ((further (memberRows ps) ++ [Token.closeBrace]).flatMap Token.written) =
      membersWritten p ps := by
    induction ps with
    | nil => exact fun p => rfl
    | cons q qs ih =>
      intro p
      rw [membersWritten, ← ih q]
      simp [memberRows, further, written, memberWritten, Token.written]
  rw [← hmore]
  simp [written, tokens, memberRows, joined, memberWritten, Token.written]

theorem memberWritten_append (p : List Char × Tree) (s r : List Char) :
    memberWritten p s ++ r = memberWritten p (s ++ r) := by
  simp only [memberWritten, List.append_assoc, List.cons_append]

theorem mem_further {rows : List (List Token)} {row : List Token} {tok : Token} (hrow : row ∈ rows)
    (htok : tok ∈ row) : tok ∈ further rows := by
  induction rows with
  | nil => cases hrow
  | cons row' rows ih =>
    rw [further, List.mem_cons, List.mem_append]
    rcases List.mem_cons.mp hrow with rfl | hrow
    · exact .inr (.inl htok)
    · exact .inr (.inr (ih hrow))

theorem mem_joined {rows : List (List Token)} {row : List Token} {tok : Token} (hrow : row ∈ rows)
    (htok : tok ∈ row) : tok ∈ joined rows := by
  cases rows with
  | nil => cases hrow
  | cons row' rows =>
    rw [joined, List.mem_append]
    rcases List.mem_cons.mp hrow with rfl | hrow
    · exact .inl htok
    · exact .inr (mem_further hrow htok)

/-- The tokens of an item are among those of the array. -/
theorem mem_tokens_array {tok : Token} (ht : t ∈ ts) (htok : tok ∈ t.tokens) : tok ∈ (array ts).tokens := by
  have hrow : t.tokens ∈ itemRows ts := by
    rw [itemRows_eq]
    exact List.mem_map_of_mem ht
  exact List.mem_cons_of_mem _ (List.mem_append_left _ (mem_joined hrow htok))

/-- The name of a member, and the tokens of its value, are among those of the object. -/
theorem mem_tokens_object {tok : Token} (hp : p ∈ ps) (htok : tok = .text p.1 ∨ tok ∈ p.2.tokens) :
    tok ∈ (object ps).tokens := by
  have hrow : (.text p.1 :: .colon :: p.2.tokens) ∈ memberRows ps := by
    rw [memberRows_eq]
    exact List.mem_map_of_mem (f := fun p => Token.text p.1 :: .colon :: p.2.tokens) hp
  refine List.mem_cons_of_mem _ (List.mem_append_left _ (mem_joined hrow ?_))
  rcases htok with rfl | htok
  · exact List.mem_cons_self
  · exact List.mem_cons_of_mem _ (List.mem_cons_of_mem _ htok)

theorem length_memberWritten (p : List Char × Tree) (s : List Char) :
    (memberWritten p s).length = p.1.length + p.2.written.length + s.length + 1 := by
  simp only [memberWritten, List.length_append, List.length_cons]
  omega

theorem mem_joined_cases {rows : List (List Token)} {tok : Token} (h : tok ∈ joined rows) :
    tok = .comma ∨ ∃ row ∈ rows, tok ∈ row := by
  have hfurther : ∀ {rows : List (List Token)}, tok ∈ further rows → tok = .comma ∨ ∃ row ∈ rows, tok ∈ row := by
    intro rows hmem
    induction rows with
    | nil => cases hmem
    | cons row rows ih =>
      rw [further, List.mem_cons, List.mem_append] at hmem
      rcases hmem with rfl | hmem | hmem
      · exact .inl rfl
      · exact .inr ⟨row, List.mem_cons_self, hmem⟩
      · exact (ih hmem).imp id fun ⟨row', hrow', htok⟩ => ⟨row', List.mem_cons_of_mem row hrow', htok⟩
  cases rows with
  | nil => cases h
  | cons row rows =>
    rcases List.mem_append.mp h with h | h
    · exact .inr ⟨row, List.mem_cons_self, h⟩
    · exact (hfurther h).imp id fun ⟨row', hrow', htok⟩ => ⟨row', List.mem_cons_of_mem row hrow', htok⟩

/-- What is true of all tokens but strings and scalars, and of the tokens of items, is true of those of an array. -/
theorem forall_tokens_array {P : Token → Prop} (marks : ∀ tok, (∀ l, tok ≠ .text l) → (∀ s, tok ≠ .scalar s) → P tok)
    (h : ∀ t ∈ ts, ∀ tok ∈ t.tokens, P tok) : ∀ tok ∈ (array ts).tokens, P tok := by
  intro tok htok
  rcases List.mem_cons.mp htok with rfl | htok
  · exact marks _ nofun nofun
  rcases List.mem_append.mp htok with htok | htok
  · rcases mem_joined_cases htok with rfl | ⟨row, hrow, htok⟩
    · exact marks _ nofun nofun
    · rw [itemRows_eq] at hrow
      obtain ⟨t, ht, rfl⟩ := List.mem_map.mp hrow
      exact h t ht tok htok
  · cases List.mem_singleton.mp htok
    exact marks _ nofun nofun

/-- So it is with those of an object, if it is true of names and of the tokens of values. -/
theorem forall_tokens_object {P : Token → Prop} (marks : ∀ tok, (∀ l, tok ≠ .text l) → (∀ s, tok ≠ .scalar s) → P tok)
    (h : ∀ p ∈ ps, P (.text p.1) ∧ ∀ tok ∈ p.2.tokens, P tok) : ∀ tok ∈ (object ps).tokens, P tok := by
  intro tok htok
  rcases List.mem_cons.mp htok with rfl | htok
  · exact marks _ nofun nofun
  rcases List.mem_append.mp htok with htok | htok
  · rcases mem_joined_cases htok with rfl | ⟨row, hrow, htok⟩
    · exact marks _ nofun nofun
    · rw [memberRows_eq] at hrow
      obtain ⟨p, hp, rfl⟩ := List.mem_map.mp hrow
      rcases List.mem_cons.mp htok with rfl | htok
      · exact (h p hp).1
      rcases List.mem_cons.mp htok with rfl | htok
      · exact marks _ nofun nofun
      · exact (h p hp).2 tok htok
  · cases List.mem_singleton.mp htok
    exact marks _ nofun nofun

/-- All tokens of a tree are written as such. -/
def Formed (t : Tree) : Prop := ∀ tok ∈ t.tokens, tok.Formed

theorem formed_mark (tok : Token) (htext : ∀ l, tok ≠ .text l) (hscalar : ∀ s, tok ≠ .scalar s) : tok.Formed := by
  cases tok with
  | text l => exact absurd rfl (htext l)
  | scalar s => exact absurd rfl (hscalar s)
  | _ => trivial

theorem formed_array (h : ∀ t ∈ ts, t.Formed) : (array ts).Formed := forall_tokens_array formed_mark h

theorem formed_object (h : ∀ p ∈ ps, (Token.text p.1).Formed ∧ p.2.Formed) : (object ps).Formed :=
  forall_tokens_object formed_mark h

theorem Formed.item (h : (array ts).Formed) (ht : t ∈ ts) : t.Formed := fun tok htok =>
  h tok (mem_tokens_array ht htok)

theorem Formed.member (h : (object ps).Formed) (hp : p ∈ ps) : p.2.Formed := fun tok htok =>
  h tok (mem_tokens_object hp (.inr htok))

theorem Formed.name (h : (object ps).Formed) (hp : p ∈ ps) :
    ∃ body, Enclosed body ∧ p.1 = '"' :: (body ++ ['"']) :=
  h (.text p.1) (mem_tokens_object hp (.inl rfl))

theorem Formed.tail (h : (object (p :: q :: ps)).Formed) : (object (q :: ps)).Formed := by
  intro tok htok
  rcases List.mem_cons.mp htok with rfl | htok
  · trivial
  · refine h tok (List.mem_cons_of_mem _ ?_)
    rcases List.mem_append.mp htok with htok | htok
    · refine List.mem_append_left _ (List.mem_append_right _ ?_)
      exact List.mem_cons_of_mem _ htok
    · exact List.mem_append_right _ htok

theorem Formed.startsWithout_members (h : (object (p :: ps)).Formed) (r : List Char) :
    StartsWithout '}' (membersWritten p ps ++ r) := by
  obtain ⟨body, -, hname⟩ := h.name List.mem_cons_self
  cases ps with
  | nil =>
    rw [membersWritten, memberWritten_append, memberWritten, hname]
    exact startsWithout_quote _
  | cons q qs =>
    rw [membersWritten, memberWritten_append, memberWritten, hname]
    exact startsWithout_quote _

/-- A tree starts with a character that is neither blank nor closes anything. -/
theorem Formed.head (h : t.Formed) :
    ∃ c r, t.written = c :: r ∧ isJsonBlank c = false ∧ c ≠ ']' ∧ c ≠ Char.ofNat 0xfeff := by
  cases t with
  | text l =>
    obtain ⟨body, -, rfl⟩ := h (.text l) List.mem_cons_self
    exact ⟨'"', _, rfl, rfl, by decide, by decide⟩
  | scalar s =>
    have hs : scalarText s = some s := h (.scalar s) List.mem_cons_self
    obtain ⟨c, r, rfl⟩ := List.exists_cons_of_ne_nil (scalarText_ne_nil hs)
    have hc := isScalarChar_of_mem_scalarText hs c List.mem_cons_self
    exact ⟨c, r ++ [], rfl, isJsonBlank_of_isScalarChar hc, ne_of_isScalarChar hc rfl, ne_of_isScalarChar hc rfl⟩
  | array items => exact ⟨'[', _, rfl, rfl, by decide, by decide⟩
  | object members => exact ⟨'{', _, rfl, rfl, by decide, by decide⟩

theorem Formed.startsWithout (h : t.Formed) (r : List Char) : StartsWithout ']' (t.written ++ r) := by
  obtain ⟨c, r', hcr, hblank, hbracket, -⟩ := h.head
  rw [hcr]
  intro d hd
  cases hd
  exact ⟨hblank, hbracket⟩

theorem Formed.startsWithout_items (h : t.Formed) (ts : List Tree) (r : List Char) :
    StartsWithout ']' (itemsWritten t ts ++ r) := by
  cases ts with
  | nil =>
    rw [itemsWritten, List.append_assoc]
    exact h.startsWithout _
  | cons u us =>
    rw [itemsWritten, List.append_assoc]
    exact h.startsWithout _

end Tree

/-! ## Steps -/

section

variable {d : Dialect} {fuel : Nat} {x : Json} {xs : List Json} {ms : List (String × Json)}

/-- **What items are read as**: an item, and the end of the array or a comma and more items. -/
theorem readItems_eq_ok_iff : readItems d depth (fuel + 1) s = .ok (xs, rest) ↔
    ∃ x s', readValue d depth fuel s = .ok (x, s') ∧
      ((skipBlanks s' = ']' :: rest ∧ xs = [x]) ∨
        ∃ r ys, skipBlanks s' = ',' :: r ∧ readItems d depth fuel (skipBlanks r) = .ok (ys, rest) ∧
          xs = x :: ys) := by
  rw [readItems]
  cases hread : readValue d depth fuel s with
  | error e => simp [bind, Except.bind]
  | ok p =>
    obtain ⟨x, s'⟩ := p
    simp only [bind, Except.bind, Except.ok.injEq, Prod.mk.injEq]
    constructor
    · intro h
      refine ⟨x, s', ⟨rfl, rfl⟩, ?_⟩
      split at h
      · next hskip =>
        cases h
        exact .inl ⟨hskip, rfl⟩
      · next r hskip =>
        split at h
        · cases h
        · next hmore =>
          cases h
          exact .inr ⟨r, _, hskip, hmore, rfl⟩
      · cases h
    · rintro ⟨_, _, ⟨rfl, rfl⟩, ⟨hskip, rfl⟩ | ⟨r, ys, hskip, hmore, rfl⟩⟩
      · simp only [hskip]
      · simp only [hskip, hmore]

/-- **What members are read as**: a name, a colon and a value, and the end of the object or a comma and more
members. -/
theorem readMembers_eq_ok_iff : readMembers d depth (fuel + 1) ('"' :: r) = .ok (ms, rest) ↔
    ∃ k s x s', readString d.rawControls ('"' :: r) r = .ok (k, s) ∧
      (∃ s₁, skipBlanks s = ':' :: s₁ ∧ readValue d depth fuel (skipBlanks s₁) = .ok (x, s')) ∧
      ((skipBlanks s' = '}' :: rest ∧ ms = [(String.ofList k, x)]) ∨
        ∃ r ns, skipBlanks s' = ',' :: r ∧ readMembers d depth fuel (skipBlanks r) = .ok (ns, rest) ∧
          ms = (String.ofList k, x) :: ns) := by
  rw [readMembers]
  cases hname : readString d.rawControls ('"' :: r) r with
  | error e => simp [bind, Except.bind]
  | ok p =>
    obtain ⟨k, s⟩ := p
    simp only [bind, Except.bind, Except.ok.injEq, Prod.mk.injEq]
    constructor
    · intro h
      split at h
      · next s₁ hcolon =>
        split at h
        · cases h
        · next p hread =>
          obtain ⟨x, s'⟩ := p
          refine ⟨k, s, x, s', ⟨rfl, rfl⟩, ⟨s₁, hcolon, hread⟩, ?_⟩
          dsimp only at h
          split at h
          · next hskip =>
            cases h
            exact .inl ⟨hskip, rfl⟩
          · next r hskip =>
            split at h
            · cases h
            · next hmore =>
              cases h
              exact .inr ⟨r, _, hskip, hmore, rfl⟩
          · cases h
      · cases h
    · rintro ⟨_, _, x, s', ⟨rfl, rfl⟩, ⟨s₁, hcolon, hread⟩, hend⟩
      rcases hend with ⟨hskip, rfl⟩ | ⟨r, ns, hskip, hmore, rfl⟩
      · simp only [hcolon, hread, hskip]
      · simp only [hcolon, hread, hskip, hmore]

end

/-! ## Reading -/

/-- What may come after a value: nothing, a comma, or the end of an array or an object. -/
def EndsValue (rest : List Char) : Prop := ∀ c ∈ rest.head?, c = ',' ∨ c = ']' ∨ c = '}'

theorem endsValue_cons {c : Char} (h : c = ',' ∨ c = ']' ∨ c = '}') (r : List Char) : EndsValue (c :: r) := by
  intro d hd
  cases hd
  exact h

theorem EndsValue.endsScalar (h : EndsValue rest) : EndsScalar rest := by
  intro c hc
  rcases h c hc with rfl | rfl | rfl <;> rfl

theorem EndsValue.skipBlanks (h : EndsValue rest) : skipBlanks rest = rest := by
  cases rest with
  | nil => rfl
  | cons c r =>
    refine skipBlanks_cons ?_ r
    rcases h c rfl with rfl | rfl | rfl <;> rfl

/-- A character of a scalar ends no value, and is not skipped. -/
theorem not_endsValue_of_isScalarChar {c : Char} (hc : isScalarChar c = true) (r : List Char) :
    ¬ EndsValue (EditorServices.skipBlanks (c :: r)) := by
  rw [skipBlanks_cons (isJsonBlank_of_isScalarChar hc)]
  intro h
  rcases h c rfl with rfl | rfl | rfl <;> cases hc

/-- What is neither in quotes nor in brackets is read as a word or a number. -/
theorem readValue_eq_ok_iff_readScalar {fuel : Nat} {c : Char} (hc : isScalarChar c = true) :
    readValue (.strict digits maxDepth) depth (fuel + 1) (c :: r) = .ok (v, s) ↔
      readScalar digits (c :: r) = some (.ok v, s) := by
  rw [readValue]
  · unfold readScalar
    cases readWord (c :: r) with
    | some p => simp [Prod.ext_iff]
    | none =>
      show _ ↔ readNumber digits (c :: r) = some (.ok v, s)
      have hnumber : (Dialect.strict digits maxDepth).number = readNumber digits := rfl
      rw [hnumber]
      cases readNumber digits (c :: r) with
      | none => simp
      | some p =>
        obtain ⟨value, s'⟩ := p
        cases value <;> simp
  -- it is none of the characters that strings, arrays and objects start with
  · exact fun r' heq => ne_of_isScalarChar hc rfl (List.cons.inj heq).1
  · exact fun r' heq => ne_of_isScalarChar hc rfl (List.cons.inj heq).1
  · exact fun r' heq => ne_of_isScalarChar hc rfl (List.cons.inj heq).1

/-- **A word or a number is read as a whole**, if the reading is to go on. -/
theorem readValue_scalar_iff {fuel : Nat} (hs : scalarText s = some s) (hrest : EndsValue rest) :
    readValue (.strict digits maxDepth) depth (fuel + 1) (s ++ rest) = .ok (v, r) ∧ EndsValue (skipBlanks r) ↔
      scalarValue? digits s = some v ∧ r = rest := by
  have hchars := isScalarChar_of_mem_scalarText hs
  obtain ⟨c, s, rfl⟩ := List.exists_cons_of_ne_nil (scalarText_ne_nil hs)
  have happend := readScalar_append hrest.endsScalar digits (c :: s)
  rw [List.cons_append] at happend ⊢
  rw [readValue_eq_ok_iff_readScalar (hchars c List.mem_cons_self), happend, scalarValue?]
  cases hread : readScalar digits (c :: s) with
  | none => simp
  | some p =>
    obtain ⟨value, left⟩ := p
    simp only [Option.map_some, before, Option.some.injEq, Prod.mk.injEq]
    cases left with
    | nil =>
      constructor
      · rintro ⟨⟨rfl, rfl⟩, -⟩
        exact ⟨rfl, rfl⟩
      · rintro ⟨hv, rfl⟩
        cases value with
        | error e => cases hv
        | ok x =>
          cases hv
          refine ⟨⟨rfl, rfl⟩, ?_⟩
          rw [hrest.skipBlanks]
          exact hrest
    | cons x left =>
      -- the rest of the scalar would be left
      have hx := hchars x ((suffix_of_readScalar hread).mem List.mem_cons_self)
      constructor
      · rintro ⟨⟨-, rfl⟩, hends⟩
        exact absurd hends (not_endsValue_of_isScalarChar hx _)
      · rintro ⟨hv, -⟩
        split at hv
        · next heq => cases heq
        · cases hv

/-- A tree is read as its value, and as nothing else if the reading is to go on. -/
def ReadAs (digits maxDepth : Option Nat) (t : Tree) : Prop :=
  ∀ depth fuel rest v r, (∀ n ∈ depth, t.depth ≤ n) → t.written.length ≤ fuel → EndsValue rest →
    (readValue (.strict digits maxDepth) depth fuel (t.written ++ rest) = .ok (v, r) ∧ EndsValue (skipBlanks r) ↔
      t.value? digits decode? = some v ∧ r = rest)

/-- An item is read, whatever comes after it. -/
theorem readItems_item_iff {fuel : Nat} {xs : List Json} (hread : ReadAs digits maxDepth t)
    (hdepth : ∀ n ∈ depth, t.depth ≤ n) (hfuel : t.written.length ≤ fuel) (hs : EndsValue s) :
    readItems (.strict digits maxDepth) depth (fuel + 1) (t.written ++ s) = .ok (xs, rest) ↔
      ∃ x, t.value? digits decode? = some x ∧ ((s = ']' :: rest ∧ xs = [x]) ∨
        ∃ r ys, s = ',' :: r ∧ readItems (.strict digits maxDepth) depth fuel (skipBlanks r) = .ok (ys, rest) ∧
          xs = x :: ys) := by
  have hvalue := fun x s' => hread depth fuel s x s' hdepth hfuel hs
  rw [readItems_eq_ok_iff]
  constructor
  · rintro ⟨x, s', hx, hend⟩
    have hends : EndsValue (skipBlanks s') := by
      rcases hend with ⟨hskip, -⟩ | ⟨r, ys, hskip, -, -⟩
      · exact hskip ▸ endsValue_cons (.inr (.inl rfl)) rest
      · exact hskip ▸ endsValue_cons (.inl rfl) r
    obtain ⟨hv, rfl⟩ := (hvalue x s').mp ⟨hx, hends⟩
    rw [hs.skipBlanks] at hend
    exact ⟨x, hv, hend⟩
  · rintro ⟨x, hx, hend⟩
    refine ⟨x, s, ((hvalue x s).mpr ⟨hx, rfl⟩).1, ?_⟩
    rw [hs.skipBlanks]
    exact hend

/-- Items are read as their values, up to the closing bracket. -/
theorem readItems_iff {fuel : Nat} {vs : List Json} (hreads : ∀ u ∈ t :: ts, ReadAs digits maxDepth u)
    (hformed : ∀ u ∈ t :: ts, u.Formed) (hdepth : ∀ n ∈ depth, Tree.itemsDepth (t :: ts) ≤ n)
    (hfuel : (Tree.itemsWritten t ts).length ≤ fuel) :
    readItems (.strict digits maxDepth) depth fuel (Tree.itemsWritten t ts ++ rest) = .ok (vs, r) ↔
      Tree.itemValues? digits decode? (t :: ts) = some vs ∧ r = rest := by
  induction ts generalizing t fuel vs with
  | nil =>
    rw [Tree.itemsWritten, List.length_append, List.length_singleton] at hfuel
    obtain ⟨f, rfl⟩ : ∃ f, fuel = f + 1 := ⟨fuel - 1, by omega⟩
    rw [Tree.itemsWritten, List.append_assoc, List.singleton_append,
      readItems_item_iff (hreads t List.mem_cons_self) (fun n hn => Nat.le_trans (Nat.le_max_left _ _) (hdepth n hn))
        (by omega) (endsValue_cons (.inr (.inl rfl)) rest), Tree.itemValues?]
    cases t.value? digits decode? with
    | none => simp
    | some x => simp [Tree.itemValues?, eq_comm, and_comm]
  | cons u us ih =>
    rw [Tree.itemsWritten, List.length_append, List.length_cons] at hfuel
    obtain ⟨f, rfl⟩ : ∃ f, fuel = f + 1 := ⟨fuel - 1, by omega⟩
    have hmore := fun vs => @ih u f vs (fun w hw => hreads w (List.mem_cons_of_mem t hw))
      (fun w hw => hformed w (List.mem_cons_of_mem t hw))
      (fun n hn => Nat.le_trans (Nat.le_max_right _ _) (hdepth n hn)) (show _ ≤ f by omega)
    have hskip := ((hformed u (List.mem_cons_of_mem t List.mem_cons_self)).startsWithout_items us rest).skipBlanks
    rw [Tree.itemsWritten, List.append_assoc, List.cons_append,
      readItems_item_iff (hreads t List.mem_cons_self) (fun n hn => Nat.le_trans (Nat.le_max_left _ _) (hdepth n hn))
        (by omega) (endsValue_cons (.inl rfl) _), Tree.itemValues?]
    constructor
    · rintro ⟨x, hx, ⟨heq, -⟩ | ⟨q, ys, heq, hys, rfl⟩⟩
      · cases heq
      · cases heq
        rw [hskip] at hys
        obtain ⟨hvalues, rfl⟩ := (hmore ys).mp hys
        rw [hx, hvalues]
        exact ⟨rfl, rfl⟩
    · rintro ⟨hvs, rfl⟩
      obtain ⟨x, hx, hvs⟩ := Option.bind_eq_some_iff.mp hvs
      obtain ⟨ys, hys, rfl⟩ := Option.map_eq_some_iff.mp hvs
      refine ⟨x, hx, .inr ⟨_, ys, rfl, ?_, rfl⟩⟩
      rw [hskip]
      exact (hmore ys).mpr ⟨hys, rfl⟩

/-- A member is read, whatever comes after it. -/
theorem readMembers_member_iff {fuel : Nat} {ms : List (String × Json)} (hread : ReadAs digits maxDepth p.2)
    (hformed : p.2.Formed) (hname : ∃ body, Enclosed body ∧ p.1 = '"' :: (body ++ ['"']))
    (hdepth : ∀ n ∈ depth, p.2.depth ≤ n) (hfuel : p.2.written.length ≤ fuel) (hs : EndsValue s) :
    readMembers (.strict digits maxDepth) depth (fuel + 1) (Tree.memberWritten p s) = .ok (ms, rest) ↔
      ∃ k x, literal? decode? p.1 = some k ∧ p.2.value? digits decode? = some x ∧
        ((s = '}' :: rest ∧ ms = [(k, x)]) ∨
          ∃ r ns, s = ',' :: r ∧ readMembers (.strict digits maxDepth) depth fuel (skipBlanks r) = .ok (ns, rest) ∧
            ms = (k, x) :: ns) := by
  obtain ⟨name, t⟩ := p
  obtain ⟨body, hbody, hname⟩ := hname
  dsimp only at *
  subst hname
  have hvalue := fun x s' => hread depth fuel s x s' hdepth hfuel hs
  have hskip := (hformed.startsWithout s).skipBlanks
  have hmember : Tree.memberWritten ('"' :: (body ++ ['"']), t) s =
      '"' :: (body ++ '"' :: ':' :: (t.written ++ s)) := by
    simp [Tree.memberWritten]
  have hstring : (Dialect.strict digits maxDepth).rawControls = false := rfl
  rw [hmember, readMembers_eq_ok_iff, literal?_quoted, hstring]
  constructor
  · rintro ⟨k, s₁, x, s', hk, ⟨s₂, hcolon, hx⟩, hend⟩
    obtain ⟨hbetween, rfl⟩ := (readString_enclosed_iff hbody).mp hk
    rw [skipBlanks_cons rfl] at hcolon
    rw [← (List.cons.inj hcolon).2, hskip] at hx
    have hends : EndsValue (skipBlanks s') := by
      rcases hend with ⟨hskip, -⟩ | ⟨r, ys, hskip, -, -⟩
      · exact hskip ▸ endsValue_cons (.inr (.inr rfl)) rest
      · exact hskip ▸ endsValue_cons (.inl rfl) r
    obtain ⟨hv, rfl⟩ := (hvalue x s').mp ⟨hx, hends⟩
    rw [hs.skipBlanks] at hend
    rw [hbetween]
    exact ⟨_, x, rfl, hv, hend⟩
  · rintro ⟨k, x, hk, hx, hend⟩
    obtain ⟨cs, hcs, rfl⟩ := Option.map_eq_some_iff.mp hk
    refine ⟨cs, _, x, s, (readString_enclosed_iff hbody).mpr ⟨hcs, rfl⟩, ⟨_, skipBlanks_cons rfl _, ?_⟩, ?_⟩
    · rw [hskip]
      exact ((hvalue x s).mpr ⟨hx, rfl⟩).1
    · rw [hs.skipBlanks]
      exact hend

/-- Members are read as their names and values, up to the closing brace. -/
theorem readMembers_iff {fuel : Nat} {ms : List (String × Json)} (hreads : ∀ q ∈ p :: ps, ReadAs digits maxDepth q.2)
    (hformed : (Tree.object (p :: ps)).Formed) (hdepth : ∀ n ∈ depth, Tree.membersDepth (p :: ps) ≤ n)
    (hfuel : (Tree.membersWritten p ps).length ≤ fuel) :
    readMembers (.strict digits maxDepth) depth fuel (Tree.membersWritten p ps ++ rest) = .ok (ms, r) ↔
      Tree.memberValues? digits decode? (p :: ps) = some ms ∧ r = rest := by
  induction ps generalizing p fuel ms with
  | nil =>
    have hp : p ∈ [p] := List.mem_cons_self
    rw [Tree.membersWritten, Tree.length_memberWritten, List.length_singleton] at hfuel
    obtain ⟨f, rfl⟩ : ∃ f, fuel = f + 1 := ⟨fuel - 1, by omega⟩
    rw [Tree.membersWritten, Tree.memberWritten_append, List.singleton_append,
      readMembers_member_iff (hreads p hp) (hformed.member hp) (hformed.name hp)
        (fun n hn => Nat.le_trans (Nat.le_max_left _ _) (hdepth n hn)) (by omega)
        (endsValue_cons (.inr (.inr rfl)) rest), Tree.memberValues?]
    cases literal? decode? p.1 with
    | none => simp
    | some k =>
      cases p.2.value? digits decode? with
      | none => simp
      | some x => simp [Tree.memberValues?, eq_comm, and_comm]
  | cons q qs ih =>
    have hp : p ∈ p :: q :: qs := List.mem_cons_self
    rw [Tree.membersWritten, Tree.length_memberWritten, List.length_cons] at hfuel
    obtain ⟨f, rfl⟩ : ∃ f, fuel = f + 1 := ⟨fuel - 1, by omega⟩
    have hmore := fun ms => @ih q f ms (fun w hw => hreads w (List.mem_cons_of_mem p hw)) hformed.tail
      (fun n hn => Nat.le_trans (Nat.le_max_right _ _) (hdepth n hn)) (show _ ≤ f by omega)
    have hskip := (hformed.tail.startsWithout_members rest).skipBlanks
    rw [Tree.membersWritten, Tree.memberWritten_append, List.cons_append,
      readMembers_member_iff (hreads p hp) (hformed.member hp) (hformed.name hp)
        (fun n hn => Nat.le_trans (Nat.le_max_left _ _) (hdepth n hn)) (by omega)
        (endsValue_cons (.inl rfl) _), Tree.memberValues?]
    constructor
    · rintro ⟨k, x, hk, hx, ⟨heq, -⟩ | ⟨s, ns, heq, hns, rfl⟩⟩
      · cases heq
      · cases heq
        rw [hskip] at hns
        obtain ⟨hvalues, rfl⟩ := (hmore ns).mp hns
        rw [hk, hx, hvalues]
        exact ⟨rfl, rfl⟩
    · rintro ⟨hms, rfl⟩
      obtain ⟨k, hk, hms⟩ := Option.bind_eq_some_iff.mp hms
      obtain ⟨x, hx, hms⟩ := Option.bind_eq_some_iff.mp hms
      obtain ⟨ns, hns, rfl⟩ := Option.map_eq_some_iff.mp hms
      refine ⟨k, x, hk, hx, .inr ⟨_, ns, rfl, ?_, rfl⟩⟩
      rw [hskip]
      exact (hmore ns).mpr ⟨hns, rfl⟩

/-- A string is read as what is between its quotes. -/
theorem readValue_text_iff {fuel : Nat} {body : List Char} (hbody : Enclosed body) :
    readValue (.strict digits maxDepth) depth (fuel + 1) ('"' :: (body ++ '"' :: rest)) = .ok (v, r) ↔
      (Tree.text ('"' :: (body ++ ['"']))).value? digits decode? = some v ∧ r = rest := by
  have hstring : (Dialect.strict digits maxDepth).rawControls = false := rfl
  rw [Tree.value?, literal?_quoted, readValue, hstring]
  have hread (cs s : List Char) :
      readString false ('"' :: (body ++ '"' :: rest)) (body ++ '"' :: rest) = .ok (cs, s) ↔
        decode? body = some cs ∧ s = rest := readString_enclosed_iff hbody
  constructor
  · intro h
    cases hcs : readString false ('"' :: (body ++ '"' :: rest)) (body ++ '"' :: rest) with
    | error fault =>
      rw [hcs] at h
      cases h
    | ok p =>
      obtain ⟨hbetween, hp⟩ := (hread p.1 p.2).mp hcs
      rw [hcs] at h
      cases h
      rw [hbetween]
      exact ⟨rfl, hp⟩
  · rintro ⟨hv, rfl⟩
    obtain ⟨_, hbetween, rfl⟩ := Option.map_eq_some_iff.mp hv
    obtain ⟨cs, hcs, rfl⟩ := Option.map_eq_some_iff.mp hbetween
    rw [(hread cs r).mpr ⟨hcs, rfl⟩]
    rfl

theorem readValue_array_nil (room : depth ≠ some 0) (d : Dialect) (fuel : Nat) (rest : List Char) :
    readValue d depth (fuel + 1) ('[' :: ']' :: rest) = .ok (.arr [], rest) := by
  rw [readValue, if_neg room, skipBlanks_cons rfl]
  rfl

theorem readValue_object_nil (room : depth ≠ some 0) (d : Dialect) (fuel : Nat) (rest : List Char) :
    readValue d depth (fuel + 1) ('{' :: '}' :: rest) = .ok (.obj [], rest) := by
  rw [readValue, if_neg room, skipBlanks_cons rfl]
  rfl

theorem map_eq_ok_iff {α : Type} {x : Except ReadError (α × List Char)} {f : α → Json} :
    (x.map fun (a, rest) => (f a, rest)) = .ok (v, r) ↔ ∃ a, x = .ok (a, r) ∧ f a = v := by
  cases x with
  | error fault => simp [Except.map]
  | ok p =>
    obtain ⟨a, rest⟩ := p
    simp [Except.map, and_comm]

/-- A reader with room for an array or an object has room for what is inside of it. -/
theorem room_of_depth {m k : Nat} (hk : 0 < k) (hdepth : ∀ n ∈ depth, k + m ≤ n) :
    depth ≠ some 0 ∧ ∀ n ∈ depth.map (· - 1), m ≤ n := by
  constructor
  · rintro rfl
    have hle := hdepth 0 rfl
    omega
  · intro n hn
    obtain ⟨j, hj, rfl⟩ := Option.map_eq_some_iff.mp hn
    have hle := hdepth j hj
    omega

theorem exists_and_right_comm {α : Type} {A B : α → Prop} {C : Prop} :
    (∃ a, (A a ∧ C) ∧ B a) ↔ (∃ a, A a ∧ B a) ∧ C := by
  constructor
  · rintro ⟨a, ⟨hA, hC⟩, hB⟩
    exact ⟨⟨a, hA, hB⟩, hC⟩
  · rintro ⟨⟨a, hA, hB⟩, hC⟩
    exact ⟨a, ⟨hA, hC⟩, hB⟩

/-- What leaves just what may come after a value ends it. -/
theorem and_endsValue_iff {A B : Prop} (hrest : EndsValue rest) (h : A ↔ B ∧ r = rest) :
    A ∧ EndsValue (skipBlanks r) ↔ B ∧ r = rest := by
  rw [h, and_iff_left_iff_imp]
  rintro ⟨-, rfl⟩
  rw [hrest.skipBlanks]
  exact hrest

/-- **A tree is read as its value, and as nothing else.** -/
theorem readAs (h : t.Formed) : ReadAs digits maxDepth t := by
  induction t using Tree.induct with
  | text l =>
    intro depth fuel rest v r _ hfuel hrest
    obtain ⟨body, hbody, rfl⟩ := h (.text l) List.mem_cons_self
    obtain ⟨f, rfl⟩ : ∃ f, fuel = f + 1 := Nat.exists_eq_succ_of_ne_zero (Nat.ne_zero_of_lt hfuel)
    have hwritten : (Tree.text ('"' :: (body ++ ['"']))).written ++ rest = '"' :: (body ++ '"' :: rest) := by
      simp [Tree.written, Tree.tokens, Token.written]
    rw [hwritten]
    exact and_endsValue_iff hrest (readValue_text_iff hbody)
  | scalar s =>
    intro depth fuel rest v r _ hfuel hrest
    have hs : scalarText s = some s := h (.scalar s) List.mem_cons_self
    have hwritten : (Tree.scalar s).written = s := List.append_nil s
    rw [hwritten] at hfuel ⊢
    have hpos := List.length_pos_iff.mpr (scalarText_ne_nil hs)
    obtain ⟨f, rfl⟩ : ∃ f, fuel = f + 1 := ⟨fuel - 1, by omega⟩
    exact readValue_scalar_iff hs hrest
  | array items ih =>
    intro depth fuel rest v r hdepth hfuel hrest
    obtain ⟨room, hroom⟩ := room_of_depth Nat.one_pos hdepth
    refine and_endsValue_iff hrest ?_
    cases items with
    | nil =>
      obtain ⟨f, rfl⟩ : ∃ f, fuel = f + 1 := Nat.exists_eq_succ_of_ne_zero (Nat.ne_zero_of_lt hfuel)
      show readValue _ _ (f + 1) ('[' :: ']' :: rest) = _ ↔ some (Json.arr []) = some v ∧ r = rest
      rw [readValue_array_nil room]
      simp [eq_comm]
    | cons t ts =>
      rw [Tree.written_array, List.length_cons] at hfuel
      obtain ⟨f, rfl⟩ : ∃ f, fuel = f + 1 := ⟨fuel - 1, by omega⟩
      have hstart := (h.item List.mem_cons_self).startsWithout_items ts rest
      rw [Tree.written_array, List.cons_append, readValue_items room hstart, map_eq_ok_iff, Tree.value?]
      simp only [readItems_iff (fun u hu => ih u hu (h.item hu)) (fun u hu => h.item hu) hroom
        (show _ ≤ f by omega), Option.map_eq_some_iff]
      exact exists_and_right_comm
  | object members ih =>
    intro depth fuel rest v r hdepth hfuel hrest
    obtain ⟨room, hroom⟩ := room_of_depth Nat.two_pos hdepth
    refine and_endsValue_iff hrest ?_
    cases members with
    | nil =>
      obtain ⟨f, rfl⟩ : ∃ f, fuel = f + 1 := Nat.exists_eq_succ_of_ne_zero (Nat.ne_zero_of_lt hfuel)
      show readValue _ _ (f + 1) ('{' :: '}' :: rest) = _ ↔ some (Json.obj []) = some v ∧ r = rest
      rw [readValue_object_nil room]
      simp [eq_comm]
    | cons p ps =>
      rw [Tree.written_object, List.length_cons] at hfuel
      obtain ⟨f, rfl⟩ : ∃ f, fuel = f + 1 := ⟨fuel - 1, by omega⟩
      have hstart := h.startsWithout_members rest
      rw [Tree.written_object, List.cons_append, readValue_members room hstart,
        map_eq_ok_iff (f := fun ms => .obj (Named.ofPairs ms)), Tree.value?]
      simp only [readMembers_iff (fun q hq => ih q hq (h.member hq)) h hroom (show _ ≤ f by omega),
        Option.map_eq_some_iff]
      exact exists_and_right_comm

end EditorServices.Commented
