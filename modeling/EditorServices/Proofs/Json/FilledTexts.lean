import EditorServices.Proofs.Json.CommentedValues
import EditorServices.Proofs.Json.FilledStrings

/-!
# `Proofs.Json.FilledTexts` — values of variables in commented texts

If all references of a text lie inside of its strings, then putting in values changes the strings and nothing else:
what is between them is kept, and so is the tree that the text is written as. When strings of a tree are written or
read in another way, it has the same tokens apart from strings, the same depth, and a value of the same outline as
long as the names are the same.

## Contents
- **Outlines.** `Json.outline`, what is left without strings.
- **Other texts.** `Tree.mapText`, its tokens, its depth and its value.
- **Other readings.** `rereads`, there is a value, of the same outline, if all strings can be read.
- **Places.** `InString`, a reference inside of a string.
- **Layouts.** `CutsInto.filled`: the tokens of a text with values put in.
- **Trees.** `Writes.filled`: the tree of a text with values put in.
-/

namespace EditorServices

/-! ## Outlines -/

mutual

/-- A value without its strings, apart from the names of members. -/
def Json.outline : Json → Json
  | .str _ => .str ""
  | .arr xs => .arr (itemOutlines xs)
  | .obj ms => .obj (memberOutlines ms)
  | v => v

def Json.itemOutlines : List Json → List Json
  | [] => []
  | x :: xs => x.outline :: itemOutlines xs

def Json.memberOutlines : List (String × Json) → List (String × Json)
  | [] => []
  | (k, x) :: ms => (k, x.outline) :: memberOutlines ms

end

theorem memberOutlines_eq (ms : List (String × Json)) :
    Json.memberOutlines ms = ms.map fun p => (p.1, p.2.outline) := by
  induction ms with
  | nil => rfl
  | cons p ms ih => rw [Json.memberOutlines, ih, List.map_cons]

/-- Of two members of one name the later one counts, whatever becomes of the values. -/
theorem map_ofPairs {α β : Type} (f : α → β) (pairs : List (String × α)) :
    (Named.ofPairs pairs).map (fun p => (p.1, f p.2)) = Named.ofPairs (pairs.map fun p => (p.1, f p.2)) := by
  have hput : ∀ (ms : Named α) name v, (ms.put name v).map (fun p => (p.1, f p.2)) =
      Named.put (ms.map fun p => (p.1, f p.2)) name (f v) := by
    intro ms name v
    induction ms with
    | nil => rfl
    | cons p ms ih =>
      rw [Named.put, List.map_cons, Named.put]
      split
      · rfl
      · rw [List.map_cons, ih]
  have hall : ∀ base : Named α, (Named.overlay base pairs).map (fun p => (p.1, f p.2)) =
      Named.overlay (base.map fun p => (p.1, f p.2)) (pairs.map fun p => (p.1, f p.2)) := by
    unfold Named.overlay
    induction pairs with
    | nil => exact fun base => rfl
    | cons p pairs ih =>
      intro base
      rw [List.foldl_cons, List.map_cons, List.foldl_cons, ih, hput]
  exact hall []

namespace Commented

variable {f : List Char → List Char} {between between' : List Char → Option (List Char)} {digits : Option Nat}
  {t : Tree} {v v' : Json} {ts us : List Token}

/-! ## Other texts -/

/-- A token in which a string is written in another way. -/
def Token.mapText (f : List Char → List Char) : Token → Token
  | .text l => .text (f l)
  | t => t

namespace Tree

mutual

/-- A tree in which strings are written in another way. -/
def mapText (f : List Char → List Char) : Tree → Tree
  | .text l => .text (f l)
  | .scalar s => .scalar s
  | .array items => .array (mapItems f items)
  | .object members => .object (mapMembers f members)

def mapItems (f : List Char → List Char) : List Tree → List Tree
  | [] => []
  | t :: ts => t.mapText f :: mapItems f ts

def mapMembers (f : List Char → List Char) : List (List Char × Tree) → List (List Char × Tree)
  | [] => []
  | (name, t) :: ms => (f name, t.mapText f) :: mapMembers f ms

end

mutual

/-- The names in a tree, at all depths. -/
def names : Tree → List (List Char)
  | .text _ => []
  | .scalar _ => []
  | .array items => itemNames items
  | .object members => memberNames members

def itemNames : List Tree → List (List Char)
  | [] => []
  | t :: ts => t.names ++ itemNames ts

def memberNames : List (List Char × Tree) → List (List Char)
  | [] => []
  | (name, t) :: ms => name :: (t.names ++ memberNames ms)

end

/-- The names of a tree are among its tokens. -/
theorem text_mem_tokens {name : List Char} (h : name ∈ t.names) : .text name ∈ t.tokens := by
  induction t using Tree.induct with
  | text l => cases h
  | scalar s => cases h
  | array items ih =>
    have hitem : ∃ u ∈ items, name ∈ u.names := by
      have hnames : name ∈ itemNames items := h
      clear ih h
      induction items with
      | nil => cases hnames
      | cons u us ihs =>
        rcases List.mem_append.mp hnames with hmem | hmem
        · exact ⟨u, List.mem_cons_self, hmem⟩
        · obtain ⟨w, hw, hmem⟩ := ihs hmem
          exact ⟨w, List.mem_cons_of_mem u hw, hmem⟩
    obtain ⟨u, hu, hmem⟩ := hitem
    exact mem_tokens_array hu (ih u hu hmem)
  | object members ih =>
    have hmember : ∃ p ∈ members, name = p.1 ∨ name ∈ p.2.names := by
      have hnames : name ∈ memberNames members := h
      clear ih h
      induction members with
      | nil => cases hnames
      | cons p ps ihs =>
        rcases List.mem_cons.mp hnames with hmem | hmem
        · exact ⟨p, List.mem_cons_self, .inl hmem⟩
        · rcases List.mem_append.mp hmem with hmem | hmem
          · exact ⟨p, List.mem_cons_self, .inr hmem⟩
          · obtain ⟨q, hq, hmem⟩ := ihs hmem
            exact ⟨q, List.mem_cons_of_mem p hq, hmem⟩
    obtain ⟨p, hp, rfl | hmem⟩ := hmember
    · exact mem_tokens_object hp (.inl rfl)
    · exact mem_tokens_object hp (.inr (ih p hp hmem))

theorem map_joined (rows : List (List Token)) :
    (joined rows).map (Token.mapText f) = joined (rows.map (List.map (Token.mapText f))) := by
  have hfurther : ∀ rows : List (List Token),
      (further rows).map (Token.mapText f) = further (rows.map (List.map (Token.mapText f))) := by
    intro rows
    induction rows with
    | nil => rfl
    | cons row rows ih =>
      rw [further, List.map_cons, List.map_append, ih]
      rfl
  cases rows with
  | nil => rfl
  | cons row rows =>
    rw [joined, List.map_append, hfurther]
    rfl

mutual

/-- The tokens are the same apart from strings. -/
theorem tokens_mapText : ∀ t : Tree, (t.mapText f).tokens = t.tokens.map (Token.mapText f)
  | .text _ => rfl
  | .scalar _ => rfl
  | .array items => by
    rw [mapText, tokens, itemRows_mapItems items, ← map_joined, tokens, List.map_cons, List.map_append]
    rfl
  | .object members => by
    rw [mapText, tokens, memberRows_mapMembers members, ← map_joined, tokens, List.map_cons, List.map_append]
    rfl

theorem itemRows_mapItems : ∀ items : List Tree,
    itemRows (mapItems f items) = (itemRows items).map (List.map (Token.mapText f))
  | [] => rfl
  | t :: ts => by
    rw [mapItems, itemRows, tokens_mapText t, itemRows_mapItems ts]
    rfl

theorem memberRows_mapMembers : ∀ members : List (List Char × Tree),
    memberRows (mapMembers f members) = (memberRows members).map (List.map (Token.mapText f))
  | [] => rfl
  | (name, t) :: ms => by
    rw [mapMembers, memberRows, tokens_mapText t, memberRows_mapMembers ms]
    rfl

end

mutual

theorem depth_mapText : ∀ t : Tree, (t.mapText f).depth = t.depth
  | .text _ => rfl
  | .scalar _ => rfl
  | .array items => by rw [mapText, depth, itemsDepth_mapItems items, depth]
  | .object members => by rw [mapText, depth, membersDepth_mapMembers members, depth]

theorem itemsDepth_mapItems : ∀ items : List Tree, itemsDepth (mapItems f items) = itemsDepth items
  | [] => rfl
  | t :: ts => by rw [mapItems, itemsDepth, depth_mapText t, itemsDepth_mapItems ts, itemsDepth]

theorem membersDepth_mapMembers : ∀ members : List (List Char × Tree),
    membersDepth (mapMembers f members) = membersDepth members
  | [] => rfl
  | (name, t) :: ms => by rw [mapMembers, membersDepth, depth_mapText t, membersDepth_mapMembers ms, membersDepth]

end

/-- **Strings written in another way are read as strings that are read in another way.** -/
theorem value?_mapText (h : ∀ l, .text l ∈ t.tokens → literal? between (f l) = literal? between' l) :
    (t.mapText f).value? digits between = t.value? digits between' := by
  induction t using Tree.induct with
  | text l => rw [mapText, value?, value?, h l List.mem_cons_self]
  | scalar s => rfl
  | array items ih =>
    have hitems : itemValues? digits between (mapItems f items) = itemValues? digits between' items := by
      have hall := fun u hu => ih u hu fun l hl => h l (mem_tokens_array hu hl)
      clear ih h
      induction items with
      | nil => rfl
      | cons u us ihs =>
        rw [mapItems, itemValues?, itemValues?, hall u List.mem_cons_self,
          ihs fun w hw => hall w (List.mem_cons_of_mem u hw)]
    rw [mapText, value?, value?, hitems]
  | object members ih =>
    have hmembers : memberValues? digits between (mapMembers f members) = memberValues? digits between' members := by
      have hall := fun p hp => ih p hp fun l hl => h l (mem_tokens_object hp (.inr hl))
      have hnames := fun p hp => h (p : List Char × Tree).1 (mem_tokens_object hp (.inl rfl))
      clear ih h
      induction members with
      | nil => rfl
      | cons p ps ihs =>
        rw [mapMembers, memberValues?, memberValues?, hall p List.mem_cons_self, hnames p List.mem_cons_self,
          ihs (fun q hq => hall q (List.mem_cons_of_mem p hq)) fun q hq => hnames q (List.mem_cons_of_mem p hq)]
    rw [mapText, value?, value?, hmembers]

/-! ## Other readings -/

theorem value?_of_mem_items {items : List Tree} {vs : List Json} (h : itemValues? digits between items = some vs) :
    ∀ u ∈ items, ∃ x, u.value? digits between = some x := by
  induction items generalizing vs with
  | nil => exact nofun
  | cons u us ih =>
    obtain ⟨x, hx, h⟩ := Option.bind_eq_some_iff.mp h
    obtain ⟨xs, hxs, -⟩ := Option.map_eq_some_iff.mp h
    exact List.forall_mem_cons.mpr ⟨⟨x, hx⟩, ih hxs⟩

theorem value?_of_mem_members {members : List (List Char × Tree)} {ms : List (String × Json)}
    (h : memberValues? digits between members = some ms) :
    ∀ p ∈ members, (∃ k, literal? between p.1 = some k) ∧ ∃ x, p.2.value? digits between = some x := by
  induction members generalizing ms with
  | nil => exact nofun
  | cons p ps ih =>
    obtain ⟨k, hk, h⟩ := Option.bind_eq_some_iff.mp h
    obtain ⟨x, hx, h⟩ := Option.bind_eq_some_iff.mp h
    obtain ⟨ns, hns, -⟩ := Option.map_eq_some_iff.mp h
    exact List.forall_mem_cons.mpr ⟨⟨⟨k, hk⟩, ⟨x, hx⟩⟩, ih hns⟩

/-- Of a tree that has a value all strings can be read. -/
theorem exists_literal? {l : List Char} (hv : t.value? digits between = some v) (hl : .text l ∈ t.tokens) :
    ∃ k, literal? between l = some k := by
  suffices hall : ∀ tok ∈ t.tokens, ∀ l, tok = .text l → ∃ k, literal? between l = some k from hall _ hl l rfl
  clear hl
  have hmarks : ∀ tok : Token, (∀ l, tok ≠ .text l) → (∀ s, tok ≠ .scalar s) →
      ∀ l, tok = .text l → ∃ k, literal? between l = some k := fun tok htext _ l hl => absurd hl (htext l)
  induction t using Tree.induct generalizing v with
  | text l =>
    intro tok htok l' hl'
    cases List.mem_singleton.mp htok
    cases hl'
    obtain ⟨k, hk, -⟩ := Option.map_eq_some_iff.mp hv
    exact ⟨k, hk⟩
  | scalar s =>
    intro tok htok l hl
    cases List.mem_singleton.mp htok
    cases hl
  | array items ih =>
    obtain ⟨vs, hvs, -⟩ := Option.map_eq_some_iff.mp hv
    refine forall_tokens_array hmarks fun u hu => ?_
    obtain ⟨x, hx⟩ := value?_of_mem_items hvs u hu
    exact ih u hu hx
  | object members ih =>
    obtain ⟨ms, hms, -⟩ := Option.map_eq_some_iff.mp hv
    refine forall_tokens_object hmarks fun p hp => ?_
    obtain ⟨⟨k, hk⟩, x, hx⟩ := value?_of_mem_members hms p hp
    refine ⟨fun l hl => ?_, ih p hp hx⟩
    cases hl
    exact ⟨k, hk⟩

/-- Two readings of strings agree on some names. -/
def Agree (between between' : List Char → Option (List Char)) (names : List (List Char)) : Prop :=
  ∀ name ∈ names, literal? between name = literal? between' name

/-- A tree that has a value in one reading has one in another, of the same outline if the names are the same. -/
def Rereads (digits : Option Nat) (between between' : List Char → Option (List Char)) (t : Tree) : Prop :=
  ∀ v, t.value? digits between = some v → ∃ v', t.value? digits between' = some v' ∧
    (Agree between between' t.names → v'.outline = v.outline)

theorem exists_itemValues? {items : List Tree} {vs : List Json}
    (h : ∀ u ∈ items, Rereads digits between between' u) (hvs : itemValues? digits between items = some vs) :
    ∃ vs', itemValues? digits between' items = some vs' ∧
      (Agree between between' (itemNames items) → Json.itemOutlines vs' = Json.itemOutlines vs) := by
  induction items generalizing vs with
  | nil =>
    cases hvs
    exact ⟨[], rfl, fun _ => rfl⟩
  | cons u us ih =>
    obtain ⟨x, hx, hvs⟩ := Option.bind_eq_some_iff.mp hvs
    obtain ⟨xs, hxs, rfl⟩ := Option.map_eq_some_iff.mp hvs
    obtain ⟨x', hx', houtline⟩ := h u List.mem_cons_self x hx
    obtain ⟨xs', hxs', houtlines⟩ := ih (fun w hw => h w (List.mem_cons_of_mem u hw)) hxs
    refine ⟨x' :: xs', by rw [itemValues?, hx', hxs']; rfl, fun hagree => ?_⟩
    have hfirst := houtline fun name hname => hagree name (List.mem_append_left _ hname)
    have hrest := houtlines fun name hname => hagree name (List.mem_append_right _ hname)
    rw [Json.itemOutlines, Json.itemOutlines, hfirst, hrest]

theorem exists_memberValues? {members : List (List Char × Tree)} {ms : List (String × Json)}
    (h : ∀ p ∈ members, Rereads digits between between' p.2)
    (hnames : ∀ p ∈ members, ∀ k, literal? between p.1 = some k → ∃ k', literal? between' p.1 = some k')
    (hms : memberValues? digits between members = some ms) :
    ∃ ms', memberValues? digits between' members = some ms' ∧
      (Agree between between' (memberNames members) → Json.memberOutlines ms' = Json.memberOutlines ms) := by
  induction members generalizing ms with
  | nil =>
    cases hms
    exact ⟨[], rfl, fun _ => rfl⟩
  | cons p ps ih =>
    obtain ⟨k, hk, hms⟩ := Option.bind_eq_some_iff.mp hms
    obtain ⟨x, hx, hms⟩ := Option.bind_eq_some_iff.mp hms
    obtain ⟨ns, hns, rfl⟩ := Option.map_eq_some_iff.mp hms
    obtain ⟨k', hk'⟩ := hnames p List.mem_cons_self k hk
    obtain ⟨x', hx', houtline⟩ := h p List.mem_cons_self x hx
    obtain ⟨ns', hns', houtlines⟩ := ih (fun q hq => h q (List.mem_cons_of_mem p hq))
      (fun q hq => hnames q (List.mem_cons_of_mem p hq)) hns
    refine ⟨(k', x') :: ns', by rw [memberValues?, hk', hx', hns']; rfl, fun hagree => ?_⟩
    have hname : k' = k := by
      have hsame := hagree p.1 List.mem_cons_self
      rw [hk, hk'] at hsame
      exact (Option.some.inj hsame).symm
    have hfirst := houtline fun name hname =>
      hagree name (List.mem_cons_of_mem _ (List.mem_append_left _ hname))
    have hrest := houtlines fun name hname =>
      hagree name (List.mem_cons_of_mem _ (List.mem_append_right _ hname))
    rw [Json.memberOutlines, Json.memberOutlines, hname, hfirst, hrest]

/-- **There is a value in another reading if there is one in this**, as far as the strings can be read. -/
theorem rereads (h : ∀ l k, .text l ∈ t.tokens → literal? between l = some k → ∃ k', literal? between' l = some k') :
    Rereads digits between between' t := by
  induction t using Tree.induct with
  | text l =>
    intro v hv
    obtain ⟨k, hk, rfl⟩ := Option.map_eq_some_iff.mp hv
    obtain ⟨k', hk'⟩ := h l k List.mem_cons_self hk
    exact ⟨.str k', by rw [value?, hk', Option.map_some], fun _ => rfl⟩
  | scalar s => exact fun v hv => ⟨v, hv, fun _ => rfl⟩
  | array items ih =>
    intro v hv
    obtain ⟨vs, hvs, rfl⟩ := Option.map_eq_some_iff.mp hv
    obtain ⟨vs', hvs', houtlines⟩ :=
      exists_itemValues? (fun u hu => ih u hu fun l k hl => h l k (mem_tokens_array hu hl)) hvs
    refine ⟨.arr vs', by rw [value?, hvs', Option.map_some], fun hagree => ?_⟩
    rw [Json.outline, Json.outline, houtlines hagree]
  | object members ih =>
    intro v hv
    obtain ⟨ms, hms, rfl⟩ := Option.map_eq_some_iff.mp hv
    obtain ⟨ms', hms', houtlines⟩ :=
      exists_memberValues? (fun p hp => ih p hp fun l k hl => h l k (mem_tokens_object hp (.inr hl)))
        (fun p hp k => h p.1 k (mem_tokens_object hp (.inl rfl))) hms
    refine ⟨.obj (Named.ofPairs ms'), by rw [value?, hms', Option.map_some], fun hagree => ?_⟩
    have hsame := houtlines hagree
    rw [memberOutlines_eq, memberOutlines_eq] at hsame
    rw [Json.outline, Json.outline, memberOutlines_eq, memberOutlines_eq, map_ofPairs, map_ofPairs, hsame]

/-- What is an object in one reading is one in any other. -/
theorem exists_object {ms : List (String × Json)} (hv : t.value? digits between = some (.obj ms))
    (hv' : t.value? digits between' = some v') : ∃ ms', v' = .obj ms' := by
  cases t with
  | text l =>
    obtain ⟨k, -, heq⟩ := Option.map_eq_some_iff.mp hv
    cases heq
  | scalar s =>
    cases hv.symm.trans hv'
    exact ⟨ms, rfl⟩
  | array items =>
    obtain ⟨vs, -, heq⟩ := Option.map_eq_some_iff.mp hv
    cases heq
  | object members =>
    obtain ⟨ms', -, heq⟩ := Option.map_eq_some_iff.mp hv'
    exact ⟨_, heq.symm⟩

end Tree

theorem Trailed.map (h : Trailed ts us) (f : List Char → List Char) :
    Trailed (ts.map (Token.mapText f)) (us.map (Token.mapText f)) := by
  induction h with
  | nil => exact .nil
  | keep t _ ih => exact .keep _ ih
  | comma kind _ ih =>
    have hcloser : Token.mapText f (closer kind) = closer kind := by cases kind <;> rfl
    rw [List.map_cons, List.map_cons, List.map_cons, hcloser]
    exact .comma kind ih

end Commented

end EditorServices

namespace EditorServices.Commented

open Environment (nextReference? Occurs Parts written substitute_of_none substitute_append)

variable {env : Environment} {s w x y before name after rest : List Char} {t : Tree} {tok : Token}
  {ts : List Token}

/-! ## Places -/

/-- A part of a text, with some text after it, lies inside of a string: it is a part of one of the tokens that the
text is cut into. -/
def InString (s w after : List Char) : Prop :=
  ∃ ts more l rest x y, Cut s ts more ∧ nextToken (skipIgnored false more) = some (.text l, rest) ∧
    l = x ++ (w ++ y) ∧ after = y ++ rest

/-- All references of a text lie inside of its strings. -/
def ReferencesInStrings (s : List Char) : Prop :=
  ∀ before name after, Occurs s before name after → InString s (written name) after

/-- The only reference of a text lies inside of a string if it is a part of one. -/
theorem referencesInStrings_of_one {u more : List Char} (next : nextReference? s = some (u, name, y ++ rest))
    (last : nextReference? (y ++ rest) = none) (cut : Cut s ts more)
    (token : nextToken (skipIgnored false more) = some (.text (x ++ (written name ++ y)), rest)) :
    ReferencesInStrings s := by
  intro before name' after h
  cases h with
  | first next' =>
    cases next.symm.trans next'
    exact ⟨ts, more, _, rest, x, y, cut, token, rfl, rfl⟩
  | later next' further =>
    cases next.symm.trans next'
    exact absurd last further.ne_none

theorem length_cut_le {last : List Char} (h : Cut s ts last) : last.length ≤ s.length := by
  induction h with
  | nil s => exact Nat.le_refl _
  | @cons s rest last t ts token _ ih =>
    have hrest := length_nextToken_lt token
    have hskipped := length_skipIgnored_le false s
    omega

/-- What lies inside of a string lies in the first token, or after it. -/
theorem InString.cases (h : InString s w after) (token : nextToken (skipIgnored false s) = some (tok, rest)) :
    (∃ l x y, tok = .text l ∧ l = x ++ (w ++ y) ∧ after = y ++ rest) ∨ InString rest w after := by
  obtain ⟨ts, more, l, rest', x, y, hcut, hnext, hl, hafter⟩ := h
  cases hcut with
  | nil _ =>
    cases token.symm.trans hnext
    exact .inl ⟨l, x, y, rfl, hl, hafter⟩
  | cons first cut =>
    cases token.symm.trans first
    exact .inr ⟨_, more, l, rest', x, y, cut, hnext, hl, hafter⟩

theorem InString.length_le (h : InString s w after) : w.length + after.length ≤ s.length := by
  obtain ⟨ts, more, l, rest, x, y, hcut, hnext, rfl, rfl⟩ := h
  obtain ⟨-, hl⟩ := formed_of_nextToken hnext (Token.endedBy_text _ _)
  have hcutle := length_cut_le hcut
  have hskipped := length_skipIgnored_le false more
  rw [hl] at hskipped
  simp only [Token.written, List.length_append] at hskipped ⊢
  omega

/-- Where nothing but blanks and comments is left, nothing lies inside of a string. -/
theorem not_inString (h : skipIgnored false s = []) : ¬ InString s w after := by
  rintro ⟨ts, more, l, rest, x, y, hcut, hnext, -, -⟩
  cases hcut with
  | nil _ =>
    rw [h] at hnext
    cases hnext
  | cons first _ =>
    rw [h] at first
    cases first

/-! ## Layouts -/

theorem length_written_pos (name : List Char) : 0 < (written name).length := by
  rw [written_eq]
  exact Nat.succ_pos _

/-- What is left of a text after a part without references. -/
theorem nextReference?_eq_none (h : ∀ before name after, ¬ Occurs s before name after) : nextReference? s = none := by
  cases hnext : nextReference? s with
  | none => rfl
  | some p => exact absurd (.first hnext) (h _ _ _)

section

variable {g : List Char} (hs : ReferencesInStrings (g ++ (tok.written ++ rest)))
  (token : nextToken (skipIgnored false (g ++ (tok.written ++ rest))) = some (tok, rest))
include hs token

/-- No reference lies across the end of the first token. -/
theorem parts_first : Parts (g ++ tok.written) rest := by
  intro before name after h
  rw [List.append_assoc] at h
  have heq := congrArg List.length h.eq
  rcases (hs _ _ _ h).cases token with ⟨l, x, y, -, -, rfl⟩ | hlater
  · left
    rw [List.length_append]
    exact Nat.le_add_left _ _
  · right
    have hle := hlater.length_le
    simp only [List.length_append] at heq hle ⊢
    omega

/-- After the first token all references lie inside of strings, too. -/
theorem referencesInStrings_rest : ReferencesInStrings rest := by
  intro before name after h
  have hoccurs := h.append_right (parts_first hs token)
  rw [List.append_assoc] at hoccurs
  rcases (hs _ _ _ hoccurs).cases token with ⟨l, x, y, -, -, rfl⟩ | hlater
  · have heq := congrArg List.length h.eq
    have hpos := length_written_pos name
    simp only [List.length_append] at heq
    omega
  · exact hlater

/-- The references up to the end of the first token are those of a string. -/
theorem exists_text (h : Occurs (g ++ tok.written) before name after) :
    ∃ l x, tok = .text l ∧ l = x ++ (written name ++ after) := by
  have hoccurs := h.append_left (parts_first hs token)
  rw [List.append_assoc] at hoccurs
  rcases (hs _ _ _ hoccurs).cases token with ⟨l, x, y, htok, hl, hafter⟩ | hlater
  · rw [List.append_cancel_right hafter]
    exact ⟨l, x, htok, hl⟩
  · have hle := hlater.length_le
    have hpos := length_written_pos name
    simp only [List.length_append] at hle
    omega

/-- The gap before the first token has no references, and none lies across its start. -/
theorem parts_gap : nextReference? g = none ∧ Parts g tok.written := by
  have hparts : Parts g tok.written := by
    intro before name after h
    right
    obtain ⟨l, x, rfl, hl⟩ := exists_text hs token h
    have heq := congrArg List.length h.eq
    have hlength := congrArg List.length hl
    simp only [Token.written, List.length_append] at heq hlength
    omega
  refine ⟨nextReference?_eq_none fun before name after h => ?_, hparts⟩
  obtain ⟨l, x, rfl, hl⟩ := exists_text hs token (h.append_left hparts)
  have hpos := length_written_pos name
  have hlength := congrArg List.length hl
  simp only [Token.written, List.length_append] at hlength
  omega

/-- **Values are put into the first token**, if it is a string, and into what comes after it. -/
theorem substitute_first (env : Environment) : env.substitute (g ++ (tok.written ++ rest)) =
    g ++ ((tok.mapText env.substitute).written ++ env.substitute rest) := by
  obtain ⟨hgap, hparts⟩ := parts_gap hs token
  have hwritten : env.substitute tok.written = (tok.mapText env.substitute).written := by
    cases tok with
    | text l => rfl
    | _ =>
      refine substitute_of_none (nextReference?_eq_none fun before name after h => ?_) env
      obtain ⟨l, x, htok, -⟩ := exists_text hs token (h.append_right hparts)
      cases htok
  rw [← List.append_assoc, substitute_append (parts_first hs token), substitute_append hparts,
    substitute_of_none hgap, hwritten, List.append_assoc]

end

/-- **With values put in, a text is laid out from the same tokens apart from strings**, if all references lie inside
of strings; and the references of the strings are references of the text. -/
theorem CutsInto.filled (h : CutsInto s ts) (hchain : ts.IsChain Apart) (hs : ReferencesInStrings s)
    (env : Environment) :
    Laid (ts.map (Token.mapText env.substitute)) (env.substitute s) ∧
      ∀ l, .text l ∈ ts → ∀ before name after, Occurs l before name after →
        ∃ before' more, Occurs s before' name (after ++ more) := by
  obtain ⟨last, hcut, hlast⟩ := h
  induction hcut with
  | nil s =>
    rw [substitute_of_none (nextReference?_eq_none fun _ _ _ h => not_inString hlast (hs _ _ _ h))]
    exact ⟨.nil hlast, nofun⟩
  | @cons s rest last tok ts token more ih =>
    have hlaid := (CutsInto.laid ⟨last, more, hlast⟩ hchain.tail).1
    obtain ⟨g, hgap, -, rfl⟩ := exists_gap token (hlaid.endedBy tok hchain)
    -- values are put into the first token and, by induction, into what comes after it
    obtain ⟨hmore, hoccurs⟩ := ih hchain.tail (referencesInStrings_rest hs token) hlast
    have hparts := parts_first hs token
    rw [substitute_first hs token]
    refine ⟨.cons hgap hmore, fun l hl before name after h => ?_⟩
    rcases List.mem_cons.mp hl with rfl | hl
    · have hfirst := (h.append_right (parts_gap hs token).2).append_left hparts
      rw [List.append_assoc] at hfirst
      exact ⟨_, rest, hfirst⟩
    · obtain ⟨before', r, h'⟩ := hoccurs l hl before name after h
      have hlater := h'.append_right hparts
      rw [List.append_assoc] at hlater
      exact ⟨_, r, hlater⟩

/-! ## Trees -/

/-- The references of a text may be replaced by the values of their variables. -/
def HarmlessIn (env : Environment) (s : List Char) : Prop :=
  ∀ before name after, Occurs s before name after → Harmless (env.valueOf name) after

/-- **What is meant by a string of a tree is read with values put in**, if the tree has a value. -/
theorem Writes.filled_literal (h : Writes s t) (hs : ReferencesInStrings s) (hharmless : HarmlessIn env s)
    {digits : Option Nat} {v : Json} (hv : t.value? digits decode? = some v) {l : List Char}
    (hl : .text l ∈ t.tokens) :
    ∃ body ds, l = '"' :: (body ++ ['"']) ∧ filled? env body = some ds ∧ decode? (env.substitute body) = some ds := by
  obtain ⟨body, -, rfl⟩ := h.formed (.text l) hl
  obtain ⟨k, hk⟩ := Tree.exists_literal? hv hl
  rw [literal?_quoted] at hk
  obtain ⟨cs, hcs, -⟩ := Option.map_eq_some_iff.mp hk
  obtain ⟨ts, hcut, htrailed⟩ := h
  obtain ⟨-, hoccurs⟩ := hcut.filled (isChain_of_feed (feed_of_trailed htrailed)) hs env
  have hbody : ∀ before name after, Occurs body before name after → Harmless (env.valueOf name) after := by
    intro before name after hoccur
    obtain ⟨before', more, h'⟩ := hoccurs _ (htrailed.subset hl) _ _ _ (occurs_quoted hoccur)
    exact (hharmless _ _ _ h').of_append.of_append
  obtain ⟨ds, hfilled, hread⟩ := filled_of_decode hcs hbody
  exact ⟨body, ds, rfl, hfilled, hread⟩

/-- **With values put in, a text is written as the tree with values put into its strings**, and what is read is what is
meant. -/
theorem Writes.filled (h : Writes s t) (hs : ReferencesInStrings s) (hharmless : HarmlessIn env s)
    {digits : Option Nat} {v : Json} (hv : t.value? digits decode? = some v) :
    Writes (env.substitute s) (t.mapText env.substitute) ∧
      (t.mapText env.substitute).value? digits decode? = t.value? digits (filled? env) := by
  have hliteral := fun l hl => h.filled_literal hs hharmless hv (l := l) hl
  refine ⟨writes_iff.mpr ⟨fun tok htok => ?_, ?_⟩, Tree.value?_mapText fun l hl => ?_⟩
  · -- what can be read between quotes may stand there
    rw [Tree.tokens_mapText] at htok
    obtain ⟨tok, hmem, rfl⟩ := List.mem_map.mp htok
    cases tok with
    | text l =>
      obtain ⟨body, ds, rfl, -, hread⟩ := hliteral l hmem
      exact ⟨_, (decode?_eq_some_iff.mp hread).enclosed, substitute_quoted env body⟩
    | scalar n => exact h.formed _ hmem
    | _ => trivial
  · obtain ⟨ts, hcut, htrailed⟩ := h
    rw [Tree.tokens_mapText]
    exact ⟨_, htrailed.map env.substitute, (hcut.filled (isChain_of_feed (feed_of_trailed htrailed)) hs env).1⟩
  · obtain ⟨body, ds, rfl, hfilled, hread⟩ := hliteral l hl
    rw [substitute_quoted, literal?_quoted, literal?_quoted, hfilled, hread]

/-- **What is meant has the outline of what is written**, if no name holds a reference. -/
theorem Writes.exists_filled (h : Writes s t) (hs : ReferencesInStrings s) (hharmless : HarmlessIn env s)
    {digits : Option Nat} {ms : Members} (hv : t.value? digits decode? = some (.obj ms)) :
    ∃ ms', t.value? digits (filled? env) = some (.obj ms') ∧
      ((∀ name ∈ t.names, nextReference? name = none) → (Json.obj ms').outline = (Json.obj ms).outline) := by
  have hliteral := fun l hl => h.filled_literal hs hharmless hv (l := l) hl
  have hrereads : Tree.Rereads digits decode? (filled? env) t := by
    refine Tree.rereads fun l k hl _ => ?_
    obtain ⟨body, ds, rfl, hfilled, -⟩ := hliteral l hl
    exact ⟨String.ofList ds, by rw [literal?_quoted, hfilled, Option.map_some]⟩
  obtain ⟨v', hv', houtline⟩ := hrereads _ hv
  obtain ⟨ms', rfl⟩ := Tree.exists_object hv hv'
  refine ⟨ms', hv', fun hnames => houtline fun name hname => ?_⟩
  obtain ⟨body, ds, rfl, -, -⟩ := hliteral name (Tree.text_mem_tokens hname)
  have hnone : nextReference? body = none := by
    cases hnext : nextReference? body with
    | none => rfl
    | some p => exact absurd (hnames _ hname) (occurs_quoted (.first hnext)).ne_none
  rw [literal?_quoted, literal?_quoted, filled?_of_none hnone]

end EditorServices.Commented
