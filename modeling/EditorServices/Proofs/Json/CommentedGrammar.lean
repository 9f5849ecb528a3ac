import EditorServices.Json.Commented

/-!
# `Proofs.Json.CommentedGrammar` — the grammar that the machine follows

The rules of commented JSON say which rows of tokens are values. The machine reads a row from left to right
and remembers only what is open and what it expects. `Follows` says in terms of the rules what may come from
a state on, and one token at a time it agrees with the machine. So the machine accepts exactly the values; and
since every state that it reaches can be completed, it refuses a token exactly when no value starts with the
tokens up to it.

## Contents
- **Rules.** `Value`, `Elements`, `More` and `Element`.
- **States.** `After` and `Follows`, what may come from a state on; `Machine.Fits`, the states that occur.
- **Steps.** `follows_cons`, for one token.
- **Runs.** `Machine.feed`; `value_iff_accepted` and `viable_iff_fed`.
- **Kept tokens.** What is kept has the depth of what was read.
-/

namespace EditorServices.Commented

/-! ## Rules -/

/-- The token that ends an array (false) or an object (true). -/
def closer : Bool → Token
  | true => .closeBrace
  | false => .closeBracket

mutual

/-- The tokens of a value. -/
inductive Value : List Token → Prop
  | text (s : List Char) : Value [.text s]
  | scalar (s : List Char) : Value [.scalar s]
  | array {inner : List Token} (elements : Elements false inner) :
      Value (.openBracket :: (inner ++ [.closeBracket]))
  | object {inner : List Token} (elements : Elements true inner) :
      Value (.openBrace :: (inner ++ [.closeBrace]))

/-- What stands in an array (false) or an object (true). A comma may stand in it alone. -/
inductive Elements : Bool → List Token → Prop
  | empty {kind : Bool} : Elements kind []
  | comma {kind : Bool} : Elements kind [.comma]
  | first {kind : Bool} {e more : List Token} (element : Element kind e) (rest : More kind more) :
      Elements kind (e ++ more)

/-- What stands after an element: further elements, each after a comma, and perhaps a trailing comma. -/
inductive More : Bool → List Token → Prop
  | none {kind : Bool} : More kind []
  | trailing {kind : Bool} : More kind [.comma]
  | next {kind : Bool} {e more : List Token} (element : Element kind e) (rest : More kind more) :
      More kind (.comma :: (e ++ more))

/-- An item of an array (false) or a member of an object (true). -/
inductive Element : Bool → List Token → Prop
  | item {v : List Token} (value : Value v) : Element false v
  | member (name : List Char) {v : List Token} (value : Value v) :
      Element true (.text name :: .colon :: v)

end

/-! ## States -/

/-- What may come after a value, given what is open around it. -/
def After : List Bool → List Token → Prop
  | [], ts => ts = []
  | kind :: outer, ts => ∃ more rest, ts = more ++ closer kind :: rest ∧ More kind more ∧ After outer rest

/-- A value and what may come after it. -/
def FollowsValue (nesting : List Bool) (ts : List Token) : Prop :=
  ∃ v rest, ts = v ++ rest ∧ Value v ∧ After nesting rest

/-- An element of the innermost array or object and what may come after it. -/
def FollowsElement (kind : Bool) (outer : List Bool) (ts : List Token) : Prop :=
  ∃ e rest, ts = e ++ rest ∧ Element kind e ∧ After (kind :: outer) rest

/-- The end of the innermost array or object and what may come after it. -/
def FollowsEnd (kind : Bool) (outer : List Bool) (ts : List Token) : Prop :=
  ∃ rest, ts = closer kind :: rest ∧ After outer rest

/-- What may come right after the start of an array or an object. -/
def FollowsStart (kind : Bool) (outer : List Bool) (ts : List Token) : Prop :=
  ∃ inner rest, ts = inner ++ closer kind :: rest ∧ Elements kind inner ∧ After outer rest

/-- What may come from a state on. -/
def Follows : Expecting → List Bool → List Token → Prop
  | .value, nesting, ts => FollowsValue nesting ts
  | .firstItem, false :: outer, ts => FollowsStart false outer ts
  | .firstMember, true :: outer, ts => FollowsStart true outer ts
  | .nextItem, false :: outer, ts => FollowsEnd false outer ts ∨ FollowsElement false outer ts
  | .nextMember, true :: outer, ts => FollowsEnd true outer ts ∨ FollowsElement true outer ts
  | .afterItem, false :: outer, ts => After (false :: outer) ts
  | .afterMember, true :: outer, ts => After (true :: outer) ts
  | .colon, true :: outer, ts => ∃ rest, ts = .colon :: rest ∧ FollowsValue (true :: outer) rest
  | .onlyEnd, kind :: outer, ts => FollowsEnd kind outer ts
  | .nothing, [], ts => ts = []
  | _, _, _ => False

variable {m m' : Machine} {t : Token} {ts : List Token} {kind : Bool} {nesting outer : List Bool}

theorem follows_afterValue : Follows (Machine.afterValue nesting) nesting ts ↔ After nesting ts := by
  cases nesting with
  | nil => exact Iff.rfl
  | cons kind outer => cases kind <;> exact Iff.rfl

/-! ### What a first token says -/

theorem followsEnd_cons : FollowsEnd kind outer (t :: ts) ↔ t = closer kind ∧ After outer ts := by
  constructor
  · rintro ⟨rest, heq, hrest⟩
    obtain ⟨rfl, rfl⟩ := List.cons.inj heq
    exact ⟨rfl, hrest⟩
  · rintro ⟨rfl, hrest⟩
    exact ⟨ts, rfl, hrest⟩

/-- A value starts in one of four ways. -/
theorem followsValue_cons : FollowsValue nesting (t :: ts) ↔
    ((∃ s, t = .text s ∨ t = .scalar s) ∧ After nesting ts) ∨
    (t = .openBracket ∧ FollowsStart false nesting ts) ∨
    (t = .openBrace ∧ FollowsStart true nesting ts) := by
  constructor
  · rintro ⟨v, rest, heq, hv, hrest⟩
    cases hv with
    | text s =>
      obtain ⟨rfl, rfl⟩ := List.cons.inj heq
      exact .inl ⟨⟨s, .inl rfl⟩, hrest⟩
    | scalar s =>
      obtain ⟨rfl, rfl⟩ := List.cons.inj heq
      exact .inl ⟨⟨s, .inr rfl⟩, hrest⟩
    | @array inner elements =>
      obtain ⟨rfl, rfl⟩ := List.cons.inj heq
      exact .inr (.inl ⟨rfl, inner, rest, List.append_assoc .., elements, hrest⟩)
    | @object inner elements =>
      obtain ⟨rfl, rfl⟩ := List.cons.inj heq
      exact .inr (.inr ⟨rfl, inner, rest, List.append_assoc .., elements, hrest⟩)
  · rintro (⟨⟨s, rfl | rfl⟩, hrest⟩ | ⟨rfl, inner, rest, rfl, elements, hrest⟩ |
      ⟨rfl, inner, rest, rfl, elements, hrest⟩)
    · exact ⟨_, ts, rfl, .text s, hrest⟩
    · exact ⟨_, ts, rfl, .scalar s, hrest⟩
    · exact ⟨_, rest, by rw [List.cons_append, List.append_assoc]; rfl, .array elements, hrest⟩
    · exact ⟨_, rest, by rw [List.cons_append, List.append_assoc]; rfl, .object elements, hrest⟩

/-- After an element there is a comma or the end. -/
theorem after_cons : After (kind :: outer) (t :: ts) ↔
    FollowsEnd kind outer (t :: ts) ∨
    (t = .comma ∧ (FollowsEnd kind outer ts ∨ FollowsElement kind outer ts)) := by
  constructor
  · rintro ⟨more, rest, heq, hmore, hrest⟩
    cases hmore with
    | none => exact .inl ⟨rest, heq, hrest⟩
    | trailing =>
      obtain ⟨rfl, rfl⟩ := List.cons.inj heq
      exact .inr ⟨rfl, .inl ⟨rest, rfl, hrest⟩⟩
    | @next _ e more element hmore =>
      obtain ⟨rfl, rfl⟩ := List.cons.inj heq
      exact .inr ⟨rfl, .inr ⟨e, _, List.append_assoc .., element, more, rest, rfl, hmore, hrest⟩⟩
  · rintro (⟨rest, heq, hrest⟩ | ⟨rfl, ⟨rest, rfl, hrest⟩ |
      ⟨e, _, rfl, element, more, rest, rfl, hmore, hrest⟩⟩)
    · exact ⟨[], rest, heq, .none, hrest⟩
    · exact ⟨[.comma], rest, rfl, .trailing, hrest⟩
    · exact ⟨_, rest, by rw [List.cons_append, List.append_assoc], .next element hmore, hrest⟩

/-- An array or object starts with its end, with a comma and its end, or with an element. -/
theorem followsStart_iff : FollowsStart kind outer ts ↔
    FollowsEnd kind outer ts ∨ (∃ rest, ts = .comma :: rest ∧ FollowsEnd kind outer rest) ∨
      FollowsElement kind outer ts := by
  constructor
  · rintro ⟨inner, rest, rfl, elements, hrest⟩
    cases elements with
    | empty => exact .inl ⟨rest, rfl, hrest⟩
    | comma => exact .inr (.inl ⟨_, rfl, rest, rfl, hrest⟩)
    | @first _ e more element hmore =>
      exact .inr (.inr ⟨e, _, List.append_assoc .., element, more, rest, rfl, hmore, hrest⟩)
  · rintro (⟨rest, rfl, hrest⟩ | ⟨_, rfl, rest, rfl, hrest⟩ |
      ⟨e, _, rfl, element, more, rest, rfl, hmore, hrest⟩)
    · exact ⟨[], rest, rfl, .empty, hrest⟩
    · exact ⟨[.comma], rest, rfl, .comma, hrest⟩
    · exact ⟨_, rest, (List.append_assoc ..).symm, .first element hmore, hrest⟩

theorem followsItem_iff : FollowsElement false outer ts ↔ FollowsValue (false :: outer) ts := by
  constructor
  · rintro ⟨e, rest, heq, element, hrest⟩
    cases element with
    | item value => exact ⟨e, rest, heq, value, hrest⟩
  · rintro ⟨v, rest, heq, value, hrest⟩
    exact ⟨v, rest, heq, .item value, hrest⟩

theorem followsMember_cons : FollowsElement true outer (t :: ts) ↔
    (∃ s, t = .text s) ∧ ∃ rest, ts = .colon :: rest ∧ FollowsValue (true :: outer) rest := by
  constructor
  · rintro ⟨e, rest, heq, element, hrest⟩
    cases element with
    | @member name v value =>
      obtain ⟨rfl, rfl⟩ := List.cons.inj heq
      exact ⟨⟨name, rfl⟩, _, rfl, v, rest, rfl, value, hrest⟩
  · rintro ⟨⟨name, rfl⟩, _, rfl, v, rest, rfl, value, hrest⟩
    exact ⟨_, rest, rfl, .member name value, hrest⟩

/-! ## Steps -/

namespace Machine

/-- What is expected goes with what is open. -/
def Fits (m : Machine) : Prop :=
  match m.expecting with
  | .value => True
  | .firstItem | .nextItem | .afterItem => ∃ outer, m.nesting = false :: outer
  | .firstMember | .nextMember | .colon | .afterMember => ∃ outer, m.nesting = true :: outer
  | .onlyEnd => ∃ kind outer, m.nesting = kind :: outer
  | .nothing => m.nesting = []

theorem fits_afterValue (nesting : List Bool) (kept : List Token) :
    Fits ⟨afterValue nesting, nesting, kept⟩ := by
  cases nesting with
  | nil => rfl
  | cons kind outer => cases kind <;> exact ⟨outer, rfl⟩

end Machine

/-- Tokens without the commas, which stand nowhere but between elements. -/
def bare (ts : List Token) : List Token := ts.filter (· ≠ .comma)

theorem bare_append (ts more : List Token) : bare (ts ++ more) = bare ts ++ bare more := List.filter_append ..

/-- What a step does besides going on in the grammar: it keeps what is expected and what is open together,
and keeps its token unless that is a comma, which may be kept later or not at all. -/
structure Advance (m : Machine) (t : Token) (m' : Machine) : Prop where
  fits : m'.Fits
  kept : bare m'.kept = bare (t :: m.kept)

namespace Machine

theorem advance_takeValue {held : List Token} (hheld : bare held = []) (h : m.takeValue held t = some m') :
    Advance m t m' := by
  have hkept : ∀ x, bare (x :: held ++ m.kept) = bare (x :: m.kept) := by
    intro x
    rw [← List.singleton_append, List.append_assoc, bare_append, bare_append, hheld, List.nil_append,
      ← bare_append]
    rfl
  cases t with
  | openBrace =>
    cases h
    exact ⟨⟨_, rfl⟩, hkept _⟩
  | openBracket =>
    cases h
    exact ⟨⟨_, rfl⟩, hkept _⟩
  | text s =>
    cases h
    exact ⟨fits_afterValue _ _, hkept _⟩
  | scalar s =>
    cases h
    exact ⟨fits_afterValue _ _, hkept _⟩
  | _ => cases h

theorem advance_close (h : m.close t = some m') : Advance m t m' := by
  unfold close at h
  split at h
  · cases h
    exact ⟨fits_afterValue _ _, rfl⟩
  · cases h
    exact ⟨fits_afterValue _ _, rfl⟩
  · cases h

theorem advance_takeName {held : List Token} (hheld : bare held = []) (hn : ∃ outer, m.nesting = true :: outer)
    (h : m.takeName held t = some m') : Advance m t m' := by
  cases t with
  | text s =>
    cases h
    refine ⟨hn, ?_⟩
    rw [← List.singleton_append, List.append_assoc, bare_append, bare_append, hheld, List.nil_append,
      ← bare_append]
    rfl
  | _ => cases h

theorem advance_step (hfits : m.Fits) (h : m.step t = some m') : Advance m t m' := by
  obtain ⟨expecting, nesting, kept⟩ := m
  cases expecting with
  | value => exact advance_takeValue rfl h
  | firstItem =>
    obtain ⟨outer, hn⟩ := hfits
    unfold step at h
    dsimp only at h
    split at h
    · next hcomma =>
      cases h
      exact ⟨⟨_, outer, hn⟩, by rw [hcomma]; rfl⟩
    · rcases Option.or_eq_some_iff.mp h with h | ⟨-, h⟩
      · exact advance_close h
      · exact advance_takeValue rfl h
  | nextItem =>
    rcases Option.or_eq_some_iff.mp h with h | ⟨-, h⟩
    · exact advance_close h
    · exact advance_takeValue rfl h
  | afterItem =>
    unfold step at h
    dsimp only at h
    split at h
    · next hcomma =>
      cases h
      exact ⟨hfits, by rw [hcomma]; rfl⟩
    · exact advance_close h
  | firstMember =>
    obtain ⟨outer, hn⟩ := hfits
    unfold step at h
    dsimp only at h
    split at h
    · next hcomma =>
      cases h
      exact ⟨⟨_, outer, hn⟩, by rw [hcomma]; rfl⟩
    · rcases Option.or_eq_some_iff.mp h with h | ⟨-, h⟩
      · exact advance_close h
      · exact advance_takeName rfl ⟨outer, hn⟩ h
  | nextMember =>
    rcases Option.or_eq_some_iff.mp h with h | ⟨-, h⟩
    · exact advance_close h
    · exact advance_takeName rfl hfits h
  | colon =>
    obtain ⟨hcolon, heq⟩ := Option.ite_none_right_eq_some.mp h
    cases heq
    exact ⟨trivial, by rw [hcolon]⟩
  | afterMember =>
    unfold step at h
    dsimp only at h
    split at h
    · next hcomma =>
      cases h
      exact ⟨hfits, by rw [hcomma]; rfl⟩
    · exact advance_close h
  | onlyEnd => exact advance_close h
  | nothing => cases h

end Machine

/-! ### One step -/

/-- The machine goes on as a state of it says. -/
def Goes (next : Option Machine) (ts : List Token) : Prop :=
  ∃ m', next = some m' ∧ Follows m'.expecting m'.nesting ts

theorem not_goes_none : ¬ Goes none ts := by
  rintro ⟨m', h, -⟩
  cases h

theorem goes_some : Goes (some m) ts ↔ Follows m.expecting m.nesting ts := by
  constructor
  · rintro ⟨m', h, hfollows⟩
    cases h
    exact hfollows
  · intro hfollows
    exact ⟨m, rfl, hfollows⟩

/-- A machine that can go on in two ways, but never in both. -/
theorem goes_or {a b : Option Machine} (h : ∀ m', a = some m' → b = none) :
    Goes (a.or b) ts ↔ Goes a ts ∨ Goes b ts := by
  cases a with
  | none =>
    rw [Option.none_or]
    exact ⟨.inr, fun hgoes => hgoes.resolve_left not_goes_none⟩
  | some m' =>
    rw [h m' rfl, Option.or_none]
    exact ⟨.inl, fun hgoes => hgoes.resolve_right not_goes_none⟩

theorem goes_takeValue {held : List Token} :
    Goes (m.takeValue held t) ts ↔ FollowsValue m.nesting (t :: ts) := by
  rw [followsValue_cons]
  cases t with
  | openBrace => simp [Machine.takeValue, goes_some, Follows]
  | openBracket => simp [Machine.takeValue, goes_some, Follows]
  | text s => simp [Machine.takeValue, goes_some, follows_afterValue]
  | scalar s => simp [Machine.takeValue, goes_some, follows_afterValue]
  | _ => simp [Machine.takeValue, not_goes_none]

theorem goes_close (hn : m.nesting = kind :: outer) :
    Goes (m.close t) ts ↔ FollowsEnd kind outer (t :: ts) := by
  rw [followsEnd_cons]
  unfold Machine.close
  rw [hn]
  cases kind <;> cases t <;> simp [closer, goes_some, not_goes_none, follows_afterValue]

theorem goes_takeName {held : List Token} (hn : m.nesting = true :: outer) :
    Goes (m.takeName held t) ts ↔ FollowsElement true outer (t :: ts) := by
  rw [followsMember_cons]
  cases t <;> simp [Machine.takeName, goes_some, not_goes_none, hn, Follows]

theorem takeValue_of_close {held : List Token} (h : m.close t = some m') : m.takeValue held t = none := by
  unfold Machine.close at h
  split at h
  · rfl
  · rfl
  · cases h

theorem takeName_of_close {held : List Token} (h : m.close t = some m') : m.takeName held t = none := by
  unfold Machine.close at h
  split at h
  · rfl
  · rfl
  · cases h

theorem not_followsEnd_comma : ¬ FollowsEnd kind outer (.comma :: ts) := by
  rw [followsEnd_cons]
  rintro ⟨hcomma, -⟩
  cases kind <;> cases hcomma

theorem not_followsElement_comma : ¬ FollowsElement kind outer (.comma :: ts) := by
  cases kind with
  | false =>
    rw [followsItem_iff, followsValue_cons]
    rintro (⟨⟨s, hs | hs⟩, -⟩ | ⟨hs, -⟩ | ⟨hs, -⟩) <;> cases hs
  | true =>
    rw [followsMember_cons]
    rintro ⟨⟨s, hs⟩, -⟩
    cases hs

theorem followsStart_comma : FollowsStart kind outer (.comma :: ts) ↔ FollowsEnd kind outer ts := by
  rw [followsStart_iff]
  constructor
  · rintro (hend | ⟨rest, heq, hend⟩ | helement)
    · exact absurd hend not_followsEnd_comma
    · cases heq
      exact hend
    · exact absurd helement not_followsElement_comma
  · intro hend
    exact .inr (.inl ⟨ts, rfl, hend⟩)

theorem followsStart_cons (ht : t ≠ .comma) : FollowsStart kind outer (t :: ts) ↔
    FollowsEnd kind outer (t :: ts) ∨ FollowsElement kind outer (t :: ts) := by
  rw [followsStart_iff]
  refine or_congr_right ⟨fun h => h.resolve_left ?_, .inr⟩
  rintro ⟨rest, heq, -⟩
  cases heq
  exact ht rfl

theorem after_comma : After (kind :: outer) (.comma :: ts) ↔
    FollowsEnd kind outer ts ∨ FollowsElement kind outer ts := by
  rw [after_cons]
  exact ⟨fun h => (h.resolve_left not_followsEnd_comma).2, fun h => .inr ⟨rfl, h⟩⟩

theorem after_cons_of_ne (ht : t ≠ .comma) :
    After (kind :: outer) (t :: ts) ↔ FollowsEnd kind outer (t :: ts) := by
  rw [after_cons]
  exact ⟨fun h => h.resolve_right fun hcomma => ht hcomma.1, .inl⟩

/-- **One token at a time, the machine goes on as the rules say.** -/
theorem follows_cons (hfits : m.Fits) :
    Follows m.expecting m.nesting (t :: ts) ↔ Goes (m.step t) ts := by
  obtain ⟨expecting, nesting, kept⟩ := m
  cases expecting with
  | value => exact goes_takeValue.symm
  | firstItem =>
    obtain ⟨outer, rfl⟩ := hfits
    show FollowsStart false outer (t :: ts) ↔ Goes (if t = .comma then _ else _) ts
    by_cases ht : t = .comma
    · rw [if_pos ht, ht, goes_some]
      exact followsStart_comma
    · rw [if_neg ht, goes_or fun _ => takeValue_of_close, goes_close rfl, goes_takeValue,
        followsStart_cons ht, followsItem_iff]
  | nextItem =>
    obtain ⟨outer, rfl⟩ := hfits
    show FollowsEnd false outer (t :: ts) ∨ FollowsElement false outer (t :: ts) ↔ Goes (Option.or _ _) ts
    rw [goes_or fun _ => takeValue_of_close, goes_close rfl, goes_takeValue, followsItem_iff]
  | afterItem =>
    obtain ⟨outer, rfl⟩ := hfits
    show After (false :: outer) (t :: ts) ↔ Goes (if t = .comma then _ else _) ts
    by_cases ht : t = .comma
    · rw [if_pos ht, ht, goes_some]
      exact after_comma
    · rw [if_neg ht, goes_close rfl]
      exact after_cons_of_ne ht
  | firstMember =>
    obtain ⟨outer, rfl⟩ := hfits
    show FollowsStart true outer (t :: ts) ↔ Goes (if t = .comma then _ else _) ts
    by_cases ht : t = .comma
    · rw [if_pos ht, ht, goes_some]
      exact followsStart_comma
    · rw [if_neg ht, goes_or fun _ => takeName_of_close, goes_close rfl, goes_takeName rfl]
      exact followsStart_cons ht
  | nextMember =>
    obtain ⟨outer, rfl⟩ := hfits
    show FollowsEnd true outer (t :: ts) ∨ FollowsElement true outer (t :: ts) ↔ Goes (Option.or _ _) ts
    rw [goes_or fun _ => takeName_of_close, goes_close rfl, goes_takeName rfl]
  | colon =>
    obtain ⟨outer, rfl⟩ := hfits
    show (∃ rest, t :: ts = .colon :: rest ∧ FollowsValue (true :: outer) rest) ↔
      Goes (if t = .colon then _ else none) ts
    by_cases ht : t = .colon
    · rw [if_pos ht, ht, goes_some]
      refine ⟨?_, fun hvalue => ⟨ts, rfl, hvalue⟩⟩
      rintro ⟨rest, heq, hvalue⟩
      cases heq
      exact hvalue
    · rw [if_neg ht]
      refine ⟨?_, fun hgoes => absurd hgoes not_goes_none⟩
      rintro ⟨rest, heq, -⟩
      cases heq
      exact absurd rfl ht
  | afterMember =>
    obtain ⟨outer, rfl⟩ := hfits
    show After (true :: outer) (t :: ts) ↔ Goes (if t = .comma then _ else _) ts
    by_cases ht : t = .comma
    · rw [if_pos ht, ht, goes_some]
      exact after_comma
    · rw [if_neg ht, goes_close rfl]
      exact after_cons_of_ne ht
  | onlyEnd =>
    obtain ⟨kind, outer, rfl⟩ := hfits
    exact (goes_close rfl).symm
  | nothing =>
    have hnone : nesting = [] := hfits
    subst hnone
    refine ⟨fun h => ?_, fun hgoes => absurd hgoes not_goes_none⟩
    cases h

/-! ## Runs -/

namespace Machine

/-- The machine after some tokens; none if one of them stands in the wrong place. -/
def feed (m : Machine) : List Token → Option Machine
  | [] => some m
  | t :: ts => (m.step t).bind fun m' => m'.feed ts

theorem fits_initial : initial.Fits := trivial

/-- What a run keeps are its tokens, but for commas. -/
theorem Fits.feed (hfits : m.Fits) (h : m.feed ts = some m') :
    m'.Fits ∧ bare m'.kept = bare (ts.reverse ++ m.kept) := by
  induction ts generalizing m with
  | nil =>
    cases h
    exact ⟨hfits, rfl⟩
  | cons t rest ih =>
    obtain ⟨next, hstep, hrest⟩ := Option.bind_eq_some_iff.mp h
    have hadvance := advance_step hfits hstep
    obtain ⟨hend, hkept⟩ := ih hadvance.fits hrest
    refine ⟨hend, ?_⟩
    rw [hkept, bare_append, hadvance.kept, ← bare_append, List.reverse_cons, List.append_assoc]
    rfl

end Machine

theorem not_followsValue_nil : ¬ FollowsValue nesting [] := by
  rintro ⟨v, rest, heq, hv, -⟩
  obtain ⟨rfl, -⟩ := List.append_eq_nil_iff.mp heq.symm
  cases hv

theorem not_followsElement_nil : ¬ FollowsElement kind outer [] := by
  rintro ⟨e, rest, heq, element, -⟩
  obtain ⟨rfl, -⟩ := List.append_eq_nil_iff.mp heq.symm
  cases element with
  | item value => cases value

theorem not_followsEnd_nil : ¬ FollowsEnd kind outer [] := by
  rintro ⟨rest, heq, -⟩
  cases heq

theorem not_followsStart_nil : ¬ FollowsStart kind outer [] := by
  rw [followsStart_iff]
  rintro (hend | ⟨rest, heq, -⟩ | helement)
  · exact not_followsEnd_nil hend
  · cases heq
  · exact not_followsElement_nil helement

theorem not_after_nil : ¬ After (kind :: outer) [] := by
  rintro ⟨more, rest, heq, -⟩
  cases (List.append_eq_nil_iff.mp heq.symm).2

/-- The tokens may end only where nothing more is expected. -/
theorem follows_nil (hfits : m.Fits) : Follows m.expecting m.nesting [] ↔ m.expecting = .nothing := by
  obtain ⟨expecting, nesting, kept⟩ := m
  refine ⟨fun h => ?_, fun h => ?_⟩
  · cases expecting with
    | value => exact absurd h not_followsValue_nil
    | firstItem =>
      obtain ⟨outer, rfl⟩ := hfits
      exact absurd h not_followsStart_nil
    | nextItem =>
      obtain ⟨outer, rfl⟩ := hfits
      exact (h.elim not_followsEnd_nil not_followsElement_nil).elim
    | afterItem =>
      obtain ⟨outer, rfl⟩ := hfits
      exact absurd h not_after_nil
    | firstMember =>
      obtain ⟨outer, rfl⟩ := hfits
      exact absurd h not_followsStart_nil
    | nextMember =>
      obtain ⟨outer, rfl⟩ := hfits
      exact (h.elim not_followsEnd_nil not_followsElement_nil).elim
    | colon =>
      obtain ⟨outer, rfl⟩ := hfits
      obtain ⟨rest, heq, -⟩ := h
      cases heq
    | afterMember =>
      obtain ⟨outer, rfl⟩ := hfits
      exact absurd h not_after_nil
    | onlyEnd =>
      obtain ⟨kind, outer, rfl⟩ := hfits
      exact absurd h not_followsEnd_nil
    | nothing => rfl
  · cases h
    have hnone : nesting = [] := hfits
    rw [hnone]
    rfl

/-- **From a state on, the machine accepts what the rules say.** -/
theorem follows_iff_fed (hfits : m.Fits) :
    Follows m.expecting m.nesting ts ↔ ∃ m', m.feed ts = some m' ∧ m'.expecting = .nothing := by
  induction ts generalizing m with
  | nil =>
    rw [follows_nil hfits]
    constructor
    · intro h
      exact ⟨m, rfl, h⟩
    · rintro ⟨m', h, hend⟩
      cases h
      exact hend
  | cons t rest ih =>
    rw [follows_cons hfits]
    constructor
    · rintro ⟨next, hstep, hfollows⟩
      obtain ⟨m', hfeed, hend⟩ := (ih (Machine.advance_step hfits hstep).fits).mp hfollows
      exact ⟨m', Option.bind_eq_some_iff.mpr ⟨next, hstep, hfeed⟩, hend⟩
    · rintro ⟨m', hfeed, hend⟩
      obtain ⟨next, hstep, hrest⟩ := Option.bind_eq_some_iff.mp hfeed
      exact ⟨next, hstep, (ih (Machine.advance_step hfits hstep).fits).mpr ⟨m', hrest, hend⟩⟩

/-- **The machine accepts exactly the values.** -/
theorem value_iff_accepted : Value ts ↔ ∃ m, Machine.initial.feed ts = some m ∧ m.expecting = .nothing := by
  rw [← follows_iff_fed Machine.fits_initial]
  constructor
  · intro hv
    exact ⟨ts, [], (List.append_nil ts).symm, hv, rfl⟩
  · rintro ⟨v, rest, rfl, hv, rfl⟩
    rw [List.append_nil]
    exact hv

/-! ### Completion -/

/-- Tokens with which some value starts. -/
def Viable (ts : List Token) : Prop := ∃ more, Value (ts ++ more)

/-- What is open can be closed. -/
theorem after_closers (nesting : List Bool) : After nesting (nesting.map closer) := by
  induction nesting with
  | nil => rfl
  | cons kind outer ih => exact ⟨[], outer.map closer, rfl, .none, ih⟩

theorem followsEnd_closers (kind : Bool) (outer : List Bool) :
    FollowsEnd kind outer ((kind :: outer).map closer) := ⟨outer.map closer, rfl, after_closers outer⟩

/-- A value, and then the ends of what is open. -/
theorem followsValue_closers (nesting : List Bool) :
    FollowsValue nesting (.scalar "null".toList :: nesting.map closer) :=
  ⟨_, _, rfl, .scalar _, after_closers nesting⟩

/-- **Every state that occurs can be completed.** -/
theorem exists_follows (hfits : m.Fits) : ∃ ts, Follows m.expecting m.nesting ts := by
  obtain ⟨expecting, nesting, kept⟩ := m
  cases expecting with
  | value => exact ⟨_, followsValue_closers nesting⟩
  | firstItem =>
    obtain ⟨outer, rfl⟩ := hfits
    exact ⟨_, followsStart_iff.mpr (.inl (followsEnd_closers false outer))⟩
  | nextItem =>
    obtain ⟨outer, rfl⟩ := hfits
    exact ⟨_, .inl (followsEnd_closers false outer)⟩
  | afterItem =>
    obtain ⟨outer, rfl⟩ := hfits
    exact ⟨_, after_closers (false :: outer)⟩
  | firstMember =>
    obtain ⟨outer, rfl⟩ := hfits
    exact ⟨_, followsStart_iff.mpr (.inl (followsEnd_closers true outer))⟩
  | nextMember =>
    obtain ⟨outer, rfl⟩ := hfits
    exact ⟨_, .inl (followsEnd_closers true outer)⟩
  | colon =>
    obtain ⟨outer, rfl⟩ := hfits
    exact ⟨_, _, rfl, followsValue_closers (true :: outer)⟩
  | afterMember =>
    obtain ⟨outer, rfl⟩ := hfits
    exact ⟨_, after_closers (true :: outer)⟩
  | onlyEnd =>
    obtain ⟨kind, outer, rfl⟩ := hfits
    exact ⟨_, followsEnd_closers kind outer⟩
  | nothing =>
    have hnone : nesting = [] := hfits
    subst hnone
    exact ⟨[], rfl⟩

theorem Machine.feed_append (m : Machine) (ts more : List Token) :
    m.feed (ts ++ more) = (m.feed ts).bind fun m' => m'.feed more := by
  induction ts generalizing m with
  | nil => rfl
  | cons t rest ih =>
    show (m.step t).bind (fun m' => m'.feed (rest ++ more)) = ((m.step t).bind fun m' => m'.feed rest).bind _
    rw [Option.bind_assoc]
    exact congrArg _ (funext ih)

/-- **The machine takes tokens as long as a value starts with them.** -/
theorem viable_iff_fed : Viable ts ↔ ∃ m, Machine.initial.feed ts = some m := by
  constructor
  · rintro ⟨more, hv⟩
    obtain ⟨m, hfeed, -⟩ := value_iff_accepted.mp hv
    rw [Machine.feed_append] at hfeed
    obtain ⟨m', hfeed', -⟩ := Option.bind_eq_some_iff.mp hfeed
    exact ⟨m', hfeed'⟩
  · rintro ⟨m, hfeed⟩
    have hfits := (Machine.fits_initial.feed hfeed).1
    obtain ⟨more, hfollows⟩ := exists_follows hfits
    obtain ⟨m', hmore, hend⟩ := (follows_iff_fed hfits).mp hfollows
    refine ⟨more, value_iff_accepted.mpr ⟨m', ?_, hend⟩⟩
    rw [Machine.feed_append, hfeed]
    exact hmore

/-! ## Kept tokens -/

theorem le_deepest (depth : Int) (ts : List Token) : depth ≤ deepest depth ts := by
  cases ts with
  | nil => exact Int.le_refl _
  | cons t rest => exact Int.le_max_left _ _

/-- A comma is no deeper than what stands around it. -/
theorem deepest_bare (depth : Int) (ts : List Token) : deepest depth (bare ts) = deepest depth ts := by
  induction ts generalizing depth with
  | nil => rfl
  | cons t rest ih =>
    by_cases ht : t = .comma
    · subst ht
      show deepest depth (bare rest) = max depth (deepest (depth + 0) rest)
      rw [ih, Int.add_zero, Int.max_eq_right (le_deepest depth rest)]
    · unfold bare
      rw [List.filter_cons_of_pos (by simpa using ht)]
      show max depth (deepest _ (bare rest)) = _
      rw [ih]
      rfl

/-- **What is kept is as deep as what was read**, trailing commas or not. -/
theorem deepest_kept (h : Machine.initial.feed ts = some m) : deepest 0 m.kept.reverse = deepest 0 ts := by
  have hkept := (Machine.fits_initial.feed h).2
  have hnone : Machine.initial.kept = [] := rfl
  rw [hnone, List.append_nil] at hkept
  have hsame : bare m.kept.reverse = bare ts := by
    unfold bare at hkept ⊢
    rw [List.filter_reverse, hkept, List.filter_reverse, List.reverse_reverse]
  rw [← deepest_bare 0 m.kept.reverse, hsame, deepest_bare]

end EditorServices.Commented
