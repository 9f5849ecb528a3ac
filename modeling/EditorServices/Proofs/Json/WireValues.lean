import EditorServices.Proofs.Json.Escapes
import EditorServices.Proofs.Json.Integers

/-!
# `Proofs.Json.WireValues` — the text of a message is read as the message

Reading undoes writing for every value in which no number is a floating-point one and no object has a name
twice, as far as the limits of the reader reach.

## Contents
- **Values.** `Json.Taken`: the values that a reader takes.
- **Layout.** What the wire writes, part by part; `Taken.ascii` and `Taken.head`.
- **Reading.** `ReadsBack`, for items, members, and by induction for values: `Taken.readsBack`.
- **Whole texts.** `Taken.readWire_print`.
-/

namespace EditorServices

open Json (printAt printItems printMembers)

/-! ## Values -/

/-- The values that a reader takes: null, truth values, integers, strings, arrays, and objects of distinct
names. Integers have at most some number of digits, and at most some number of arrays and objects is open
at once, if these are limited. -/
inductive Json.Taken (digits : Option Nat) : Option Nat → Json → Prop
  | null {depth : Option Nat} : Taken digits depth .null
  | bool {depth : Option Nat} (b : Bool) : Taken digits depth (.bool b)
  | int {depth : Option Nat} {n : Int} (few : ∀ k ∈ digits, digitsOf n ≤ k) : Taken digits depth (.int n)
  | str {depth : Option Nat} (s : String) : Taken digits depth (.str s)
  | arr {depth : Option Nat} {xs : List Json} (room : depth ≠ some 0)
      (items : ∀ x ∈ xs, Taken digits (depth.map (· - 1)) x) : Taken digits depth (.arr xs)
  | obj {depth : Option Nat} {ms : List (String × Json)} (room : depth ≠ some 0)
      (distinct : (ms.map Prod.fst).Nodup)
      (values : ∀ p ∈ ms, Taken digits (depth.map (· - 1)) p.2) : Taken digits depth (.obj ms)

open Json (Taken)

variable {digits depth maxDepth : Option Nat} {v x : Json} {xs : List Json} {k : String}
  {ms : List (String × Json)} {rest q : List Char}

/-- Who takes a value within limits takes it without any. -/
theorem Json.Taken.unlimited (h : Taken digits depth v) : Taken none none v := by
  induction h with
  | null => exact .null
  | bool b => exact .bool b
  | int few => exact .int fun k hk => by cases hk
  | str s => exact .str s
  | arr room _ ih => exact .arr (by decide) ih
  | obj room distinct _ ih => exact .obj (by decide) distinct ih

/-! ## Layout -/

/-- The characters of a string on the wire, with the quote that closes it. -/
def closedText (s : String) : List Char := PrintStyle.wire.escape s.toList ++ ['"']

/-- The items of an array after its bracket. -/
def itemsText (level : Nat) (x : Json) (xs : List Json) : List Char :=
  printAt .wire level x ++ (printItems .wire level xs ++ [']'])

/-- A member of an object, from the character after its first quote on, with what comes after it. -/
def memberText (level : Nat) (k : String) (x : Json) (more : List Char) : List Char :=
  closedText k ++ ':' :: (printAt .wire level x ++ more)

/-- The members of an object after its brace and a quote. -/
def membersText (level : Nat) (k : String) (x : Json) (ms : List (String × Json)) : List Char :=
  memberText level k x (printMembers .wire level ms ++ ['}'])

theorem printAt_arr (level : Nat) (x : Json) (xs : List Json) :
    printAt .wire level (.arr (x :: xs)) = '[' :: itemsText (level + 1) x xs := by
  simp [printAt, itemsText, PrintStyle.lineBreak, PrintStyle.wire]

theorem printAt_obj (level : Nat) (k : String) (x : Json) (ms : List (String × Json)) :
    printAt .wire level (.obj ((k, x) :: ms)) = '{' :: '"' :: membersText (level + 1) k x ms := by
  simp [printAt, membersText, memberText, closedText, PrintStyle.lineBreak, PrintStyle.quote,
    PrintStyle.wire]

theorem itemsText_nil (level : Nat) (x : Json) : itemsText level x [] = printAt .wire level x ++ [']'] := rfl

theorem itemsText_cons (level : Nat) (x y : Json) (ys : List Json) :
    itemsText level x (y :: ys) = printAt .wire level x ++ ',' :: itemsText level y ys := by
  simp [printItems, itemsText, PrintStyle.separator, PrintStyle.wire]

theorem membersText_nil (level : Nat) (k : String) (x : Json) :
    membersText level k x [] = memberText level k x ['}'] := rfl

theorem membersText_cons (level : Nat) (k k' : String) (x y : Json) (ms : List (String × Json)) :
    membersText level k x ((k', y) :: ms) = memberText level k x (',' :: '"' :: membersText level k' y ms) := by
  simp [printMembers, membersText, memberText, closedText, PrintStyle.separator, PrintStyle.quote,
    PrintStyle.wire]

theorem memberText_append (level : Nat) (k : String) (x : Json) (s t : List Char) :
    memberText level k x s ++ t = memberText level k x (s ++ t) := by
  simp only [memberText, List.append_assoc, List.cons_append]

theorem length_memberText (level : Nat) (k : String) (x : Json) (s : List Char) :
    (memberText level k x s).length =
      (closedText k).length + (printAt .wire level x).length + s.length + 1 := by
  simp only [memberText, List.length_append, List.length_cons]
  omega

/-- A character of an integer is a digit or the sign. -/
theorem mem_intDigits {n : Int} {c : Char} (h : c ∈ intDigits n) : c = '-' ∨ isDigit c = true := by
  unfold intDigits at h
  by_cases hn : n < 0
  · rw [if_pos hn] at h
    exact (List.mem_cons.mp h).imp id isDigit_of_mem
  · rw [if_neg hn] at h
    exact Or.inr (isDigit_of_mem h)

theorem intDigits_ne_nil (n : Int) : intDigits n ≠ [] := by
  unfold intDigits
  by_cases hn : n < 0
  · rw [if_pos hn]
    exact List.cons_ne_nil _ _
  · rw [if_neg hn]
    exact decimalDigits_ne_nil _

/-- Only ASCII characters. -/
def IsAscii (s : List Char) : Prop := ∀ c ∈ s, c.toNat < 128

instance (s : List Char) : Decidable (IsAscii s) := List.decidableBAll _ s

theorem IsAscii.cons {c : Char} {s : List Char} (hc : c.toNat < 128) (hs : IsAscii s) : IsAscii (c :: s) := by
  intro d hd
  rcases List.mem_cons.mp hd with rfl | hd
  · exact hc
  · exact hs d hd

theorem IsAscii.append {s t : List Char} (hs : IsAscii s) (ht : IsAscii t) : IsAscii (s ++ t) := by
  intro c hc
  rcases List.mem_append.mp hc with hc | hc
  · exact hs c hc
  · exact ht c hc

theorem isAscii_closedText (s : String) : IsAscii (closedText s) := by
  refine IsAscii.append ?_ (by decide)
  intro c hc
  obtain ⟨d, -, hd⟩ := List.mem_flatMap.mp hc
  exact (escaped_wire d).ascii c hd

theorem isAscii_decimalDigits (n : Nat) : IsAscii (decimalDigits n) := by
  intro c hc
  have hrange := isDigit_iff.mp (isDigit_of_mem hc)
  omega

theorem isAscii_itemsText {level : Nat} (h : ∀ y ∈ x :: xs, IsAscii (printAt .wire level y)) :
    IsAscii (itemsText level x xs) := by
  induction xs generalizing x with
  | nil => exact (h x List.mem_cons_self).append (show IsAscii [']'] by decide)
  | cons y ys ih =>
    rw [itemsText_cons]
    have hmore := ih fun z hz => h z (List.mem_cons_of_mem x hz)
    exact (h x List.mem_cons_self).append (.cons (by decide) hmore)

theorem isAscii_memberText {level : Nat} {s : List Char} (h : IsAscii (printAt .wire level x))
    (hs : IsAscii s) : IsAscii (memberText level k x s) :=
  (isAscii_closedText k).append (.cons (by decide) (h.append hs))

theorem isAscii_membersText {level : Nat} (h : ∀ p ∈ (k, x) :: ms, IsAscii (printAt .wire level p.2)) :
    IsAscii (membersText level k x ms) := by
  induction ms generalizing k x with
  | nil => exact isAscii_memberText (h (k, x) List.mem_cons_self) (show IsAscii ['}'] by decide)
  | cons p ms ih =>
    obtain ⟨k', y⟩ := p
    rw [membersText_cons]
    have hmore := ih fun p hp => h p (List.mem_cons_of_mem (k, x) hp)
    exact isAscii_memberText (h (k, x) List.mem_cons_self) (.cons (by decide) (.cons (by decide) hmore))

/-- **On the wire a value has ASCII characters only.** -/
theorem Json.Taken.ascii (h : Taken digits depth v) (level : Nat) : IsAscii (printAt .wire level v) := by
  induction h generalizing level with
  | null => exact show IsAscii ['n', 'u', 'l', 'l'] by decide
  | bool b =>
    cases b with
    | true => exact show IsAscii ['t', 'r', 'u', 'e'] by decide
    | false => exact show IsAscii ['f', 'a', 'l', 's', 'e'] by decide
  | @int _ n few =>
    intro c hc
    rcases mem_intDigits hc with rfl | hdigit
    · decide
    · have hrange := isDigit_iff.mp hdigit
      omega
  | str s => exact .cons (by decide) (isAscii_closedText s)
  | @arr _ xs _ _ ih =>
    cases xs with
    | nil => exact show IsAscii ['[', ']'] by decide
    | cons x xs =>
      rw [printAt_arr]
      exact .cons (by decide) (isAscii_itemsText fun y hy => ih y hy (level + 1))
  | @obj _ ms _ _ _ ih =>
    cases ms with
    | nil => exact show IsAscii ['{', '}'] by decide
    | cons p ms =>
      obtain ⟨k, x⟩ := p
      rw [printAt_obj]
      exact .cons (by decide) (.cons (by decide) (isAscii_membersText fun p hp => ih p hp (level + 1)))

/-- A value starts with a character that is neither blank nor a closing bracket. -/
theorem Json.Taken.head (h : Taken digits depth v) (level : Nat) :
    ∃ c r, printAt .wire level v = c :: r ∧ isJsonBlank c = false ∧ c ≠ ']' := by
  cases h with
  | null => exact ⟨_, _, rfl, rfl, by decide⟩
  | bool b =>
    cases b with
    | true => exact ⟨_, _, rfl, rfl, by decide⟩
    | false => exact ⟨_, _, rfl, rfl, by decide⟩
  | @int _ n few =>
    obtain ⟨c, r, hcr⟩ := List.exists_cons_of_ne_nil (intDigits_ne_nil n)
    refine ⟨c, r, hcr, ?_⟩
    have hmem : c ∈ intDigits n := hcr ▸ List.mem_cons_self
    rcases mem_intDigits hmem with rfl | hdigit
    · decide
    · have hrange := isDigit_iff.mp hdigit
      refine ⟨?_, ?_⟩
      · unfold isJsonBlank
        simp only [Bool.or_eq_false_iff, beq_eq_false_iff_ne]
        refine ⟨⟨⟨?_, ?_⟩, ?_⟩, ?_⟩
        all_goals
          rintro rfl
          revert hrange
          decide
      · rintro rfl
        revert hrange
        decide
  | str s => exact ⟨_, _, rfl, rfl, by decide⟩
  | @arr _ xs _ _ =>
    cases xs with
    | nil => exact ⟨_, _, rfl, rfl, by decide⟩
    | cons x xs => exact ⟨_, _, printAt_arr level x xs, rfl, by decide⟩
  | @obj _ ms _ _ _ =>
    cases ms with
    | nil => exact ⟨_, _, rfl, rfl, by decide⟩
    | cons p ms => exact ⟨_, _, printAt_obj level p.1 p.2 ms, rfl, by decide⟩

/-! ## Reading -/

theorem skipBlanks_cons {c : Char} (hc : isJsonBlank c = false) (r : List Char) :
    skipBlanks (c :: r) = c :: r := by
  unfold skipBlanks
  rw [List.dropWhile_cons, if_neg]
  rw [hc]
  exact Bool.false_ne_true

/-- Nothing is skipped before a value. -/
theorem Json.Taken.skipBlanks_eq (h : Taken digits depth v) (level : Nat) (r : List Char) :
    skipBlanks (printAt .wire level v ++ r) = printAt .wire level v ++ r := by
  obtain ⟨c, r', hcr, hblank, -⟩ := h.head level
  rw [hcr]
  exact skipBlanks_cons hblank _

theorem endsNumber_comma (r : List Char) : EndsNumber (',' :: r) := by
  intro c hc
  cases hc
  decide

theorem endsNumber_bracket (r : List Char) : EndsNumber (']' :: r) := by
  intro c hc
  cases hc
  decide

theorem endsNumber_brace (r : List Char) : EndsNumber ('}' :: r) := by
  intro c hc
  cases hc
  decide

section

variable {d : Dialect} {fuel : Nat} {r s t : List Char}

/-- The last item of an array. -/
theorem readItems_last (hread : readValue d depth fuel s = .ok (x, ']' :: rest)) :
    readItems d depth (fuel + 1) s = .ok ([x], rest) := by
  have hskip : skipBlanks (']' :: rest) = ']' :: rest := skipBlanks_cons rfl rest
  simp only [readItems, hread, bind, Except.bind, hskip]

/-- An item of an array with others after it. -/
theorem readItems_next (hread : readValue d depth fuel s = .ok (x, ',' :: t)) :
    readItems d depth (fuel + 1) s =
      (readItems d depth fuel (skipBlanks t)).map fun (xs, rest) => (x :: xs, rest) := by
  have hskip : skipBlanks (',' :: t) = ',' :: t := skipBlanks_cons rfl t
  simp only [readItems, hread, bind, Except.bind, hskip]
  cases readItems d depth fuel (skipBlanks t) with
  | error e => rfl
  | ok r => rfl

/-- The name of a member and the value after it. -/
theorem readMembers_last
    (hname : readString d.rawControls ('"' :: r) r = .ok (k.toList, ':' :: s))
    (hread : readValue d depth fuel (skipBlanks s) = .ok (x, '}' :: rest)) :
    readMembers d depth (fuel + 1) ('"' :: r) = .ok ([(k, x)], rest) := by
  have hcolon : skipBlanks (':' :: s) = ':' :: s := skipBlanks_cons rfl s
  have hskip : skipBlanks ('}' :: rest) = '}' :: rest := skipBlanks_cons rfl rest
  simp only [readMembers, hname, hcolon, hread, bind, Except.bind, hskip, String.ofList_toList]

/-- A member of an object with others after it. -/
theorem readMembers_next
    (hname : readString d.rawControls ('"' :: r) r = .ok (k.toList, ':' :: s))
    (hread : readValue d depth fuel (skipBlanks s) = .ok (x, ',' :: t)) :
    readMembers d depth (fuel + 1) ('"' :: r) =
      (readMembers d depth fuel (skipBlanks t)).map fun (ms, rest) => ((k, x) :: ms, rest) := by
  have hcolon : skipBlanks (':' :: s) = ':' :: s := skipBlanks_cons rfl s
  have hskip : skipBlanks (',' :: t) = ',' :: t := skipBlanks_cons rfl t
  simp only [readMembers, hname, hcolon, hread, bind, Except.bind, hskip, String.ofList_toList]
  cases readMembers d depth fuel (skipBlanks t) with
  | error e => rfl
  | ok r => rfl

end

/-- A value is read from its text, whatever follows that cannot go on a number. -/
def ReadsBack (digits maxDepth depth : Option Nat) (v : Json) : Prop :=
  ∀ level fuel rest, EndsNumber rest → (printAt .wire level v).length ≤ fuel →
    readValue (.wire digits maxDepth) depth fuel (printAt .wire level v ++ rest) = .ok (v, rest)

/-- Items are read from their text, up to the closing bracket. -/
theorem readItems_itemsText {level fuel : Nat} (htaken : ∀ y ∈ x :: xs, Taken digits depth y)
    (hreads : ∀ y ∈ x :: xs, ReadsBack digits maxDepth depth y)
    (hfuel : (itemsText level x xs).length ≤ fuel) (rest : List Char) :
    readItems (.wire digits maxDepth) depth fuel (itemsText level x xs ++ rest) = .ok (x :: xs, rest) := by
  induction xs generalizing x fuel with
  | nil =>
    rw [itemsText_nil, List.length_append, List.length_singleton] at hfuel
    obtain ⟨f, rfl⟩ : ∃ f, fuel = f + 1 := ⟨fuel - 1, by omega⟩
    have hread := hreads x List.mem_cons_self level f (']' :: rest) (endsNumber_bracket rest) (by omega)
    rw [itemsText_nil, List.append_assoc]
    exact readItems_last hread
  | cons y ys ih =>
    rw [itemsText_cons, List.length_append, List.length_cons] at hfuel
    obtain ⟨f, rfl⟩ : ∃ f, fuel = f + 1 := ⟨fuel - 1, by omega⟩
    have hread := hreads x List.mem_cons_self level f (',' :: (itemsText level y ys ++ rest))
      (endsNumber_comma _) (by omega)
    have hfew : (itemsText level y ys).length ≤ f := by omega
    have hmore := ih (fun z hz => htaken z (List.mem_cons_of_mem x hz))
      (fun z hz => hreads z (List.mem_cons_of_mem x hz)) hfew
    have hskip : skipBlanks (itemsText level y ys ++ rest) = itemsText level y ys ++ rest := by
      unfold itemsText
      rw [List.append_assoc]
      exact (htaken y (List.mem_cons_of_mem x List.mem_cons_self)).skipBlanks_eq level _
    rw [itemsText_cons, List.append_assoc, List.cons_append, readItems_next hread, hskip, hmore]
    rfl

/-- The name of a member is read up to its colon. -/
theorem readString_memberText (level : Nat) (k : String) (x : Json) (opening s : List Char) :
    readString true opening (memberText level k x s) =
      .ok (k.toList, ':' :: (printAt .wire level x ++ s)) := by
  have hread := readString_escape k.toList opening (':' :: (printAt .wire level x ++ s))
  simpa only [memberText, closedText, List.append_assoc, List.cons_append, List.nil_append] using hread

/-- Members are read from their text, up to the closing brace. -/
theorem readMembers_membersText {level fuel : Nat} (htaken : ∀ p ∈ (k, x) :: ms, Taken digits depth p.2)
    (hreads : ∀ p ∈ (k, x) :: ms, ReadsBack digits maxDepth depth p.2)
    (hfuel : (membersText level k x ms).length ≤ fuel) (rest : List Char) :
    readMembers (.wire digits maxDepth) depth fuel ('"' :: (membersText level k x ms ++ rest)) =
      .ok ((k, x) :: ms, rest) := by
  induction ms generalizing k x fuel with
  | nil =>
    have hx : Taken digits depth x := htaken (k, x) List.mem_cons_self
    have hback : ReadsBack digits maxDepth depth x := hreads (k, x) List.mem_cons_self
    rw [membersText_nil, length_memberText, List.length_singleton] at hfuel
    obtain ⟨f, rfl⟩ : ∃ f, fuel = f + 1 := ⟨fuel - 1, by omega⟩
    have hread := hback level f ('}' :: rest) (endsNumber_brace rest) (by omega)
    rw [← hx.skipBlanks_eq] at hread
    rw [membersText_nil, memberText_append]
    exact readMembers_last (readString_memberText level k x _ _) hread
  | cons p ms ih =>
    obtain ⟨k', y⟩ := p
    have hx : Taken digits depth x := htaken (k, x) List.mem_cons_self
    have hback : ReadsBack digits maxDepth depth x := hreads (k, x) List.mem_cons_self
    rw [membersText_cons, length_memberText, List.length_cons, List.length_cons] at hfuel
    obtain ⟨f, rfl⟩ : ∃ f, fuel = f + 1 := ⟨fuel - 1, by omega⟩
    have hfew : (membersText level k' y ms).length ≤ f := by omega
    have hread := hback level f (',' :: '"' :: (membersText level k' y ms ++ rest)) (endsNumber_comma _)
      (by omega)
    have hmore := ih (fun z hz => htaken z (List.mem_cons_of_mem (k, x) hz))
      (fun z hz => hreads z (List.mem_cons_of_mem (k, x) hz)) hfew
    rw [← hx.skipBlanks_eq] at hread
    rw [membersText_cons, memberText_append, List.cons_append, List.cons_append,
      readMembers_next (readString_memberText level k x _ _) hread, skipBlanks_cons rfl, hmore]
    rfl

/-- A text starts with a digit, or with a sign that does not belong to a word. -/
def StartsNumber (s : List Char) : Prop :=
  ∃ c r, s = c :: r ∧ (isDigit c = true ∨ c = '-' ∧ r.head? ≠ some 'I')

/-- What there is of an integer, from its first character on. -/
theorem startsNumber_of_intDigits {n : Int} (hq : q <+: intDigits n) (hne : q ≠ []) (hrest : EndsNumber rest) :
    StartsNumber (q ++ rest) := by
  unfold intDigits at hq
  by_cases hn : n < 0
  · rw [if_pos hn] at hq
    rcases List.prefix_cons_iff.mp hq with rfl | ⟨ds, rfl, hds⟩
    · exact absurd rfl hne
    refine ⟨'-', ds ++ rest, rfl, Or.inr ⟨rfl, ?_⟩⟩
    intro hhead
    cases ds with
    | nil => exact (hrest 'I' hhead).2.2.2.2 rfl
    | cons d ds =>
      cases hhead
      exact absurd (isDigit_of_mem (hds.subset List.mem_cons_self)) (by decide)
  · rw [if_neg hn] at hq
    obtain ⟨d, ds, rfl⟩ := List.exists_cons_of_ne_nil hne
    exact ⟨d, ds ++ rest, rfl, Or.inl (isDigit_of_mem (hq.subset List.mem_cons_self))⟩

/-- The words, letter by letter. -/
theorem jsonWords_eq : jsonWords = [(['n', 'u', 'l', 'l'], .null), (['t', 'r', 'u', 'e'], .bool true),
    (['f', 'a', 'l', 's', 'e'], .bool false), (['N', 'a', 'N'], .float Binary64.nan),
    (['I', 'n', 'f', 'i', 'n', 'i', 't', 'y'], .float (Binary64.infinity false)),
    (['-', 'I', 'n', 'f', 'i', 'n', 'i', 't', 'y'], .float (Binary64.infinity true))] := rfl

theorem StartsNumber.readWord {s : List Char} (h : StartsNumber s) : readWord s = none := by
  obtain ⟨c, r, rfl, hc⟩ := h
  -- no word starts with a digit, and the one that starts with a sign has a letter next
  have hletter : ∀ l, isDigit l = false → l ≠ '-' → (l == c) = false := by
    intro l hdigit hminus
    refine beq_eq_false_iff_ne.mpr ?_
    rintro rfl
    rcases hc with hl | ⟨hl, -⟩
    · rw [hdigit] at hl
      cases hl
    · exact hminus hl
  have hinfinity : (['-', 'I', 'n', 'f', 'i', 'n', 'i', 't', 'y'] : List Char).isPrefixOf (c :: r) = false := by
    refine Bool.eq_false_iff.mpr fun hprefix => ?_
    obtain ⟨t, ht⟩ := List.isPrefixOf_iff_prefix.mp hprefix
    obtain ⟨hminus, hr⟩ := List.cons.inj ht
    rcases hc with hc | ⟨-, hhead⟩
    · rw [← hminus] at hc
      cases hc
    · refine hhead ?_
      rw [← hr]
      rfl
  unfold EditorServices.readWord
  rw [jsonWords_eq]
  simp only [List.findSome?_cons, List.findSome?_nil, hinfinity]
  simp only [List.isPrefixOf_cons_cons, hletter 'n' rfl (by decide), hletter 't' rfl (by decide),
    hletter 'f' rfl (by decide), hletter 'N' rfl (by decide), hletter 'I' rfl (by decide), Bool.false_and,
    Bool.false_eq_true, if_false]

/-- A number is neither a word nor the start of something in quotes or brackets. -/
theorem readValue_of_startsNumber {fuel : Nat} {s : List Char} (h : StartsNumber s) :
    readValue (.wire digits maxDepth) depth (fuel + 1) s = match readLooseNumber digits s with
      | some (.ok v, rest) => .ok (v, rest)
      | some (.error fault, _) => .error ⟨fault, s⟩
      | none => .error ⟨.expectingValue, s⟩ := by
  have hword := h.readWord
  obtain ⟨c, r, rfl, hc⟩ := h
  have hquote : c ≠ '"' ∧ c ≠ '[' ∧ c ≠ '{' := by
    refine ⟨?_, ?_, ?_⟩
    all_goals
      rintro rfl
      rcases hc with hc | ⟨hc, -⟩ <;> cases hc
  rw [readValue]
  · rw [hword]
    rfl
  · intro r' heq
    exact hquote.1 (List.cons.inj heq).1
  · intro r' heq
    exact hquote.2.1 (List.cons.inj heq).1
  · intro r' heq
    exact hquote.2.2 (List.cons.inj heq).1

/-- A text starts with nothing that is skipped, and not with some bracket. -/
def StartsWithout (bracket : Char) (s : List Char) : Prop :=
  ∀ c ∈ s.head?, isJsonBlank c = false ∧ c ≠ bracket

theorem StartsWithout.skipBlanks {bracket : Char} {s : List Char} (h : StartsWithout bracket s) :
    skipBlanks s = s := by
  cases s with
  | nil => rfl
  | cons c s => exact skipBlanks_cons (h c rfl).1 s

/-- An array that is not empty. -/
theorem readValue_items {d : Dialect} {fuel : Nat} {s : List Char} (room : depth ≠ some 0)
    (hs : StartsWithout ']' s) :
    readValue d depth (fuel + 1) ('[' :: s) =
      (readItems d (depth.map (· - 1)) fuel s).map fun (xs, rest) => (.arr xs, rest) := by
  rw [readValue, if_neg room, hs.skipBlanks]
  split
  · next rest =>
    exact absurd rfl (hs ']' rfl).2
  · cases readItems d (depth.map (· - 1)) fuel s with
    | error e => rfl
    | ok r => rfl

/-- An object that is not empty. -/
theorem readValue_members {d : Dialect} {fuel : Nat} {s : List Char} (room : depth ≠ some 0)
    (hs : StartsWithout '}' s) :
    readValue d depth (fuel + 1) ('{' :: s) =
      (readMembers d (depth.map (· - 1)) fuel s).map fun (ms, rest) => (.obj (Named.ofPairs ms), rest) := by
  rw [readValue, if_neg room, hs.skipBlanks]
  split
  · next rest =>
    exact absurd rfl (hs '}' rfl).2
  · cases readMembers d (depth.map (· - 1)) fuel s with
    | error e => rfl
    | ok r => rfl

/-- What there is of a value and more starts as the value does. -/
theorem Json.Taken.startsWithout (h : Taken digits depth v) {level : Nat} {t : List Char}
    (hq : q <+: printAt .wire level v ++ t) : StartsWithout ']' q := by
  intro c hc
  obtain ⟨d, r, hdr, hblank, hbracket⟩ := h.head level
  cases q with
  | nil => cases hc
  | cons c' q =>
    cases hc
    rw [hdr] at hq
    obtain ⟨u, hu⟩ := hq
    obtain ⟨rfl, -⟩ := List.cons.inj hu
    exact ⟨hblank, hbracket⟩

theorem startsWithout_quote (r : List Char) : StartsWithout '}' ('"' :: r) := by
  intro c hc
  cases hc
  decide

/-- **A value is read from its text.** -/
theorem Json.Taken.readsBack (h : Taken digits depth v) : ReadsBack digits maxDepth depth v := by
  induction h with
  | null =>
    intro level fuel rest _ hfuel
    obtain ⟨f, rfl⟩ : ∃ f, fuel = f + 1 := Nat.exists_eq_succ_of_ne_zero (Nat.ne_zero_of_lt hfuel)
    rfl
  | bool b =>
    intro level fuel rest _ hfuel
    cases b with
    | true =>
      obtain ⟨f, rfl⟩ : ∃ f, fuel = f + 1 := Nat.exists_eq_succ_of_ne_zero (Nat.ne_zero_of_lt hfuel)
      rfl
    | false =>
      obtain ⟨f, rfl⟩ : ∃ f, fuel = f + 1 := Nat.exists_eq_succ_of_ne_zero (Nat.ne_zero_of_lt hfuel)
      rfl
  | @int _ n few =>
    intro level fuel rest hrest hfuel
    have hpos : 0 < (intDigits n).length := List.length_pos_iff.mpr (intDigits_ne_nil n)
    have hle : (intDigits n).length ≤ fuel := hfuel
    obtain ⟨f, rfl⟩ : ∃ f, fuel = f + 1 := ⟨fuel - 1, by omega⟩
    show readValue _ _ (f + 1) (intDigits n ++ rest) = _
    rw [readValue_of_startsNumber (startsNumber_of_intDigits List.prefix_rfl (intDigits_ne_nil n) hrest),
      readLooseNumber_intDigits few hrest]
  | str s =>
    intro level fuel rest _ hfuel
    obtain ⟨f, rfl⟩ : ∃ f, fuel = f + 1 := Nat.exists_eq_succ_of_ne_zero (Nat.ne_zero_of_lt hfuel)
    have hread := readString_escape s.toList ('"' :: (closedText s ++ rest)) rest
    have hclosed : PrintStyle.wire.escape s.toList ++ '"' :: rest = closedText s ++ rest := by
      rw [closedText, List.append_assoc, List.singleton_append]
    rw [hclosed] at hread
    have hraw : (Dialect.wire digits maxDepth).rawControls = true := rfl
    show readValue _ _ (f + 1) ('"' :: (closedText s ++ rest)) = _
    rw [readValue, hraw, hread]
    show Except.ok (Json.str (String.ofList s.toList), rest) = _
    rw [String.ofList_toList]
  | @arr depth xs room taken ih =>
    intro level fuel rest _ hfuel
    cases xs with
    | nil =>
      obtain ⟨f, rfl⟩ : ∃ f, fuel = f + 1 := Nat.exists_eq_succ_of_ne_zero (Nat.ne_zero_of_lt hfuel)
      show readValue _ _ (f + 1) ('[' :: ']' :: rest) = _
      rw [readValue, if_neg room, skipBlanks_cons rfl]
      rfl
    | cons x xs =>
      rw [printAt_arr, List.length_cons] at hfuel
      obtain ⟨f, rfl⟩ : ∃ f, fuel = f + 1 := ⟨fuel - 1, by omega⟩
      have hfew : (itemsText (level + 1) x xs).length ≤ f := Nat.le_of_succ_le_succ hfuel
      have hitems := readItems_itemsText taken ih hfew rest
      have hstart : StartsWithout ']' (itemsText (level + 1) x xs ++ rest) := by
        rw [itemsText, List.append_assoc]
        exact (taken x List.mem_cons_self).startsWithout List.prefix_rfl
      rw [printAt_arr, List.cons_append, readValue_items room hstart, hitems]
      rfl
  | @obj depth ms room distinct taken ih =>
    intro level fuel rest _ hfuel
    cases ms with
    | nil =>
      obtain ⟨f, rfl⟩ : ∃ f, fuel = f + 1 := Nat.exists_eq_succ_of_ne_zero (Nat.ne_zero_of_lt hfuel)
      show readValue _ _ (f + 1) ('{' :: '}' :: rest) = _
      rw [readValue, if_neg room, skipBlanks_cons rfl]
      rfl
    | cons p ms =>
      obtain ⟨k, x⟩ := p
      rw [printAt_obj, List.length_cons, List.length_cons] at hfuel
      obtain ⟨f, rfl⟩ : ∃ f, fuel = f + 1 := ⟨fuel - 1, by omega⟩
      have hfew : (membersText (level + 1) k x ms).length ≤ f := by omega
      have hmembers := readMembers_membersText taken ih hfew rest
      rw [printAt_obj, List.cons_append, List.cons_append, readValue_members room (startsWithout_quote _),
        hmembers]
      show Except.ok (Json.obj (Named.ofPairs ((k, x) :: ms)), rest) = _
      rw [Named.ofPairs_of_nodup distinct]

/-! ## Whole texts -/

/-- **The text of a value is read as the value.** -/
theorem Json.Taken.readWire_print (h : Taken digits depth v) :
    Json.readWire digits depth (printAt .wire 0 v) = some v := by
  have hskip : skipBlanks (printAt .wire 0 v ++ []) = printAt .wire 0 v ++ [] := h.skipBlanks_eq 0 []
  have hread : readValue (.wire digits depth) depth ((printAt .wire 0 v).length + 1)
      (printAt .wire 0 v ++ []) = .ok (v, []) :=
    h.readsBack 0 _ [] endsNumber_nil (Nat.le_succ _)
  rw [List.append_nil] at hskip hread
  have hlimit : (Dialect.wire digits depth).maxDepth = depth := rfl
  have hnone : skipBlanks [] = [] := rfl
  unfold Json.readWire Json.readAll
  simp only [hskip, hlimit, hread, hnone, bind, Except.bind, Except.toOption]

end EditorServices
