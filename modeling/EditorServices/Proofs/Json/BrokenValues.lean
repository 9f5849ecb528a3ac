import EditorServices.Proofs.Json.WireValues

/-!
# `Proofs.Json.BrokenValues` — a message that breaks off is not read

An array or an object whose bracket is missing is refused. Of every other value that breaks off nothing is
left over, whatever it is read as, so that the reader misses what should follow.

## Contents
- **Arrays and objects.** `readItems_cut`, `readMembers_cut`, and from them `readValue_cut_arr` and
  `readValue_cut_obj`.
- **Values.** `LeavesNothing`, and by induction `Taken.leavesNothing`.
- **Whole texts.** How much fuel there is makes no difference, and so `Taken.readWire_cut`.
-/

namespace EditorServices

open Json (Taken printAt printItems printMembers)

variable {digits depth maxDepth : Option Nat} {v x : Json} {xs : List Json} {k : String}
  {ms : List (String × Json)} {rest q : List Char}

/-! ## Arrays and objects -/

/-- If a value is read from a text that breaks off, nothing is left after it. -/
def LeavesNothing (digits maxDepth depth : Option Nat) (v : Json) : Prop :=
  ∀ level fuel q, q <+: printAt .wire level v → (printAt .wire level v).length ≤ fuel →
    ∀ w rest, readValue (.wire digits maxDepth) depth fuel q = .ok (w, rest) → rest = []

section

variable {d : Dialect} {fuel : Nat} {r s : List Char}

/-- After an item nothing comes, not even a bracket. -/
theorem fails_readItems (h : ∀ w rest, readValue d depth fuel s = .ok (w, rest) → rest = []) :
    Fails (readItems d depth (fuel + 1) s) := by
  cases hread : readValue d depth fuel s with
  | error e =>
    refine ⟨e, ?_⟩
    simp only [readItems, hread, bind, Except.bind]
  | ok p =>
    obtain ⟨w, rest⟩ := p
    rw [h w rest hread] at hread
    refine ⟨⟨.expectingComma, []⟩, ?_⟩
    have hskip : skipBlanks [] = [] := rfl
    simp only [readItems, hread, bind, Except.bind, hskip]

/-- After the value of a member nothing comes, not even a brace. -/
theorem fails_readMembers (hname : readString d.rawControls ('"' :: r) r = .ok (k.toList, ':' :: s))
    (h : ∀ w rest, readValue d depth fuel (skipBlanks s) = .ok (w, rest) → rest = []) :
    Fails (readMembers d depth (fuel + 1) ('"' :: r)) := by
  have hcolon : skipBlanks (':' :: s) = ':' :: s := skipBlanks_cons rfl s
  cases hread : readValue d depth fuel (skipBlanks s) with
  | error e =>
    refine ⟨e, ?_⟩
    simp only [readMembers, hname, hcolon, hread, bind, Except.bind]
  | ok p =>
    obtain ⟨w, rest⟩ := p
    rw [h w rest hread] at hread
    refine ⟨⟨.expectingComma, []⟩, ?_⟩
    have hskip : skipBlanks [] = [] := rfl
    simp only [readMembers, hname, hcolon, hread, bind, Except.bind, hskip]

end

/-- **Items without their bracket are not read.** -/
theorem readItems_cut {level fuel : Nat} (htaken : ∀ y ∈ x :: xs, Taken digits depth y)
    (hcut : ∀ y ∈ x :: xs, LeavesNothing digits maxDepth depth y)
    (hfuel : (itemsText level x xs).length ≤ fuel) (hq : q <+: itemsText level x xs)
    (hne : q ≠ itemsText level x xs) : Fails (readItems (.wire digits maxDepth) depth fuel q) := by
  induction xs generalizing x fuel q with
  | nil =>
    rw [itemsText_nil] at hfuel hq hne
    rw [List.length_append, List.length_singleton] at hfuel
    obtain ⟨f, rfl⟩ : ∃ f, fuel = f + 1 := ⟨fuel - 1, by omega⟩
    rcases cut_append hq with hq | ⟨q', hq'ne, rfl, hq'⟩
    · exact fails_readItems (hcut x List.mem_cons_self level f q hq (by omega))
    · -- after the item comes the bracket, and then the text is whole
      rcases List.prefix_cons_iff.mp hq' with rfl | ⟨q₁, rfl, hq₁⟩
      · exact absurd rfl hq'ne
      · rw [List.prefix_nil.mp hq₁] at hne
        exact absurd rfl hne
  | cons y ys ih =>
    rw [itemsText_cons] at hfuel hq hne
    rw [List.length_append, List.length_cons] at hfuel
    obtain ⟨f, rfl⟩ : ∃ f, fuel = f + 1 := ⟨fuel - 1, by omega⟩
    rcases cut_append hq with hq | ⟨q', hq'ne, rfl, hq'⟩
    · exact fails_readItems (hcut x List.mem_cons_self level f q hq (by omega))
    · rcases List.prefix_cons_iff.mp hq' with rfl | ⟨q₁, rfl, hq₁⟩
      · exact absurd rfl hq'ne
      · have hx : Taken digits depth x := htaken x List.mem_cons_self
        have hy : Taken digits depth y := htaken y (List.mem_cons_of_mem x List.mem_cons_self)
        have hread : readValue (.wire digits maxDepth) depth f (printAt .wire level x ++ ',' :: q₁) = _ :=
          hx.readsBack level f (',' :: q₁) (endsNumber_comma q₁) (by omega)
        have hfew : (itemsText level y ys).length ≤ f := by omega
        have hstart : StartsWithout ']' q₁ := hy.startsWithout hq₁
        obtain ⟨e, he⟩ := ih (fun z hz => htaken z (List.mem_cons_of_mem x hz))
          (fun z hz => hcut z (List.mem_cons_of_mem x hz)) hfew hq₁ (fun heq => hne (by rw [heq]))
        rw [readItems_next hread, hstart.skipBlanks, he]
        exact ⟨e, rfl⟩

/-- A member that breaks off is not read; if it does not, its value is there and something follows. -/
theorem readMembers_cut_member {level fuel : Nat} {s : List Char} (hx : Taken digits depth x)
    (hcut : LeavesNothing digits maxDepth depth x) (hfuel : (printAt .wire level x).length ≤ fuel)
    (hq : q <+: '"' :: memberText level k x s) :
    Fails (readMembers (.wire digits maxDepth) depth (fuel + 1) q) ∨
      ∃ q', q' ≠ [] ∧ q' <+: s ∧ q = '"' :: memberText level k x q' := by
  rcases List.prefix_cons_iff.mp hq with rfl | ⟨q₁, rfl, hq₁⟩
  · exact Or.inl ⟨_, rfl⟩
  rcases cut_append hq₁ with hq₁ | ⟨q₂, hne, rfl, hq₂⟩
  · -- the name breaks off, or there is nothing after it
    left
    by_cases hwhole : q₁ = closedText k
    · have hname : readString true ('"' :: q₁) q₁ = .ok (k.toList, []) := by
        rw [hwhole]
        exact readString_escape k.toList _ []
      refine ⟨⟨.expectingColon, []⟩, ?_⟩
      have hskip : skipBlanks [] = [] := rfl
      have hraw : (Dialect.wire digits maxDepth).rawControls = true := rfl
      simp only [readMembers, hraw, hname, hskip, bind, Except.bind]
    · obtain ⟨e, he⟩ := readString_cut k.toList ('"' :: q₁) hq₁ hwhole
      refine ⟨e, ?_⟩
      have hraw : (Dialect.wire digits maxDepth).rawControls = true := rfl
      simp only [readMembers, hraw, he, bind, Except.bind]
  rcases List.prefix_cons_iff.mp hq₂ with rfl | ⟨q₃, rfl, hq₃⟩
  · exact absurd rfl hne
  rcases cut_append hq₃ with hq₃ | ⟨q', hq'ne, rfl, hq'⟩
  · -- the value breaks off, or there is nothing after it
    left
    have hname : readString true ('"' :: (closedText k ++ ':' :: q₃)) (closedText k ++ ':' :: q₃) =
        .ok (k.toList, ':' :: q₃) := by
      have hread := readString_escape k.toList ('"' :: (closedText k ++ ':' :: q₃)) (':' :: q₃)
      simpa only [closedText, List.append_assoc, List.singleton_append] using hread
    have hstart : StartsWithout ']' q₃ := hx.startsWithout (hq₃.trans (List.prefix_append _ []))
    refine fails_readMembers hname ?_
    rw [hstart.skipBlanks]
    exact hcut level fuel q₃ hq₃ hfuel
  · exact Or.inr ⟨q', hq'ne, hq', rfl⟩

/-- **Members without their brace are not read.** -/
theorem readMembers_cut {level fuel : Nat} (htaken : ∀ p ∈ (k, x) :: ms, Taken digits depth p.2)
    (hcut : ∀ p ∈ (k, x) :: ms, LeavesNothing digits maxDepth depth p.2)
    (hfuel : (membersText level k x ms).length ≤ fuel) (hq : q <+: '"' :: membersText level k x ms)
    (hne : q ≠ '"' :: membersText level k x ms) :
    Fails (readMembers (.wire digits maxDepth) depth fuel q) := by
  induction ms generalizing k x fuel q with
  | nil =>
    rw [membersText_nil] at hfuel hq hne
    rw [length_memberText] at hfuel
    obtain ⟨f, rfl⟩ : ∃ f, fuel = f + 1 := ⟨fuel - 1, by omega⟩
    have hle : (printAt .wire level x).length ≤ f := by omega
    rcases readMembers_cut_member (htaken (k, x) List.mem_cons_self) (hcut (k, x) List.mem_cons_self)
      hle hq with hfails | ⟨q', hq'ne, hq', rfl⟩
    · exact hfails
    · -- after the value comes the brace, and then the text is whole
      rcases List.prefix_cons_iff.mp hq' with rfl | ⟨q₁, rfl, hq₁⟩
      · exact absurd rfl hq'ne
      · rw [List.prefix_nil.mp hq₁] at hne
        exact absurd rfl hne
  | cons p ms ih =>
    obtain ⟨k', y⟩ := p
    have hx : Taken digits depth x := htaken (k, x) List.mem_cons_self
    rw [membersText_cons] at hfuel hq hne
    rw [length_memberText, List.length_cons, List.length_cons] at hfuel
    obtain ⟨f, rfl⟩ : ∃ f, fuel = f + 1 := ⟨fuel - 1, by omega⟩
    have hle : (printAt .wire level x).length ≤ f := by omega
    rcases readMembers_cut_member hx (hcut (k, x) List.mem_cons_self) hle hq with
      hfails | ⟨q', hq'ne, hq', rfl⟩
    · exact hfails
    · rcases List.prefix_cons_iff.mp hq' with rfl | ⟨q₁, rfl, hq₁⟩
      · exact absurd rfl hq'ne
      · have hread : readValue (.wire digits maxDepth) depth f (printAt .wire level x ++ ',' :: q₁) = _ :=
          hx.readsBack level f (',' :: q₁) (endsNumber_comma q₁) (by omega)
        have hfew : (membersText level k' y ms).length ≤ f := by omega
        have hskip : skipBlanks q₁ = q₁ := by
          rcases List.prefix_cons_iff.mp hq₁ with rfl | ⟨q₂, rfl, -⟩
          · rfl
          · exact skipBlanks_cons rfl q₂
        obtain ⟨e, he⟩ := ih (fun z hz => htaken z (List.mem_cons_of_mem (k, x) hz))
          (fun z hz => hcut z (List.mem_cons_of_mem (k, x) hz)) hfew hq₁ (fun heq => hne (by rw [heq]))
        rw [← hx.skipBlanks_eq] at hread
        rw [readMembers_next (readString_memberText level k x _ _) hread, hskip, he]
        exact ⟨e, rfl⟩

theorem fails_readItems_nil (digits maxDepth depth : Option Nat) (fuel : Nat) :
    Fails (readItems (.wire digits maxDepth) depth fuel []) := by
  cases fuel with
  | zero => exact ⟨_, rfl⟩
  | succ f =>
    refine fails_readItems fun w rest hread => ?_
    cases f with
    | zero => cases hread
    | succ f => cases hread

theorem fails_readMembers_nil (digits maxDepth depth : Option Nat) (fuel : Nat) :
    Fails (readMembers (.wire digits maxDepth) depth fuel []) := by
  cases fuel with
  | zero => exact ⟨_, rfl⟩
  | succ f => exact ⟨_, rfl⟩

/-- **An array that breaks off is not read.** -/
theorem readValue_cut_arr {level fuel : Nat} (room : depth ≠ some 0)
    (htaken : ∀ y ∈ xs, Taken digits (depth.map (· - 1)) y)
    (hcut : ∀ y ∈ xs, LeavesNothing digits maxDepth (depth.map (· - 1)) y)
    (hfuel : (printAt .wire level (.arr xs)).length ≤ fuel) (hq : q <+: printAt .wire level (.arr xs))
    (hne : q ≠ printAt .wire level (.arr xs)) :
    Fails (readValue (.wire digits maxDepth) depth fuel q) := by
  cases xs with
  | nil =>
    obtain ⟨f, rfl⟩ : ∃ f, fuel = f + 1 := Nat.exists_eq_succ_of_ne_zero (Nat.ne_zero_of_lt hfuel)
    rcases List.prefix_cons_iff.mp hq with rfl | ⟨q₁, rfl, hq₁⟩
    · exact ⟨_, rfl⟩
    rcases List.prefix_cons_iff.mp hq₁ with rfl | ⟨q₂, rfl, hq₂⟩
    · obtain ⟨e, he⟩ := fails_readItems_nil digits maxDepth (depth.map (· - 1)) f
      rw [readValue_items room (fun c hc => by cases hc), he]
      exact ⟨e, rfl⟩
    · rw [List.prefix_nil.mp hq₂] at hne
      exact absurd rfl hne
  | cons x xs =>
    rw [printAt_arr] at hfuel hq hne
    rw [List.length_cons] at hfuel
    obtain ⟨f, rfl⟩ : ∃ f, fuel = f + 1 := ⟨fuel - 1, by omega⟩
    rcases List.prefix_cons_iff.mp hq with rfl | ⟨q₁, rfl, hq₁⟩
    · exact ⟨_, rfl⟩
    · have hstart : StartsWithout ']' q₁ := (htaken x List.mem_cons_self).startsWithout hq₁
      obtain ⟨e, he⟩ := readItems_cut htaken hcut (Nat.le_of_succ_le_succ hfuel) hq₁
        (fun heq => hne (by rw [heq]))
      rw [readValue_items room hstart, he]
      exact ⟨e, rfl⟩

/-- **An object that breaks off is not read.** -/
theorem readValue_cut_obj {level fuel : Nat} (room : depth ≠ some 0)
    (htaken : ∀ p ∈ ms, Taken digits (depth.map (· - 1)) p.2)
    (hcut : ∀ p ∈ ms, LeavesNothing digits maxDepth (depth.map (· - 1)) p.2)
    (hfuel : (printAt .wire level (.obj ms)).length ≤ fuel) (hq : q <+: printAt .wire level (.obj ms))
    (hne : q ≠ printAt .wire level (.obj ms)) :
    Fails (readValue (.wire digits maxDepth) depth fuel q) := by
  cases ms with
  | nil =>
    obtain ⟨f, rfl⟩ : ∃ f, fuel = f + 1 := Nat.exists_eq_succ_of_ne_zero (Nat.ne_zero_of_lt hfuel)
    rcases List.prefix_cons_iff.mp hq with rfl | ⟨q₁, rfl, hq₁⟩
    · exact ⟨_, rfl⟩
    rcases List.prefix_cons_iff.mp hq₁ with rfl | ⟨q₂, rfl, hq₂⟩
    · obtain ⟨e, he⟩ := fails_readMembers_nil digits maxDepth (depth.map (· - 1)) f
      rw [readValue_members room (fun c hc => by cases hc), he]
      exact ⟨e, rfl⟩
    · rw [List.prefix_nil.mp hq₂] at hne
      exact absurd rfl hne
  | cons p ms =>
    obtain ⟨k, x⟩ := p
    rw [printAt_obj] at hfuel hq hne
    rw [List.length_cons, List.length_cons] at hfuel
    obtain ⟨f, rfl⟩ : ∃ f, fuel = f + 1 := ⟨fuel - 1, by omega⟩
    rcases List.prefix_cons_iff.mp hq with rfl | ⟨q₁, rfl, hq₁⟩
    · exact ⟨_, rfl⟩
    · have hfew : (membersText (level + 1) k x ms).length ≤ f := by omega
      have hstart : StartsWithout '}' q₁ := by
        rcases List.prefix_cons_iff.mp hq₁ with rfl | ⟨q₂, rfl, -⟩
        · intro c hc
          cases hc
        · exact startsWithout_quote q₂
      obtain ⟨e, he⟩ := readMembers_cut htaken hcut hfew hq₁ (fun heq => hne (by rw [heq]))
      rw [readValue_members room hstart, he]
      exact ⟨e, rfl⟩

/-! ## Values -/

/-- Nothing is left after a value that does not break off. -/
theorem Json.Taken.rest_eq_nil (h : Taken digits depth v) {level fuel : Nat} {w : Json}
    (hfuel : (printAt .wire level v).length ≤ fuel)
    (hread : readValue (.wire digits maxDepth) depth fuel (printAt .wire level v) = .ok (w, rest)) :
    rest = [] := by
  have hback : readValue (.wire digits maxDepth) depth fuel (printAt .wire level v ++ []) = _ :=
    h.readsBack level fuel [] endsNumber_nil hfuel
  rw [List.append_nil, hread] at hback
  cases hback
  rfl

/-- A word that breaks off is not read. -/
theorem fails_word {w : List Char} {fuel : Nat}
    (hw : w ∈ [['n', 'u', 'l', 'l'], ['t', 'r', 'u', 'e'], ['f', 'a', 'l', 's', 'e']]) (hq : q <+: w)
    (hne : q ≠ w) : Fails (readValue (.wire digits maxDepth) depth (fuel + 1) q) := by
  have htake := List.prefix_iff_eq_take.mp hq
  have hlength : q.length < w.length := by
    refine Nat.lt_of_le_of_ne hq.length_le fun heq => hne ?_
    rw [heq, List.take_length] at htake
    exact htake
  generalize q.length = n at htake hlength
  rw [htake]
  simp only [List.mem_cons, List.not_mem_nil, or_false] at hw
  rcases hw with rfl | rfl | rfl
  · simp only [List.length_cons, List.length_nil] at hlength
    obtain rfl | rfl | rfl | rfl : n = 0 ∨ n = 1 ∨ n = 2 ∨ n = 3 := by omega
    all_goals exact ⟨_, rfl⟩
  · simp only [List.length_cons, List.length_nil] at hlength
    obtain rfl | rfl | rfl | rfl : n = 0 ∨ n = 1 ∨ n = 2 ∨ n = 3 := by omega
    all_goals exact ⟨_, rfl⟩
  · simp only [List.length_cons, List.length_nil] at hlength
    obtain rfl | rfl | rfl | rfl | rfl : n = 0 ∨ n = 1 ∨ n = 2 ∨ n = 3 ∨ n = 4 := by omega
    all_goals exact ⟨_, rfl⟩

theorem leavesNothing_word {w : List Char} (h : Taken digits depth v)
    (hw : w ∈ [['n', 'u', 'l', 'l'], ['t', 'r', 'u', 'e'], ['f', 'a', 'l', 's', 'e']])
    (hv : ∀ level, printAt .wire level v = w) : LeavesNothing digits maxDepth depth v := by
  intro level fuel q hq hfuel x rest hread
  by_cases hne : q = printAt .wire level v
  · rw [hne] at hread
    exact h.rest_eq_nil hfuel hread
  · cases fuel with
    | zero => cases hread
    | succ f =>
      rw [hv] at hq hne
      obtain ⟨e, he⟩ : Fails (readValue (.wire digits maxDepth) depth (f + 1) q) := fails_word hw hq hne
      rw [he] at hread
      cases hread

/-- **After a value that breaks off nothing is left.** -/
theorem Json.Taken.leavesNothing (h : Taken digits depth v) : LeavesNothing digits maxDepth depth v := by
  induction h with
  | null => exact leavesNothing_word .null (by decide) fun _ => rfl
  | bool b =>
    cases b with
    | true => exact leavesNothing_word (.bool true) (by decide) fun _ => rfl
    | false => exact leavesNothing_word (.bool false) (by decide) fun _ => rfl
  | @int _ n few =>
    intro level fuel q hq hfuel w rest hread
    cases fuel with
    | zero => cases hread
    | succ f =>
      by_cases hne : q = []
      · rw [hne] at hread
        cases hread
      · have hstart := startsNumber_of_intDigits hq hne endsNumber_nil
        rw [List.append_nil] at hstart
        rw [readValue_of_startsNumber hstart] at hread
        cases hnumber : readLooseNumber digits q with
        | none =>
          rw [hnumber] at hread
          cases hread
        | some p =>
          obtain ⟨value, rest'⟩ := p
          have hrest := readLooseNumber_cut digits hq hnumber
          rw [hnumber, hrest] at hread
          cases value with
          | error fault => cases hread
          | ok u =>
            cases hread
            rfl
  | str s =>
    intro level fuel q hq hfuel w rest hread
    by_cases hne : q = printAt .wire level (.str s)
    · rw [hne] at hread
      exact Json.Taken.rest_eq_nil (.str s) hfuel hread
    cases fuel with
    | zero => cases hread
    | succ f =>
      rcases List.prefix_cons_iff.mp hq with rfl | ⟨q₁, rfl, hq₁⟩
      · cases hread
      · obtain ⟨e, he⟩ := readString_cut s.toList ('"' :: q₁) hq₁ fun heq => hne (by rw [heq]; rfl)
        have hraw : (Dialect.wire digits maxDepth).rawControls = true := rfl
        simp only [readValue, hraw, he, bind, Except.bind] at hread
        cases hread
  | @arr depth xs room taken ih =>
    intro level fuel q hq hfuel w rest hread
    by_cases hne : q = printAt .wire level (.arr xs)
    · rw [hne] at hread
      exact Json.Taken.rest_eq_nil (.arr room taken) hfuel hread
    · obtain ⟨e, he⟩ := readValue_cut_arr room taken ih hfuel hq hne
      rw [he] at hread
      cases hread
  | @obj depth ms room distinct taken ih =>
    intro level fuel q hq hfuel w rest hread
    by_cases hne : q = printAt .wire level (.obj ms)
    · rw [hne] at hread
      exact Json.Taken.rest_eq_nil (.obj room distinct taken) hfuel hread
    · obtain ⟨e, he⟩ := readValue_cut_obj room taken ih hfuel hq hne
      rw [he] at hread
      cases hread

/-! ## Whole texts -/

theorem bind_eq_ok {α β : Type} {x : Except ReadError α} {f : α → Except ReadError β} {b : β}
    (h : x.bind f = .ok b) : ∃ a, x = .ok a ∧ f a = .ok b := by
  cases x with
  | error e => cases h
  | ok a => exact ⟨a, rfl, h⟩

/-- What is read with some fuel is read with more. -/
theorem read_more (d : Dialect) (fuel : Nat) :
    (∀ depth s r, readValue d depth fuel s = .ok r → readValue d depth (fuel + 1) s = .ok r) ∧
    (∀ depth s r, readItems d depth fuel s = .ok r → readItems d depth (fuel + 1) s = .ok r) ∧
    ∀ depth s r, readMembers d depth fuel s = .ok r → readMembers d depth (fuel + 1) s = .ok r := by
  induction fuel with
  | zero =>
    refine ⟨?_, ?_, ?_⟩
    · intro depth s r h
      cases h
    · intro depth s r h
      cases h
    · intro depth s r h
      cases h
  | succ fuel ih =>
    obtain ⟨ihvalue, ihitems, ihmembers⟩ := ih
    refine ⟨?_, ?_, ?_⟩
    · intro depth s r h
      unfold readValue at h ⊢
      split at h
      · exact h
      · dsimp only at h ⊢
        split
        · next hdepth =>
          rw [if_pos hdepth] at h
          cases h
        · next t hdepth =>
          rw [if_neg hdepth] at h
          generalize skipBlanks t = u at h ⊢
          split at h
          · exact h
          · obtain ⟨p, hp, hmore⟩ := bind_eq_ok h
            rw [ihitems _ _ _ hp]
            exact hmore
      · dsimp only at h ⊢
        split
        · next hdepth =>
          rw [if_pos hdepth] at h
          cases h
        · next t hdepth =>
          rw [if_neg hdepth] at h
          generalize skipBlanks t = u at h ⊢
          split at h
          · exact h
          · obtain ⟨p, hp, hmore⟩ := bind_eq_ok h
            rw [ihmembers _ _ _ hp]
            exact hmore
      · exact h
    · intro depth s r h
      unfold readItems at h ⊢
      obtain ⟨⟨x, t⟩, hx, hrest⟩ := bind_eq_ok h
      rw [ihvalue _ _ _ hx]
      simp only [bind, Except.bind]
      dsimp only at hrest
      split at hrest
      · exact hrest
      · next rest hskip =>
        obtain ⟨p, hp, hmore⟩ := bind_eq_ok hrest
        simp only [ihitems _ _ _ hp]
        exact hmore
      · cases hrest
    · intro depth s r h
      unfold readMembers at h ⊢
      split at h
      · next t =>
        obtain ⟨⟨k, u⟩, hk, hrest⟩ := bind_eq_ok h
        simp only [hk, bind, Except.bind]
        dsimp only at hrest
        split at hrest
        · next w hcolon =>
          obtain ⟨⟨x, z⟩, hx, hlast⟩ := bind_eq_ok hrest
          simp only [ihvalue _ _ _ hx]
          dsimp only at hlast
          split at hlast
          · exact hlast
          · next rest hskip =>
            obtain ⟨p, hp, hmore⟩ := bind_eq_ok hlast
            simp only [ihmembers _ _ _ hp]
            exact hmore
          · cases hlast
        · cases hrest
      · cases h

theorem read_more_value (d : Dialect) {fuel fuel' : Nat} (hle : fuel ≤ fuel') {r : Json × List Char}
    (h : readValue d depth fuel q = .ok r) : readValue d depth fuel' q = .ok r := by
  induction hle with
  | refl => exact h
  | @step more _ ih => exact (read_more d more).1 depth q r ih

/-- **Of an object that breaks off nothing is read.** -/
theorem Json.Taken.readWire_cut (h : Taken digits depth (.obj ms)) (hq : q <+: printAt .wire 0 (.obj ms))
    (hne : q ≠ printAt .wire 0 (.obj ms)) : Json.readWire digits depth q = none := by
  have hstart : skipBlanks q = q := by
    cases ms with
    | nil =>
      rcases List.prefix_cons_iff.mp hq with rfl | ⟨q₁, rfl, -⟩
      · rfl
      · exact skipBlanks_cons rfl q₁
    | cons p ms =>
      obtain ⟨k, x⟩ := p
      rw [printAt_obj] at hq
      rcases List.prefix_cons_iff.mp hq with rfl | ⟨q₁, rfl, -⟩
      · rfl
      · exact skipBlanks_cons rfl q₁
  have hlimit : (Dialect.wire digits depth).maxDepth = depth := rfl
  unfold Json.readWire Json.readAll
  rw [hstart, hlimit]
  cases hread : readValue (.wire digits depth) depth (q.length + 1) q with
  | error e => rfl
  | ok r =>
    -- more fuel would give the same, and with enough of it the object is known to fail
    have hmore := read_more_value (.wire digits depth)
      (Nat.le_max_left (q.length + 1) (printAt .wire 0 (.obj ms)).length) hread
    cases h with
    | obj room distinct values =>
      have hfuel := Nat.le_max_right (q.length + 1) (printAt .wire 0 (.obj ms)).length
      obtain ⟨e, he⟩ : Fails (readValue (.wire digits depth) depth _ q) :=
        readValue_cut_obj room values (fun p hp => (values p hp).leavesNothing) hfuel hq hne
      rw [he] at hmore
      cases hmore

end EditorServices
