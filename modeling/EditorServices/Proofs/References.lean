import EditorServices.Environment
import Mathlib.Data.List.TakeWhile

/-!
# `Proofs.References` — where the references of a text are

References are found from left to right, each one after the end of the one before it. The values of variables are
put in their places, and what is between them is kept. A text falls into parts wherever no reference lies across:
then the references of the parts are those of the text, and values are put into each part by itself.

## Contents
- **References.** How one is written, and `reference?_eq_some_iff`.
- **The first one.** `nextReference?`, and `substitute` in terms of it.
- **All of them.** `Occurs`.
- **Parts.** `Parts`, and `substitute_append`, `Occurs.append_left` and `Occurs.append_right`.
-/

namespace EditorServices.Environment

variable {env : Environment} {s t u x y z name rest before after : List Char}

/-! ## References -/

/-- A reference to a variable. -/
def written (name : List Char) : List Char := opener ++ (name ++ ['}'])

/-- The value of a variable, the empty text if unset. -/
def valueOf (env : Environment) (name : List Char) : List Char := ((env.get? (String.ofList name)).getD "").toList

/-- **A reference is found where one is written**: a name of at least one character up to the first closing
brace. -/
theorem reference?_eq_some_iff :
    reference? s = some (name, rest) ↔ name ≠ [] ∧ '}' ∉ name ∧ s = written name ++ rest := by
  have hwritten : written name ++ rest = opener ++ (name ++ '}' :: rest) := by
    simp only [written, List.append_assoc, List.singleton_append]
  rw [hwritten]
  unfold reference?
  constructor
  · intro h
    dsimp only at h
    obtain ⟨hstarts, h⟩ := Option.ite_none_right_eq_some.mp h
    have hs := List.prefix_iff_eq_append.mp (List.isPrefixOf_iff_prefix.mp hstarts)
    have hsplit := (s.drop opener.length).takeWhile_append_dropWhile (p := (· ≠ '}'))
    have hhead := (s.drop opener.length).head?_dropWhile_not (· ≠ '}')
    split at h
    · next c r hdrop =>
      obtain ⟨hne, heq⟩ := Option.ite_none_left_eq_some.mp h
      cases heq
      refine ⟨hne, fun hmem => ?_, ?_⟩
      · have hbrace := List.mem_takeWhile_imp hmem
        exact of_decide_eq_true hbrace rfl
      · rw [hdrop] at hhead hsplit
        have hc : c = '}' := of_not_not (of_decide_eq_false hhead)
        rw [hc] at hsplit
        rw [hsplit]
        exact hs.symm
    · cases h
  · rintro ⟨hne, hmem, rfl⟩
    have hpass : ∀ c ∈ name, decide (c ≠ '}') = true := fun c hc =>
      decide_eq_true fun heq : c = '}' => hmem (heq ▸ hc)
    have hstarts : opener.isPrefixOf (opener ++ (name ++ '}' :: rest)) = true :=
      List.isPrefixOf_iff_prefix.mpr (List.prefix_append _ _)
    dsimp only
    rw [if_pos hstarts, List.drop_left, List.takeWhile_append_of_pos hpass, List.dropWhile_append_of_pos hpass]
    show (if name ++ [] = [] then none else some (name ++ [], rest)) = _
    rw [List.append_nil, if_neg hne]

/-- What follows a reference does not matter. -/
theorem reference?_append (h : reference? x = some (name, rest)) (y : List Char) :
    reference? (x ++ y) = some (name, rest ++ y) := by
  obtain ⟨hne, hmem, rfl⟩ := reference?_eq_some_iff.mp h
  exact reference?_eq_some_iff.mpr ⟨hne, hmem, List.append_assoc _ _ _⟩

/-- No reference starts in a text that some other text follows. -/
def Clear (x y : List Char) : Prop := ∀ z, z <:+ x → z ≠ [] → reference? (z ++ y) = none

theorem clear_nil (y : List Char) : Clear [] y := fun _ hz hne => absurd (List.suffix_nil.mp hz) hne

theorem clear_cons {c : Char} : Clear (c :: x) y ↔ reference? (c :: (x ++ y)) = none ∧ Clear x y := by
  constructor
  · intro h
    exact ⟨h (c :: x) List.suffix_rfl (List.cons_ne_nil c x), fun z hz => h z (hz.trans (List.suffix_cons c x))⟩
  · rintro ⟨hc, hx⟩ z hz hne
    rcases List.suffix_cons_iff.mp hz with rfl | hz
    · exact hc
    · exact hx z hz hne

theorem Clear.of_append (h : Clear x (y ++ z)) : Clear x y := by
  intro w hw hne
  have hnone := h w hw hne
  rw [← List.append_assoc] at hnone
  cases hsome : reference? (w ++ y) with
  | none => rfl
  | some p => cases (reference?_append hsome z).symm.trans hnone

theorem clear_append : Clear (x ++ y) z ↔ Clear x (y ++ z) ∧ Clear y z := by
  induction x with
  | nil => exact ⟨fun h => ⟨clear_nil _, h⟩, fun h => h.2⟩
  | cons c x ih => rw [List.cons_append, clear_cons, clear_cons, ih, List.append_assoc, and_assoc]

/-! ## The first one -/

/-- The first reference in a text: what is before it, its name, and what is after it. -/
def nextReference? : List Char → Option (List Char × List Char × List Char)
  | [] => none
  | c :: r => match reference? (c :: r) with
    | some (name, rest) => some ([], name, rest)
    | none => (nextReference? r).map fun (u, name, rest) => (c :: u, name, rest)

theorem nextReference?_cons (c : Char) (r : List Char) : nextReference? (c :: r) =
    match reference? (c :: r) with
    | some (name, rest) => some ([], name, rest)
    | none => (nextReference? r).map fun (u, name, rest) => (c :: u, name, rest) := rfl

theorem nextReference?_of_reference? (h : reference? s = some (name, rest)) :
    nextReference? s = some ([], name, rest) := by
  cases s with
  | nil => cases h
  | cons c r => simp only [nextReference?_cons, h]

/-- Where no reference starts the first one is further on. -/
theorem Clear.nextReference?_append (h : Clear x y) :
    nextReference? (x ++ y) = (nextReference? y).map fun (u, name, rest) => (x ++ u, name, rest) := by
  induction x with
  | nil => cases h : nextReference? y <;> simp [h]
  | cons c x ih =>
    obtain ⟨hc, hx⟩ := clear_cons.mp h
    simp only [List.cons_append, nextReference?_cons, hc, ih hx, Option.map_map]
    rfl

theorem nextReference?_eq_none_iff : nextReference? s = none ↔ Clear s [] := by
  induction s with
  | nil => exact ⟨fun _ => clear_nil [], fun _ => rfl⟩
  | cons c r ih =>
    rw [clear_cons, ← ih, nextReference?_cons, List.append_nil]
    cases reference? (c :: r) <;> simp

theorem Clear.nextReference? (h : Clear x y) : Environment.nextReference? x = none := by
  rw [← List.nil_append y] at h
  exact nextReference?_eq_none_iff.mpr h.of_append

/-- **The first reference**: no reference starts before it. -/
theorem nextReference?_eq_some_iff : nextReference? s = some (u, name, rest) ↔
    s = u ++ (written name ++ rest) ∧ reference? (written name ++ rest) = some (name, rest) ∧
      Clear u (written name ++ rest) := by
  constructor
  · intro h
    induction s generalizing u with
    | nil => cases h
    | cons c r ih =>
      cases hc : reference? (c :: r) with
      | some p =>
        rw [nextReference?_of_reference? hc] at h
        cases h
        obtain ⟨-, -, hwritten⟩ := reference?_eq_some_iff.mp hc
        exact ⟨hwritten, hwritten ▸ hc, clear_nil _⟩
      | none =>
        simp only [nextReference?_cons, hc] at h
        obtain ⟨⟨u', name', rest'⟩, hr, heq⟩ := Option.map_eq_some_iff.mp h
        cases heq
        obtain ⟨rfl, href, hclear⟩ := ih hr
        exact ⟨rfl, href, clear_cons.mpr ⟨hc, hclear⟩⟩
  · rintro ⟨rfl, href, hclear⟩
    rw [hclear.nextReference?_append, nextReference?_of_reference? href]
    show some (u ++ [], name, rest) = _
    rw [List.append_nil]

/-- What is after the first reference is shorter than the text. -/
theorem length_nextReference?_lt (h : nextReference? s = some (u, name, rest)) : rest.length < s.length := by
  obtain ⟨rfl, -, -⟩ := nextReference?_eq_some_iff.mp h
  simp only [List.length_append, written, opener, List.length_cons]
  omega

theorem substitute_nil (env : Environment) : env.substitute [] = [] := by
  rw [substitute]

theorem substitute_cons (env : Environment) (c : Char) (r : List Char) : env.substitute (c :: r) =
    match reference? (c :: r) with
    | some (name, rest) => env.valueOf name ++ env.substitute rest
    | none => c :: env.substitute r := by
  rw [substitute]
  split
  · next h =>
    rw [h]
    rfl
  · next h => rw [h]

/-- Where no reference starts a text is kept. -/
theorem Clear.substitute_append (h : Clear x y) (env : Environment) :
    env.substitute (x ++ y) = x ++ env.substitute y := by
  induction x with
  | nil => rfl
  | cons c x ih =>
    obtain ⟨hc, hx⟩ := clear_cons.mp h
    rw [List.cons_append, substitute_cons, hc, ih hx]
    rfl

/-- **Without references a text is kept.** -/
theorem substitute_of_none (h : nextReference? s = none) (env : Environment) : env.substitute s = s := by
  have hkeep := (nextReference?_eq_none_iff.mp h).substitute_append env
  rw [substitute_nil, List.append_nil] at hkeep
  exact hkeep

/-- **The first reference is replaced**, and what is before it is kept. -/
theorem substitute_of_some (h : nextReference? s = some (u, name, rest)) (env : Environment) :
    env.substitute s = u ++ (env.valueOf name ++ env.substitute rest) := by
  obtain ⟨rfl, href, hclear⟩ := nextReference?_eq_some_iff.mp h
  rw [hclear.substitute_append]
  obtain ⟨c, r, hcr⟩ : ∃ c r, written name ++ rest = c :: r := ⟨_, _, rfl⟩
  rw [hcr] at href ⊢
  rw [substitute_cons, href]

/-- A text without the start of a reference has none. -/
theorem nextReference?_of_not_infix (h : ¬ opener <:+: s) : nextReference? s = none := by
  cases hnext : nextReference? s with
  | none => rfl
  | some p =>
    obtain ⟨u, name, rest⟩ := p
    obtain ⟨rfl, -, -⟩ := nextReference?_eq_some_iff.mp hnext
    refine absurd ⟨u, name ++ ['}'] ++ rest, ?_⟩ h
    simp only [written, List.append_assoc]

/-! ## All of them -/

/-- A reference of a text: what is before it, its name, and what is after it. -/
inductive Occurs : List Char → List Char → List Char → List Char → Prop
  | first {s u name rest : List Char} (next : nextReference? s = some (u, name, rest)) : Occurs s u name rest
  | later {s u name rest before name' after : List Char} (next : nextReference? s = some (u, name, rest))
      (more : Occurs rest before name' after) : Occurs s (u ++ (written name ++ before)) name' after

theorem Occurs.ne_none (h : Occurs s before name after) : nextReference? s ≠ none := by
  cases h with
  | first next | later next _ =>
    rw [next]
    exact nofun

theorem Occurs.eq (h : Occurs s before name after) : s = before ++ (written name ++ after) := by
  induction h with
  | first next => exact (nextReference?_eq_some_iff.mp next).1
  | later next _ ih =>
    obtain ⟨rfl, -, -⟩ := nextReference?_eq_some_iff.mp next
    rw [ih]
    simp only [List.append_assoc]

/-! ## Parts -/

/-- No reference of a text of two parts lies across. -/
def Parts (x y : List Char) : Prop :=
  ∀ before name after, Occurs (x ++ y) before name after → y.length ≤ after.length ∨ x.length ≤ before.length

/-- A text of two parts that goes on after some point with no less than the second part. -/
theorem exists_append_of_le {a b : List Char} (h : x ++ y = a ++ b) (hle : y.length ≤ b.length) :
    ∃ r, b = r ++ y ∧ x = a ++ r := by
  rcases List.append_eq_append_iff.mp h with ⟨r, ha, hy⟩ | ⟨r, hx, hb⟩
  · have hr : r = [] := by
      rw [hy, List.length_append] at hle
      exact List.length_eq_zero_iff.mp (by omega)
    subst hr
    exact ⟨[], hy.symm, by rw [List.append_nil, ha, List.append_nil]⟩
  · exact ⟨r, hb, hx⟩

/-- The first reference of a text of two parts is that of the first part, or no reference starts there. -/
theorem Parts.cases (h : Parts x y) :
    Clear x y ∨ ∃ u name rest, nextReference? x = some (u, name, rest) ∧
      nextReference? (x ++ y) = some (u, name, rest ++ y) ∧ Parts rest y := by
  cases hnext : nextReference? (x ++ y) with
  | none => exact .inl (List.append_nil y ▸ (clear_append.mp (nextReference?_eq_none_iff.mp hnext)).1)
  | some p =>
    obtain ⟨u, name, rest⟩ := p
    obtain ⟨heq, href, hclear⟩ := nextReference?_eq_some_iff.mp hnext
    rcases h u name rest (.first hnext) with hafter | hbefore
    · -- the first part goes on after the reference
      rw [← List.append_assoc] at heq
      obtain ⟨r, rfl, rfl⟩ := exists_append_of_le heq hafter
      obtain ⟨hne, hmem, -⟩ := reference?_eq_some_iff.mp href
      rw [← List.append_assoc] at hclear
      refine .inr ⟨u, name, r, nextReference?_eq_some_iff.mpr ⟨List.append_assoc _ _ _, ?_, hclear.of_append⟩, rfl,
        fun before name' after hoccurs => ?_⟩
      · exact reference?_eq_some_iff.mpr ⟨hne, hmem, rfl⟩
      · refine (h _ _ _ (.later hnext hoccurs)).imp id fun hle => ?_
        simp only [List.length_append] at hle
        omega
    · -- the second part starts before the reference
      obtain ⟨u', hu, hy⟩ : ∃ u', u = x ++ u' ∧ y = u' ++ (written name ++ rest) := by
        rcases List.append_eq_append_iff.mp heq with ⟨u', hu, hy⟩ | ⟨u', hx, hrest⟩
        · exact ⟨u', hu, hy⟩
        · have hnil : u' = [] := by
            rw [hx, List.length_append] at hbefore
            exact List.length_eq_zero_iff.mp (by omega)
          subst hnil
          exact ⟨[], by rw [hx, List.append_nil, List.append_nil], hrest.symm⟩
      rw [hu] at hclear
      rw [hy]
      exact .inl (clear_append.mp hclear).1

/-- **Values are put into each part by itself.** -/
theorem substitute_append (h : Parts x y) (env : Environment) :
    env.substitute (x ++ y) = env.substitute x ++ env.substitute y := by
  induction hn : x.length using Nat.strong_induction_on generalizing x with
  | _ n ih =>
    rcases h.cases with hclear | ⟨u, name, rest, hx, hxy, hparts⟩
    · rw [hclear.substitute_append, substitute_of_none hclear.nextReference?]
    · have hlt := length_nextReference?_lt hx
      rw [substitute_of_some hxy, substitute_of_some hx, ih _ (hn ▸ hlt) hparts rfl]
      simp only [List.append_assoc]

/-- **The references of the first part are references of the text.** -/
theorem Occurs.append_left (h : Parts x y) (hoccurs : Occurs x before name after) :
    Occurs (x ++ y) before name (after ++ y) := by
  induction hoccurs with
  | @first s u name rest next =>
    rcases h.cases with hclear | ⟨u', name', rest', hx, hxy, -⟩
    · cases next.symm.trans hclear.nextReference?
    · cases next.symm.trans hx
      exact .first hxy
  | @later s u name rest before name' after next _ ih =>
    rcases h.cases with hclear | ⟨u', name', rest', hx, hxy, hparts⟩
    · cases next.symm.trans hclear.nextReference?
    · cases next.symm.trans hx
      exact .later hxy (ih hparts)

/-- **So are those of the second one.** -/
theorem Occurs.append_right (h : Parts x y) (hoccurs : Occurs y before name after) :
    Occurs (x ++ y) (x ++ before) name after := by
  induction hn : x.length using Nat.strong_induction_on generalizing x with
  | _ n ih =>
    rcases h.cases with hclear | ⟨u, name, rest, hx, hxy, hparts⟩
    · have hnext := hclear.nextReference?_append
      cases hoccurs with
      | first next =>
        rw [next] at hnext
        exact .first hnext
      | later next more =>
        rw [next] at hnext
        rw [← List.append_assoc]
        exact .later hnext more
    · have hlt := length_nextReference?_lt hx
      have hmore := ih _ (hn ▸ hlt) hparts rfl
      obtain ⟨rfl, -, -⟩ := nextReference?_eq_some_iff.mp hx
      have hall := Occurs.later hxy hmore
      simpa only [List.append_assoc] using hall

end EditorServices.Environment
