import EditorServices.Proofs.Json.PlainStrings
import EditorServices.Proofs.References

/-!
# `Proofs.Json.FilledStrings` — values of variables in strings

A value that is put in place of a reference becomes part of what is between two quotes, and is read as such. It is
read as itself if it holds neither quotes nor backslashes nor control characters. Then the string is what was meant:
the characters between the references as they are read, and the values verbatim.

## Contents
- **Filled strings.** `filled?`, what is meant, and `Harmless`, which values may be put in.
- **Substitution.** `filled_of_decode`: what is meant is read.
- **Quotes.** The references of a string in quotes are those between them.
-/

namespace EditorServices

open Environment (nextReference? nextReference?_eq_some_iff length_nextReference?_lt written Occurs Parts
  substitute_of_none substitute_of_some substitute_append reference?_eq_some_iff)

variable {env : Environment} {s t u cs rest before name after body : List Char}

/-! ## Filled strings -/

/-- The characters that are written between two quotes, with the value of a variable for each reference. -/
def filled? (env : Environment) (s : List Char) : Option (List Char) :=
  match _h : nextReference? s with
  | none => decode? s
  | some (u, name, rest) =>
    (decode? u).bind fun cs => (filled? env rest).map fun ds => cs ++ (env.valueOf name ++ ds)
termination_by s.length
decreasing_by exact length_nextReference?_lt ‹_›

/-- A value that may be put before some text: its characters stand for themselves, and if there are none it does not
let the escape of a low surrogate join what is before it. -/
def Harmless (value after : List Char) : Prop := IsVerbatim value ∧ (value = [] → ¬ StartsLow after)

theorem filled?_of_none (h : nextReference? s = none) (env : Environment) : filled? env s = decode? s := by
  rw [filled?]
  split
  · rfl
  · next hsome => cases h.symm.trans hsome

theorem filled?_of_some (h : nextReference? s = some (u, name, rest)) (env : Environment) :
    filled? env s = (decode? u).bind fun cs => (filled? env rest).map fun ds => cs ++ (env.valueOf name ++ ds) := by
  rw [filled?]
  split
  · next hnone => cases h.symm.trans hnone
  · next hsome =>
    cases h.symm.trans hsome
    rfl

/-! ## Substitution -/

theorem StartsLow.append (h : StartsLow s) (t : List Char) : StartsLow (s ++ t) := by
  obtain ⟨a, b, c, d, n, r, rfl, hvalue, hlow⟩ := h
  exact ⟨a, b, c, d, n, r ++ t, rfl, hvalue, hlow⟩

theorem Harmless.of_append {value more : List Char} (h : Harmless value (after ++ more)) : Harmless value after :=
  ⟨h.1, fun hempty hlow => h.2 hempty (hlow.append more)⟩

/-- Characters that stand for themselves start no escape. -/
theorem IsVerbatim.not_startsLow (h : IsVerbatim s) (hne : s ≠ []) (t : List Char) : ¬ StartsLow (s ++ t) := by
  obtain ⟨c, r, rfl⟩ := List.exists_cons_of_ne_nil hne
  exact not_startsLow_cons (h c List.mem_cons_self).2.1 _

/-- **What can be read around a reference**: what is before it, by itself, and what is after it. -/
theorem decode?_around (h : decode? s = some cs) (hnext : nextReference? s = some (u, name, rest)) :
    ∃ ds es, decode? u = some ds ∧ decode? rest = some es := by
  obtain ⟨rfl, -, -⟩ := nextReference?_eq_some_iff.mp hnext
  have hopen : u ++ (written name ++ rest) = u ++ '{' :: (['e', 'n', 'v', ':'] ++ name ++ '}' :: rest) := by
    simp [written, Environment.opener]
  have hspelling := decode?_eq_some_iff.mp h
  rw [hopen] at hspelling
  -- no escape lies across a brace, so the spelling falls into parts at both braces of the reference
  obtain ⟨ds, more, -, hu, hmore⟩ := hspelling.of_append_brace (.inl rfl)
  obtain ⟨_, es, -, -, hrest⟩ := hmore.of_append_brace (.inr rfl)
  have hbefore : Spelling u ds ['"'] := hu.of_follows fun hlow => absurd hlow (not_startsLow_quote [])
  exact ⟨ds, es, decode?_eq_some_iff.mpr hbefore, decode?_eq_some_iff.mpr hrest⟩

/-- Values that may be put in do not bring the escape of a low surrogate to the start. -/
theorem startsLow_of_substitute (hdecode : decode? s = some cs)
    (hharmless : ∀ before name after, Occurs s before name after → Harmless (env.valueOf name) after)
    (h : StartsLow (env.substitute s ++ ['"'])) : StartsLow s := by
  induction hn : s.length using Nat.strong_induction_on generalizing s cs with
  | _ n ih =>
    cases hnext : nextReference? s with
    | none =>
      rw [substitute_of_none hnext] at h
      by_cases hs : s = []
      · subst hs
        exact absurd h (not_startsLow_quote [])
      · have hlow := (decode?_eq_some_iff.mp hdecode).startsLow_append hs h []
        rw [List.append_nil] at hlow
        exact hlow
    | some p =>
      obtain ⟨u, name, rest⟩ := p
      obtain ⟨ds, es, hu, hrest⟩ := decode?_around hdecode hnext
      obtain ⟨hvalue, hempty⟩ := hharmless u name rest (.first hnext)
      have hmore : ∀ before name after, Occurs rest before name after → Harmless (env.valueOf name) after :=
        fun _ name' after h => hharmless _ name' after (.later hnext h)
      rw [substitute_of_some hnext, List.append_assoc, List.append_assoc] at h
      obtain ⟨rfl, -, -⟩ := nextReference?_eq_some_iff.mp hnext
      by_cases hne : u = []
      · -- the value comes first, or what is after it if it is empty
        subst hne
        by_cases hv : env.valueOf name = []
        · rw [hv] at h
          exact absurd (ih _ (hn ▸ length_nextReference?_lt hnext) hrest hmore h rfl) (hempty hv)
        · exact absurd h (hvalue.not_startsLow hv _)
      · exact (decode?_eq_some_iff.mp hu).startsLow_append hne h _

/-- **With values that may be put in, what is meant is read**, and there is something that is meant. -/
theorem filled_of_decode (hdecode : decode? s = some cs)
    (hharmless : ∀ before name after, Occurs s before name after → Harmless (env.valueOf name) after) :
    ∃ ds, filled? env s = some ds ∧ decode? (env.substitute s) = some ds := by
  induction hn : s.length using Nat.strong_induction_on generalizing s cs with
  | _ n ih =>
    cases hnext : nextReference? s with
    | none =>
      rw [filled?_of_none hnext, substitute_of_none hnext]
      exact ⟨cs, hdecode, hdecode⟩
    | some p =>
      obtain ⟨u, name, rest⟩ := p
      obtain ⟨ds, es, hu, hrest⟩ := decode?_around hdecode hnext
      obtain ⟨hvalue, hempty⟩ := hharmless u name rest (.first hnext)
      have hmore : ∀ before name after, Occurs rest before name after → Harmless (env.valueOf name) after :=
        fun _ name' after h => hharmless _ name' after (.later hnext h)
      obtain ⟨fs, hfilled, hread⟩ := ih _ (hn ▸ length_nextReference?_lt hnext) hrest hmore rfl
      refine ⟨ds ++ (env.valueOf name ++ fs), ?_, ?_⟩
      · rw [filled?_of_some hnext, hu, hfilled]
        rfl
      · -- what is before the reference is read by itself: nothing joins its last escape
        have hlow : StartsLow (env.valueOf name ++ env.substitute rest ++ ['"']) → StartsLow ['"'] := by
          intro h
          exfalso
          by_cases hv : env.valueOf name = []
          · rw [hv, List.nil_append] at h
            exact hempty hv (startsLow_of_substitute hrest hmore h)
          · rw [List.append_assoc] at h
            exact hvalue.not_startsLow hv _ h
        rw [substitute_of_some hnext]
        refine decode?_eq_some_iff.mpr (((decode?_eq_some_iff.mp hu).of_follows hlow).append ?_)
        exact (hvalue.spelling _).append (decode?_eq_some_iff.mp hread)

/-! ## Quotes -/

/-- A reference starts and ends with a brace. -/
theorem written_eq (name : List Char) : written name = '{' :: (['e', 'n', 'v', ':'] ++ name ++ ['}']) := rfl

theorem parts_quote (s : List Char) : Parts ['"'] s := by
  intro before name after h
  right
  have heq := h.eq
  cases before with
  | nil => cases heq
  | cons c before => exact Nat.succ_le_succ (Nat.zero_le _)

theorem parts_body (body : List Char) : Parts body ['"'] := by
  intro before name after h
  left
  have heq := h.eq
  cases after with
  | nil =>
    rw [List.append_nil, written_eq, ← List.cons_append, ← List.append_assoc] at heq
    cases (List.append_inj_right' heq rfl)
  | cons c after => exact Nat.succ_le_succ (Nat.zero_le _)

/-- Values are put in between the quotes. -/
theorem substitute_quoted (env : Environment) (body : List Char) :
    env.substitute ('"' :: (body ++ ['"'])) = '"' :: (env.substitute body ++ ['"']) := by
  have hquote : env.substitute ['"'] = ['"'] := substitute_of_none rfl env
  have hopen := substitute_append (parts_quote (body ++ ['"'])) env
  rw [substitute_append (parts_body body), hquote] at hopen
  exact hopen

/-- The references between quotes are references of the string. -/
theorem occurs_quoted (h : Occurs body before name after) :
    Occurs ('"' :: (body ++ ['"'])) ('"' :: before) name (after ++ ['"']) :=
  (h.append_left (parts_body body)).append_right (parts_quote (body ++ ['"']))

end EditorServices
