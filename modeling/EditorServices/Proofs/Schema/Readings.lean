import EditorServices.Diagnostic
import EditorServices.Schema.Checked

/-!
# `Proofs.Schema.Readings` — what a value is read as

A check that succeeds tells something about the value that was checked. For scalars that is a relation
between values and what they are read as, which for integers is wider than it looks: truth values, whole
numbers and texts are integers too. For a record it is what its members say one by one, and nothing about
how they are gone through.

## Contents
- **Results.** When a composed check succeeds.
- **Scalars.** `ReadsInteger`, and texts, dictionaries and texts that may be null.
- **Lists.** Lists of texts.
- **Members.** `GivenOr`, for a member that may be missing.
- **Diagnostics.** `Diagnostic.StatedBy`, and `Diagnostic.check_eq_valid_iff`.
-/

namespace EditorServices

namespace Schema

/-! ## Results -/

namespace Checked

variable {α β : Type}

theorem under_eq_valid_iff {c : Checked α} {s : Step} {a : α} : c.under s = .valid a ↔ c = .valid a := by
  cases c with
  | valid b => exact Iff.rfl
  | invalid is => exact ⟨nofun, nofun⟩

theorem map_eq_valid_iff {f : α → β} {c : Checked α} {b : β} :
    f <$> c = .valid b ↔ ∃ a, c = .valid a ∧ f a = b := by
  cases c with
  | valid a =>
    show Checked.valid (f a) = .valid b ↔ _
    simp
  | invalid is => exact ⟨nofun, nofun⟩

theorem refine_eq_valid_iff {f : α → Checked β} {c : Checked α} {b : β} :
    c.refine f = .valid b ↔ ∃ a, c = .valid a ∧ f a = .valid b := by
  cases c with
  | valid a => exact ⟨fun h => ⟨a, rfl, h⟩, fun ⟨_, ha, h⟩ => by cases ha; exact h⟩
  | invalid is => exact ⟨nofun, nofun⟩

theorem withIssues_eq_valid_iff {c : Checked α} {more : List Issue} {a : α} :
    c.withIssues more = .valid a ↔ c = .valid a ∧ more = [] := by
  cases c with
  | valid b =>
    show (if more = [] then Checked.valid b else .invalid more) = .valid a ↔ _
    split <;> simp_all
  | invalid is => exact ⟨nofun, nofun⟩

theorem outcome_eq_ok_iff {model : String} {c : Checked α} {a : α} : c.outcome model = .ok a ↔ c = .valid a := by
  cases c <;> simp [outcome]

end Checked

/-! ## Scalars -/

/-- The integer that a value is read as: an integer itself, a truth value as one or zero, a whole number of
64 bits, or what a text writes. -/
inductive ReadsInteger : Json → Int → Prop where
  | number (n : Int) : ReadsInteger (.int n) n
  | truth (b : Bool) : ReadsInteger (.bool b) (if b then 1 else 0)
  | whole {x : Binary64} {n : Int} (finite : x.isFinite) (equals : x.toInt? = some n)
      (fits : -wordBound < n ∧ n < wordBound) : ReadsInteger (.float x) n
  | written {s : String} {n : Int} (digits : IntegerText.readInteger s.toList = .value n) :
      ReadsInteger (.str s) n

theorem integer_eq_valid_iff {v : Json} {n : Int} : integer v = .valid n ↔ ReadsInteger v n := by
  constructor
  · intro h
    unfold integer at h
    split at h
    · cases h
      exact .number _
    · cases h
      exact .truth _
    · next x =>
      split at h
      · cases h
      · next hfinite =>
        split at h
        · cases h
        · next m hm =>
          split at h
          · next hfits =>
            cases h
            exact .whole (by simpa using hfinite) hm hfits
          · cases h
    · split at h
      · next m hm =>
        cases h
        exact .written hm
      · cases h
      · cases h
    · cases h
  · rintro (n | b | ⟨finite, equals, fits⟩ | digits)
    · rfl
    · rfl
    · simp [integer, finite, equals, fits]
    · simp [integer, digits]

theorem string_eq_valid_iff {v : Json} {s : String} : string v = .valid s ↔ v = .str s := by
  cases v <;> simp [string, Checked.fail]

theorem dict_eq_valid_iff {v : Json} {ms : Members} : dict v = .valid ms ↔ v = .obj ms := by
  cases v <;> simp [dict, Checked.fail]

theorem nullable_string_eq_valid_iff {v : Json} {s : Option String} :
    nullable string v = .valid s ↔ v = Json.ofText? s := by
  cases v <;> cases s <;> simp [nullable, string, Checked.fail, Json.ofText?, Checked.map]

/-! ## Lists -/

theorem itemsFrom_string_eq_valid_iff (n : Nat) {items : List Json} {texts : List String} :
    itemsFrom string n items = .valid texts ↔ items = texts.map .str := by
  induction items generalizing n texts with
  | nil =>
    show Checked.valid [] = .valid texts ↔ _
    cases texts <;> simp
  | cons item items ih =>
    constructor
    · intro h
      obtain ⟨_, rest, hitem, hrest, rfl⟩ := Checked.ap_eq_valid h
      obtain ⟨text, htext, rfl⟩ := Checked.map_eq_valid_iff.mp hitem
      rw [string_eq_valid_iff.mp (Checked.under_eq_valid_iff.mp htext), (ih (n + 1)).mp hrest]
      rfl
    · intro h
      cases texts with
      | nil => cases h
      | cons text texts =>
        obtain ⟨rfl, hitems⟩ := List.cons.inj h
        show Checked.ap _ (itemsFrom string (n + 1) items) = _
        rw [(ih (n + 1)).mpr hitems]
        rfl

/-- Texts are read from the list of those texts. -/
theorem listOf_string_eq_valid_iff {items : List Json} {texts : List String} :
    listOf string (.arr items) = .valid texts ↔ items = texts.map .str := itemsFrom_string_eq_valid_iff 0

/-! ## Members -/

section
variable {α : Type} {ms : Members} {name : String} {otherwise a : α}

/-- A member of a record is read as a value, or it is missing and the value is its own. -/
def GivenOr (ms : Members) (name : String) (otherwise : α) (reads : Json → α → Prop) (a : α) : Prop :=
  ms.get? name = none ∧ a = otherwise ∨ ∃ v, ms.get? name = some v ∧ reads v a

theorem GivenOr.imp {reads reads' : Json → α → Prop} (h : GivenOr ms name otherwise reads a)
    (himp : ∀ v a, reads v a → reads' v a) : GivenOr ms name otherwise reads' a := by
  rcases h with hnone | ⟨v, hv, hread⟩
  · exact .inl hnone
  · exact .inr ⟨v, hv, himp v a hread⟩

/-- A field with a plain name is the member of that name. -/
theorem value?_plain (ms : Members) (name : String) : (FieldName.plain name).value? ms = ms.get? name := rfl

theorem required_eq_valid_iff {check : Json → Checked α} :
    required ms (.plain name) check = .valid a ↔ ∃ v, ms.get? name = some v ∧ check v = .valid a := by
  unfold required
  rw [Checked.under_eq_valid_iff, value?_plain]
  cases ms.get? name with
  | none => exact ⟨nofun, nofun⟩
  | some v => simp

theorem optional_eq_valid_iff {check : Json → Checked α} :
    optional ms (.plain name) otherwise check = .valid a ↔
      GivenOr ms name otherwise (fun v a => check v = .valid a) a := by
  unfold optional GivenOr
  rw [value?_plain]
  cases ms.get? name with
  | none => simp [eq_comm]
  | some v => simp [Checked.under_eq_valid_iff]

end

end Schema

/-! ## Diagnostics -/

namespace Diagnostic

open Schema

/-- What the members of an entry say of a problem. The severity of a problem is that of an error unless it
is given; a problem may be without a source and a code. -/
structure StatedBy (d : Diagnostic) (ms : Members) : Prop where
  range : ms.get? "range" = some (.obj d.range)
  message : ms.get? "message" = some (.str d.message)
  severity : GivenOr ms "severity" errorSeverity ReadsInteger d.severity
  source : GivenOr ms "source" none (fun v source => v = Json.ofText? source) d.source
  code : GivenOr ms "code" .null (fun v code => v = code) d.code

/-- **An entry is accepted exactly if it is an object that states a problem**, and is read as that. -/
theorem check_eq_valid_iff {entry : Json} {d : Diagnostic} :
    check entry = .valid d ↔ ∃ ms, entry = .obj ms ∧ d.StatedBy ms := by
  constructor
  · intro h
    cases entry with
    | obj ms =>
      -- the check is a chain of fields, taken apart from the last one on
      obtain ⟨_, code, h₄, hcode, rfl⟩ := Checked.ap_eq_valid h
      obtain ⟨_, source, h₃, hsource, rfl⟩ := Checked.ap_eq_valid h₄
      obtain ⟨_, severity, h₂, hseverity, rfl⟩ := Checked.ap_eq_valid h₃
      obtain ⟨_, message, h₁, hmessage, rfl⟩ := Checked.ap_eq_valid h₂
      obtain ⟨range, hrange, rfl⟩ := Checked.map_eq_valid_iff.mp h₁
      obtain ⟨v, hv, hdict⟩ := required_eq_valid_iff.mp hrange
      obtain ⟨w, hw, hstring⟩ := required_eq_valid_iff.mp hmessage
      exact ⟨ms, rfl, dict_eq_valid_iff.mp hdict ▸ hv, string_eq_valid_iff.mp hstring ▸ hw,
        (optional_eq_valid_iff.mp hseverity).imp fun _ _ => integer_eq_valid_iff.mp,
        (optional_eq_valid_iff.mp hsource).imp fun _ _ => nullable_string_eq_valid_iff.mp,
        (optional_eq_valid_iff.mp hcode).imp fun _ _ => Checked.valid.inj⟩
    | _ => cases h
  · rintro ⟨ms, rfl, hd⟩
    have hrange : required ms rangeField dict = .valid d.range :=
      required_eq_valid_iff.mpr ⟨_, hd.range, rfl⟩
    have hmessage : required ms messageField string = .valid d.message :=
      required_eq_valid_iff.mpr ⟨_, hd.message, rfl⟩
    have hseverity : optional ms severityField errorSeverity integer = .valid d.severity :=
      optional_eq_valid_iff.mpr (hd.severity.imp fun _ _ => integer_eq_valid_iff.mpr)
    have hsource : optional ms sourceField none (nullable string) = .valid d.source :=
      optional_eq_valid_iff.mpr (hd.source.imp fun _ _ => nullable_string_eq_valid_iff.mpr)
    have hcode : optional ms codeField .null .valid = .valid d.code :=
      optional_eq_valid_iff.mpr (hd.code.imp fun _ _ => congrArg Checked.valid)
    show checkMembers ms = .valid d
    unfold checkMembers
    rw [hrange, hmessage, hseverity, hsource, hcode]
    rfl

end Diagnostic

end EditorServices
