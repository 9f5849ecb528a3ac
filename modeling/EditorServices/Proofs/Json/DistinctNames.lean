import EditorServices.Json.Commented
import EditorServices.Proofs.Config.Merging
import EditorServices.Proofs.Json.BrokenValues

/-!
# `Proofs.Json.DistinctNames` — what is read has no name twice

Of two members of one name the later one counts, so an object that was read has distinct names. That holds
at every depth, in the plain form and in the commented one.

## Contents
- **Members.** What `Named.ofPairs` leaves of a list of pairs.
- **Values.** Numbers and words are no objects; `distinct_of_readValue`.
- **Texts.** `distinct_of_readConfig`, `distinct_of_readCommented`.
-/

namespace EditorServices

open Json (Distinct)

/-! ## Members -/

namespace Named

variable {α : Type}

/-- Replacing in place keeps the names, a new name comes last. -/
theorem names_put (ms : Named α) (name : String) (v : α) :
    (ms.put name v).map Prod.fst =
      if name ∈ ms.map Prod.fst then ms.map Prod.fst else ms.map Prod.fst ++ [name] := by
  by_cases h : name ∈ ms.map Prod.fst
  · rw [if_pos h]
    induction ms with
    | nil => cases h
    | cons p ms ih =>
      obtain ⟨k, w⟩ := p
      unfold put
      split
      · rfl
      · next hk =>
        rw [List.map_cons, ih ((List.mem_cons.mp h).resolve_left fun heq => hk heq.symm)]
        rfl
  · rw [if_neg h, put_of_not_mem _ _ h, List.map_append]
    rfl

theorem nodup_put {ms : Named α} (h : (ms.map Prod.fst).Nodup) (name : String) (v : α) :
    ((ms.put name v).map Prod.fst).Nodup := by
  rw [names_put]
  split
  · exact h
  · next hnew => exact h.append (List.nodup_singleton name) (by simpa using hnew)

theorem mem_put_iff {ms : Named α} {name : String} {v : α} {p : String × α} (h : (ms.map Prod.fst).Nodup) :
    p ∈ ms.put name v ↔ p = (name, v) ∨ p ∈ ms ∧ p.1 ≠ name := by
  obtain ⟨key, w⟩ := p
  have hmem {ms : Named α} (h : (ms.map Prod.fst).Nodup) : (key, w) ∈ ms ↔ ms.get? key = some w :=
    ⟨get?_of_mem h, mem_of_get?⟩
  rw [hmem (nodup_put h name v), hmem h]
  by_cases hkey : key = name
  · subst hkey
    simp [get?_put_self, eq_comm]
  · simp [get?_put_of_ne _ _ hkey, hkey]

theorem nodup_ofPairs (pairs : List (String × α)) : ((ofPairs pairs).map Prod.fst).Nodup := by
  have hall : ∀ base : Named α, (base.map Prod.fst).Nodup → ((overlay base pairs).map Prod.fst).Nodup := by
    unfold overlay
    induction pairs with
    | nil => exact fun base h => h
    | cons p pairs ih => exact fun base h => ih _ (nodup_put h p.1 p.2)
  exact hall [] List.nodup_nil

/-- What holds of all values of some pairs holds of those that are left. -/
theorem forall_ofPairs {P : α → Prop} {pairs : List (String × α)} (h : ∀ p ∈ pairs, P p.2) :
    ∀ p ∈ ofPairs pairs, P p.2 :=
  fun p hp => h p (mem_overlay hp)

end Named

/-! ## Values -/

/-- A dialect whose numbers are no objects. -/
def Dialect.PlainNumbers (d : Dialect) : Prop :=
  ∀ s v rest, d.number s = some (.ok v, rest) → v.isObject = false

theorem isObject_of_numberValue {most : Option Nat} {negative : Bool} {whole : List Char}
    {fraction : Option (List Char)} {exponent : Option Int} {v : Json}
    (h : numberValue most negative whole fraction exponent = .ok v) : v.isObject = false := by
  unfold numberValue at h
  split at h
  · unfold integerValue at h
    dsimp only at h
    split at h
    · cases h
    · cases h
      rfl
  · cases h
    rfl

theorem plainNumbers_config : Dialect.config.PlainNumbers := by
  intro s v rest h
  change readNumber _ s = _ at h
  unfold readNumber at h
  dsimp only at h
  split at h
  · cases h
  · split at h <;>
    · obtain ⟨hvalue, -⟩ := Prod.mk.inj (Option.some.inj h)
      exact isObject_of_numberValue hvalue

/-- No word stands for an object. -/
theorem isObject_of_readWord {s rest : List Char} {v : Json} (h : readWord s = some (v, rest)) :
    v.isObject = false := by
  obtain ⟨⟨w, x⟩, hmem, hx⟩ := List.exists_of_findSome?_eq_some h
  have hplain : ∀ p ∈ jsonWords, p.2.isObject = false := by decide
  dsimp only at hx
  split at hx
  · cases hx
    exact hplain _ hmem
  · cases hx

/-- Values that are read within some fuel have distinct names. -/
def ValuesDistinct (d : Dialect) (fuel : Nat) : Prop :=
  ∀ depth s v rest, readValue d depth fuel s = .ok (v, rest) → v.Distinct

/-- The members of objects that are read within some fuel have distinct names, each in its value. -/
def MembersDistinct (d : Dialect) (fuel : Nat) : Prop :=
  ∀ depth s ms rest, readMembers d depth fuel s = .ok (ms, rest) → ∀ p ∈ ms, p.2.Distinct

theorem valuesDistinct_succ {d : Dialect} (hd : d.PlainNumbers) {fuel : Nat} (hmembers : MembersDistinct d fuel) :
    ValuesDistinct d (fuel + 1) := by
  intro depth s v rest h
  unfold readValue at h
  split at h
  · obtain ⟨q, -, hq⟩ := bind_eq_ok h
    cases hq
    exact .plain rfl
  · -- an array, whatever is in it
    dsimp only at h
    split at h
    · cases h
    · split at h
      · cases h
        exact .plain rfl
      · obtain ⟨q, -, hq⟩ := bind_eq_ok h
        cases hq
        exact .plain rfl
  · dsimp only at h
    split at h
    · cases h
    · split at h
      · cases h
        exact .obj List.nodup_nil fun p hp => by cases hp
      · obtain ⟨q, hread, hq⟩ := bind_eq_ok h
        cases hq
        exact .obj (Named.nodup_ofPairs _) (Named.forall_ofPairs (hmembers _ _ _ _ hread))
  · split at h
    · next r hword =>
      cases h
      exact .plain (isObject_of_readWord hword)
    · split at h
      · next hnumber =>
        cases h
        exact .plain (hd _ _ _ hnumber)
      · cases h
      · cases h

theorem membersDistinct_succ {d : Dialect} {fuel : Nat} (hvalues : ValuesDistinct d fuel)
    (hmembers : MembersDistinct d fuel) : MembersDistinct d (fuel + 1) := by
  intro depth s ms rest h
  unfold readMembers at h
  split at h
  · obtain ⟨⟨name, t⟩, -, hname⟩ := bind_eq_ok h
    dsimp only at hname
    split at hname
    · obtain ⟨⟨x, u⟩, hread, hx⟩ := bind_eq_ok hname
      have hdistinct := hvalues _ _ _ _ hread
      dsimp only at hx
      split at hx
      · cases hx
        intro p hp
        cases List.mem_singleton.mp hp
        exact hdistinct
      · obtain ⟨⟨more, w⟩, hmore, hq⟩ := bind_eq_ok hx
        cases hq
        intro p hp
        rcases List.mem_cons.mp hp with rfl | hp
        · exact hdistinct
        · exact hmembers _ _ _ _ hmore p hp
      · cases hx
    · cases hname
  · cases h

/-- **A value that was read has distinct names.** -/
theorem distinct_of_readValue {d : Dialect} (hd : d.PlainNumbers) (fuel : Nat) :
    ValuesDistinct d fuel ∧ MembersDistinct d fuel := by
  induction fuel with
  | zero => exact ⟨fun _ _ _ _ => nofun, fun _ _ _ _ => nofun⟩
  | succ fuel ih => exact ⟨valuesDistinct_succ hd ih.2, membersDistinct_succ ih.1 ih.2⟩

/-! ## Texts -/

/-- A configuration text is read as a value of distinct names. -/
theorem distinct_of_readConfig {s : List Char} {v : Json} (h : Json.readConfig s = .ok v) : v.Distinct := by
  unfold Json.readConfig at h
  split at h
  · cases h
  · unfold Json.readAll at h
    obtain ⟨⟨x, rest⟩, hread, hx⟩ := bind_eq_ok h
    dsimp only at hx
    split at hx
    · cases hx
      exact (distinct_of_readValue plainNumbers_config _).1 _ _ _ _ hread
    · cases hx

/-- So is a commented one. -/
theorem distinct_of_readCommented {s : List Char} {v : Json} (h : Json.readCommented s = .ok v) :
    v.Distinct := by
  unfold Json.readCommented at h
  cases hplain : Commented.plainText s with
  | error f =>
    rw [hplain] at h
    cases h
  | ok t =>
    rw [hplain] at h
    dsimp only [bind, Except.bind] at h
    split at h
    · next hread =>
      cases h
      exact distinct_of_readConfig hread
    · cases h

end EditorServices
