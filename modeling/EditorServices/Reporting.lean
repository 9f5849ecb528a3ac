import EditorServices.Log.Line

/-!
# `Reporting` — computations that log and may fail

## Contents
- `Reporting`: the entries logged so far and the result; entries made before a failure are kept.
- Its sequencing, and the two ways to start one: `report` and `Reporting.fail`.
- What a sequence comes to: `ok_bind`, `result_bind` and `result_bind_eq_ok`; what it reports:
  `forall_entries_bind`.
-/

namespace EditorServices

/-- A computation that reports log entries and may fail. -/
structure Reporting (α : Type) where
  entries : List Log.Entry
  result : Except Failure α

namespace Reporting

variable {α β : Type}

/-- A second computation after a first one that did not fail. -/
def andThen (r : Reporting α) (f : α → Reporting β) : Reporting β :=
  match r.result with
  | .ok a => ⟨r.entries ++ (f a).entries, (f a).result⟩
  | .error e => ⟨r.entries, .error e⟩

instance : Monad Reporting where
  pure a := ⟨[], .ok a⟩
  bind := andThen

/-- Fails without a report. -/
def fail (e : Failure) : Reporting α := ⟨[], .error e⟩

/-- What is known already. -/
def ofExcept (r : Except Failure α) : Reporting α := ⟨[], r⟩

end Reporting

/-- Reports one entry. -/
def report (level : Log.Level) (service message : String) (extra : Members) : Reporting Unit :=
  ⟨[⟨level, service, message, extra⟩], .ok ()⟩

theorem ok_bind {α β : Type} (entries : List Log.Entry) (a : α) (f : α → Reporting β) :
    (Reporting.mk entries (.ok a) >>= f) = ⟨entries ++ (f a).entries, (f a).result⟩ := rfl

theorem result_bind {α β : Type} {r : Reporting α} {a : α} (h : r.result = .ok a) (f : α → Reporting β) :
    (r >>= f).result = (f a).result := by
  change (r.andThen f).result = _
  rw [Reporting.andThen, h]

theorem result_bind_eq_ok {α β : Type} {r : Reporting α} {f : α → Reporting β} {b : β}
    (h : (r >>= f).result = .ok b) : ∃ a, r.result = .ok a ∧ (f a).result = .ok b := by
  change (r.andThen f).result = _ at h
  unfold Reporting.andThen at h
  split at h
  · next a hr => exact ⟨a, hr, h⟩
  · cases h

/-- What holds of the entries of both parts of a sequence holds of all its entries. -/
theorem forall_entries_bind {α β : Type} {P : Log.Entry → Prop} {r : Reporting α} {f : α → Reporting β}
    (hr : ∀ e ∈ r.entries, P e) (hf : ∀ a, ∀ e ∈ (f a).entries, P e) : ∀ e ∈ (r >>= f).entries, P e := by
  change ∀ e ∈ (r.andThen f).entries, P e
  unfold Reporting.andThen
  split
  · next a _ =>
    intro e he
    exact (List.mem_append.mp he).elim (hr e) (hf a e)
  · exact hr

end EditorServices
