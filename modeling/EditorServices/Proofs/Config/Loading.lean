import EditorServices.Config.File
import EditorServices.Proofs.Json.CommentedText

/-!
# `Proofs.Config.Loading` — which files cannot be loaded

Most of what can be wrong with a file makes it count as an empty object: it is a directory, the host refuses to
open it, its bytes are no text, there is a character in it that starts no token, or its value is no plain JSON or
no object. Three things do not: a path that the host refuses to look up, text that breaks the grammar, and arrays
and objects that are nested too deeply. Then the load fails, and with it whatever needed the file.

## Contents
- **Reading.** The outcomes of `readText` and `readBytes`, in terms of the text.
- **Loading.** `Escapes` and `Holds`; `loadFile_total`, exactly when a load fails and what it gives else.
-/

namespace EditorServices.Config

open Commented (Misplaced TooDeep)

variable {env : Environment} {path : String} {found : FileTree.Found} {text : List Char} {bytes : Bytes}

/-! ## Reading -/

theorem readText_eq_object_iff {limits : Commented.Limits} {ms : Members} :
    readText env text limits = .object ms ↔ Json.readCommented (env.substitute text) limits = .ok (.obj ms) := by
  unfold readText
  dsimp only
  cases Json.readCommented (env.substitute text) limits with
  | ok v => cases v <;> simp
  | error f => cases f <;> simp

theorem readText_eq_misplacedToken_iff :
    readText env text = .misplacedToken ↔ Misplaced (env.substitute text) := by
  rw [← Json.readCommented_eq_misplaced_iff]
  unfold readText
  dsimp only
  cases Json.readCommented (env.substitute text) with
  | ok v => cases v <;> simp
  | error f => cases f <;> simp

theorem readText_eq_tooDeep_iff : readText env text = .tooDeep ↔ TooDeep (env.substitute text) := by
  rw [← Json.readCommented_eq_tooDeep_iff]
  unfold readText
  dsimp only
  cases Json.readCommented (env.substitute text) with
  | ok v => cases v <;> simp
  | error f => cases f <;> simp

/-- What is read of bytes is read of their text; bytes that are no text cannot be read. -/
theorem readBytes_eq_iff {r : FileResult} (hr : ∀ why, r ≠ .unreadable why) :
    readBytes env bytes = r ↔ ∃ text, readFileText bytes = .ok text ∧ readText env text = r := by
  unfold readBytes
  cases readFileText bytes with
  | ok text =>
    constructor
    · intro h
      exact ⟨text, rfl, h⟩
    · rintro ⟨text', htext, h⟩
      cases htext
      exact h
  | error detail =>
    constructor
    · intro h
      exact absurd h.symm (hr _)
    · rintro ⟨text, htext, -⟩
      cases htext

/-! ## Loading -/

/-- What makes a load fail, and how. -/
inductive Escapes (env : Environment) : FileTree.Found → Failure → Prop
  | refused (why : FileTree.Hindrance) : Escapes env (.refused why) why.failure
  | misplaced {bytes : Bytes} {text : List Char} (reads : readFileText bytes = .ok text)
      (broken : Misplaced (env.substitute text)) : Escapes env (.file bytes) .unexpectedToken
  | tooDeep {bytes : Bytes} {text : List Char} (reads : readFileText bytes = .ok text)
      (deep : TooDeep (env.substitute text)) : Escapes env (.file bytes) .tooDeep

/-- A file holds an object. -/
def Holds (env : Environment) (found : FileTree.Found) (ms : Members) : Prop :=
  ∃ bytes text, found = .file bytes ∧ readFileText bytes = .ok text ∧
    Json.readCommented (env.substitute text) = .ok (.obj ms)

theorem holds_file_iff {ms : Members} : Holds env (.file bytes) ms ↔ readBytes env bytes = .object ms := by
  rw [readBytes_eq_iff fun why h => by cases h]
  constructor
  · rintro ⟨_, text, heq, hreads, hvalue⟩
    cases heq
    exact ⟨text, hreads, readText_eq_object_iff.mpr hvalue⟩
  · rintro ⟨text, hreads, hvalue⟩
    exact ⟨bytes, text, rfl, hreads, readText_eq_object_iff.mp hvalue⟩

theorem escapes_file_iff {f : Failure} : Escapes env (.file bytes) f ↔
    (readBytes env bytes = .misplacedToken ∧ f = .unexpectedToken) ∨
      (readBytes env bytes = .tooDeep ∧ f = .tooDeep) := by
  have hmisplaced : ∀ why, FileResult.misplacedToken ≠ .unreadable why := fun why h => by cases h
  have hdeep : ∀ why, FileResult.tooDeep ≠ .unreadable why := fun why h => by cases h
  rw [readBytes_eq_iff hmisplaced, readBytes_eq_iff hdeep]
  constructor
  · intro h
    cases h with
    | misplaced reads broken => exact .inl ⟨⟨_, reads, readText_eq_misplacedToken_iff.mpr broken⟩, rfl⟩
    | tooDeep reads deep => exact .inr ⟨⟨_, reads, readText_eq_tooDeep_iff.mpr deep⟩, rfl⟩
  · rintro (⟨⟨text, reads, hbroken⟩, rfl⟩ | ⟨⟨text, reads, hdeep⟩, rfl⟩)
    · exact .misplaced reads (readText_eq_misplacedToken_iff.mp hbroken)
    · exact .tooDeep reads (readText_eq_tooDeep_iff.mp hdeep)

/-- What is said of a load: when it fails, and what it gives else. -/
def Settles (env : Environment) (found : FileTree.Found) (r : Except Failure Members) : Prop :=
  (∀ f, r = .error f ↔ Escapes env found f) ∧
  ∀ ms, r = .ok ms ↔ Holds env found ms ∨
    (ms = [] ∧ (∀ ms', ¬ Holds env found ms') ∧ ∀ f, ¬ Escapes env found f)

/-- What holds no object and does not escape counts as an empty object. -/
theorem settles_empty (hholds : ∀ ms, ¬ Holds env found ms) (hescapes : ∀ f, ¬ Escapes env found f) :
    Settles env found (.ok []) := by
  refine ⟨fun f => ⟨fun h => ?_, fun h => absurd h (hescapes f)⟩, fun ms => ⟨fun h => ?_, ?_⟩⟩
  · cases h
  · cases h
    exact .inr ⟨rfl, hholds, hescapes⟩
  · rintro (h | ⟨rfl, -⟩)
    · exact absurd h (hholds ms)
    · rfl

/-- What escapes is the failure of the load. -/
theorem settles_error {f : Failure} (hholds : ∀ ms, ¬ Holds env found ms)
    (hescapes : ∀ f', Escapes env found f' ↔ f = f') : Settles env found (.error f) := by
  refine ⟨fun f' => ⟨fun h => ?_, fun h => ?_⟩, fun ms => ⟨fun h => ?_, ?_⟩⟩
  · cases h
    exact (hescapes f).mpr rfl
  · rw [(hescapes f').mp h]
  · cases h
  · rintro (h | ⟨-, -, hnone⟩)
    · exact absurd h (hholds ms)
    · exact absurd ((hescapes f).mpr rfl) (hnone f)

/-- The object that a file holds is what the load gives. -/
theorem settles_object {held : Members} (hholds : ∀ ms, Holds env found ms ↔ held = ms)
    (hescapes : ∀ f, ¬ Escapes env found f) : Settles env found (.ok held) := by
  refine ⟨fun f => ⟨fun h => ?_, fun h => absurd h (hescapes f)⟩, fun ms => ⟨fun h => ?_, ?_⟩⟩
  · cases h
  · cases h
    exact .inl ((hholds held).mpr rfl)
  · rintro (h | ⟨-, hnone, -⟩)
    · rw [(hholds ms).mp h]
    · exact absurd ((hholds held).mpr rfl) (hnone held)

/-- Only files hold objects. -/
theorem not_holds (hfound : ∀ bytes, found ≠ .file bytes) (ms : Members) : ¬ Holds env found ms := by
  rintro ⟨bytes, _, heq, -⟩
  exact hfound bytes heq

/-- The load of a file is settled by what is read of its bytes. -/
theorem settles_file (env : Environment) (path : String) (bytes : Bytes) :
    Settles env (.file bytes) (loadFile env path (.file bytes)).result := by
  have hholds := fun ms => @holds_file_iff env bytes ms
  have hescapes := fun f => @escapes_file_iff env bytes f
  unfold loadFile
  dsimp only
  cases hread : readBytes env bytes with
  | object held =>
    simp only [hread, reduceCtorEq, false_and, or_self, FileResult.object.injEq] at hholds hescapes
    exact settles_object hholds fun f => (hescapes f).mp
  | otherValue =>
    simp only [hread, reduceCtorEq, false_and, or_self] at hholds hescapes
    exact settles_empty (fun ms => (hholds ms).mp) fun f => (hescapes f).mp
  | unreadable why =>
    simp only [hread, reduceCtorEq, false_and, or_self] at hholds hescapes
    exact settles_empty (fun ms => (hholds ms).mp) fun f => (hescapes f).mp
  | misplacedToken =>
    simp only [hread, reduceCtorEq, true_and, false_and, or_false] at hholds hescapes
    exact settles_error (fun ms => (hholds ms).mp) fun f => (hescapes f).trans eq_comm
  | tooDeep =>
    simp only [hread, reduceCtorEq, true_and, false_and, false_or] at hholds hescapes
    exact settles_error (fun ms => (hholds ms).mp) fun f => (hescapes f).trans eq_comm

/-- **Exactly when a file cannot be loaded, and what a load gives else.** Whatever is found under a path,
whatever the bytes of the file and the variables are: the load fails if the host refuses to look the path up, if
the text of the file breaks the grammar, or if its value is nested too deeply. Else it gives the object that the
file holds, and the empty object if it holds none, also if the host refuses to open it. -/
theorem loadFile_total (env : Environment) (path : String) (found : FileTree.Found) :
    (∀ f, (loadFile env path found).result = .error f ↔ Escapes env found f) ∧
    ∀ ms, (loadFile env path found).result = .ok ms ↔ Holds env found ms ∨
      (ms = [] ∧ (∀ ms', ¬ Holds env found ms') ∧ ∀ f, ¬ Escapes env found f) := by
  show Settles env found _
  cases found with
  | nothing | directory | lockedFile | lockedDirectory =>
    exact settles_empty (not_holds fun _ h => by cases h) fun f h => by cases h
  | refused why =>
    refine settles_error (not_holds fun _ h => by cases h) fun f => ⟨fun h => ?_, fun h => ?_⟩
    · cases h
      rfl
    · cases h
      exact .refused why
  | file bytes => exact settles_file env path bytes

/-- The load of a file that breaks off after its first brace fails, and gives no object. -/
theorem unclosed_file_escapes :
    (loadFile [] "/a/glint.json" (.file (utf8Encode ['{']))).result = .error .unexpectedToken ∧
      ∀ ms, (loadFile [] "/a/glint.json" (.file (utf8Encode ['{']))).result ≠ .ok ms := by
  have hfails : (loadFile [] "/a/glint.json" (.file (utf8Encode ['{']))).result = .error .unexpectedToken := by
    decide +kernel
  refine ⟨hfails, fun ms h => ?_⟩
  rw [hfails] at h
  cases h

end EditorServices.Config
