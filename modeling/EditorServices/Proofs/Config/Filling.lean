import EditorServices.Proofs.Config.Decorations
import EditorServices.Proofs.Json.FilledTexts

/-!
# `Proofs.Config.Filling` — files with references to variables

Values of variables are put into the text of a file before it is read, as they are. Where all references lie inside
of strings, a value becomes part of the string around it as long as its characters stand for themselves there, and
then the file keeps its names and its structure. Other values are read as JSON: a quote ends the string, and what
is after it may be anything.

## Contents
- **Harmless values.** `loadFile_filled`: the object that is loaded.
- **Other values.** `values_leave_strings`: what a value may do to a file.
-/

namespace EditorServices.Config

open Environment (nextReference? Occurs)
open Commented (Limits Tree Writes Cut ReferencesInStrings HarmlessIn nextToken skipIgnored
  referencesInStrings_of_one)

variable {env : Environment} {limits : Limits} {bytes : Bytes} {text : List Char} {ms : Members}

/-! ## Harmless values -/

/-- **A file with values put in is loaded as what is meant.** Let the text of a file be an object, with all its
references inside of strings, and let the values of their variables be harmless. Then the text is written as a tree
whose value is the object, and what is loaded is the value of that same tree with the strings as they are meant: the
value of a variable stands verbatim in place of each reference, and the empty text if it is unset. Nothing is
reported; and if no reference is part of a name, then names and structure are those of the object. -/
theorem loadFile_filled (hbytes : readFileText bytes = .ok text)
    (hread : Json.readCommented text limits = .ok (.obj ms)) (hinside : ReferencesInStrings text)
    (hharmless : HarmlessIn env text) (path : String) :
    ∃ t ms', Writes text t ∧ t.value? limits.digits decode? = some (.obj ms) ∧
      t.value? limits.digits (filled? env) = some (.obj ms') ∧
      loadFile env path (.file bytes) limits = pure ms' ∧
      ((∀ name ∈ t.names, nextReference? name = none) → (Json.obj ms').outline = (Json.obj ms).outline) := by
  obtain ⟨t, hwrites, hdepth, hvalue⟩ := Commented.readCommented_eq_ok_iff.mp hread
  obtain ⟨ms', hfilled, houtline⟩ := hwrites.exists_filled hinside hharmless hvalue
  obtain ⟨hwritten, hsame⟩ := hwrites.filled hinside hharmless hvalue
  have hloaded : Json.readCommented (env.substitute text) limits = .ok (.obj ms') := by
    refine Commented.readCommented_eq_ok_iff.mpr ⟨t.mapText env.substitute, hwritten, ?_, hsame.trans hfilled⟩
    rw [Tree.depth_mapText]
    exact hdepth
  exact ⟨t, ms', hwrites, hvalue, hfilled, loadFile_object hbytes hloaded path, houtline⟩

/-- A file with a reference in a string, and with a trailing comma. -/
def referringFile : List Char := "\x7b\"a\": \"x\x7benv:V\x7dy\",\x7d".toList

/-- What it holds without values put in. -/
theorem referringFile_read : readFileText (utf8Encode referringFile) = .ok referringFile ∧
    Json.readCommented referringFile = .ok (.obj [("a", .str "x\x7benv:V\x7dy")]) :=
  ⟨readFileText_utf8Encode (by decide), by decide +kernel⟩

theorem nextReference?_referringFile :
    nextReference? referringFile = some ("\x7b\"a\": \"x".toList, ['V'], ['y', '"'] ++ [',', '}']) := by
  rfl

theorem referringFile_inside : ReferencesInStrings referringFile := by
  have hcut : Cut referringFile [.openBrace, .text ['"', 'a', '"'], .colon]
      " \"x\x7benv:V\x7dy\",\x7d".toList :=
    .cons rfl (.cons rfl (.cons rfl (.nil _)))
  have htoken : nextToken (skipIgnored false " \"x\x7benv:V\x7dy\",\x7d".toList) =
      some (.text (['"', 'x'] ++ (Environment.written ['V'] ++ ['y', '"'])), [',', '}']) := by
    rfl
  exact referencesInStrings_of_one nextReference?_referringFile (by decide) hcut htoken

/-- Braces, brackets, commas and what starts a comment are harmless. -/
theorem loadFile_referringFile :
    readFileText (utf8Encode referringFile) = .ok referringFile ∧
    Json.readCommented referringFile = .ok (.obj [("a", .str "x\x7benv:V\x7dy")]) ∧
    ReferencesInStrings referringFile ∧ HarmlessIn [("V", "\x7d],//")] referringFile ∧
    ∃ t, Writes referringFile t ∧
      t.value? Limits.usual.digits (filled? [("V", "\x7d],//")]) = some (.obj [("a", .str "x\x7d],//y")]) ∧
      loadFile [("V", "\x7d],//")] "/glint.json" (.file (utf8Encode referringFile)) =
        pure [("a", .str "x\x7d],//y")] := by
  obtain ⟨hbytes, hread⟩ := referringFile_read
  have hharmless : HarmlessIn [("V", "\x7d],//")] referringFile := by
    intro before name after h
    cases h with
    | first next =>
      cases nextReference?_referringFile.symm.trans next
      exact ⟨by decide +kernel, fun hempty => absurd hempty (by decide +kernel)⟩
    | later next more =>
      cases nextReference?_referringFile.symm.trans next
      exact absurd (by decide +kernel) more.ne_none
  have hloaded : loadFile [("V", "\x7d],//")] "/glint.json" (.file (utf8Encode referringFile)) =
      pure [("a", .str "x\x7d],//y")] :=
    loadFile_object hbytes (by decide +kernel) _
  obtain ⟨t, ms', hwrites, -, hfilled, hload, -⟩ :=
    loadFile_filled hbytes hread referringFile_inside hharmless "/glint.json"
  cases hload.symm.trans hloaded
  exact ⟨hbytes, hread, referringFile_inside, hharmless, t, hwrites, hfilled, hloaded⟩

/-! ## Other values -/

/-- A file with a reference between the halves of a pair. -/
def halvesFile : List Char := "\x7b\"a\": \"\\ud83d\x7benv:V\x7d\\ude00\"\x7d".toList

/-- A file with a reference in a name. -/
def namingFile : List Char := "\x7b\"\x7benv:V\x7d\": 1, \"b\": 2\x7d".toList

/-- What is loaded of a file when some variable has some value. -/
def loadedWith (value : String) (text : List Char) : Except Failure Members :=
  (loadFile [("V", value)] "/glint.json" (.file (utf8Encode text))).result

theorem halvesFile_inside : ReferencesInStrings halvesFile := by
  have hnext : nextReference? halvesFile =
      some ("\x7b\"a\": \"\\ud83d".toList, ['V'], "\\ude00\"".toList ++ ['}']) := by
    rfl
  have hcut : Cut halvesFile [.openBrace, .text ['"', 'a', '"'], .colon]
      " \"\\ud83d\x7benv:V\x7d\\ude00\"\x7d".toList :=
    .cons rfl (.cons rfl (.cons rfl (.nil _)))
  have htoken : nextToken (skipIgnored false " \"\\ud83d\x7benv:V\x7d\\ude00\"\x7d".toList) =
      some (.text ("\"\\ud83d".toList ++ (Environment.written ['V'] ++ "\\ude00\"".toList)), ['}']) := by
    rfl
  exact referencesInStrings_of_one hnext (by decide) hcut htoken

theorem namingFile_inside : ReferencesInStrings namingFile := by
  have hnext : nextReference? namingFile =
      some (['{', '"'], ['V'], ['"'] ++ ": 1, \"b\": 2\x7d".toList) := by
    rfl
  have hcut : Cut namingFile [.openBrace] "\"\x7benv:V\x7d\": 1, \"b\": 2\x7d".toList := .cons rfl (.nil _)
  have htoken : nextToken (skipIgnored false "\"\x7benv:V\x7d\": 1, \"b\": 2\x7d".toList) =
      some (.text (['"'] ++ (Environment.written ['V'] ++ ['"'])), ": 1, \"b\": 2\x7d".toList) := by
    rfl
  exact referencesInStrings_of_one hnext (by decide) hcut htoken

/-- **Other values leave their strings.** All these files are objects whose references lie inside of strings. But a
value with quotes adds a member, or leaves a text that breaks the grammar; a backslash starts an escape; with a line
feed the file cannot be read, so that it counts as empty; the empty value joins two halves to one character; and a
name may become that of another member. -/
theorem values_leave_strings :
    (Json.readCommented referringFile = .ok (.obj [("a", .str "x\x7benv:V\x7dy")]) ∧
      ReferencesInStrings referringFile ∧
      loadedWith "\", \"b\": \"" referringFile = .ok [("a", .str "x"), ("b", .str "y")] ∧
      loadedWith "\", \"" referringFile = .error .unexpectedToken ∧
      loadedWith "\\n" referringFile = .ok [("a", .str "x\ny")] ∧
      loadedWith "\n" referringFile = .ok []) ∧
    (Json.readCommented halvesFile = .ok (.obj [("a", .str (String.ofList
        (unitChar 0xd83d :: ("\x7benv:V\x7d".toList ++ [unitChar 0xde00]))))]) ∧
      ReferencesInStrings halvesFile ∧ loadedWith "" halvesFile = .ok [("a", .str "😀")]) ∧
    (Json.readCommented namingFile = .ok (.obj [("\x7benv:V\x7d", .int 1), ("b", .int 2)]) ∧
      ReferencesInStrings namingFile ∧ loadedWith "b" namingFile = .ok [("b", .int 2)]) := by
  refine ⟨⟨referringFile_read.2, referringFile_inside, ?_⟩, ⟨?_, halvesFile_inside, ?_⟩, ?_, namingFile_inside, ?_⟩ <;>
    decide +kernel

end EditorServices.Config
