import EditorServices.Proofs.Config.Loading
import EditorServices.Proofs.Json.PrintedTrees
import EditorServices.Proofs.References
import EditorServices.Proofs.Utf8

/-!
# `Proofs.Config.Decorations` — plain JSON is loaded, however it is decorated

A file may hold blanks and comments between the tokens of its value, and a comma before the end of an array or an
object. None of that changes what is loaded.

## Contents
- **Files.** What is loaded from the bytes of a text: `loadFile_writes`, and `loadFile_print` of what is printed.
- **Decorations.** `loadFile_decorated`.
-/

namespace EditorServices.Config

open Commented (Token Trailed Laid Limits Tree Writes)
open Json (Taken)

variable {env : Environment} {path : String} {limits : Limits} {bytes : Bytes} {text : List Char} {ms : Members}

/-! ## Files -/

theorem loadFile_object (hbytes : readFileText bytes = .ok text)
    (hread : Json.readCommented (env.substitute text) limits = .ok (.obj ms)) (path : String) :
    loadFile env path (.file bytes) limits = pure ms := by
  unfold loadFile readBytes readText
  simp only [hbytes, hread]

theorem loadFile_tooDeep (hbytes : readFileText bytes = .ok text)
    (hread : Json.readCommented (env.substitute text) limits = .error .tooDeep) (path : String) :
    loadFile env path (.file bytes) limits = .fail .tooDeep := by
  unfold loadFile readBytes readText
  simp only [hbytes, hread]

/-- **A text that is written as a tree is loaded as its value**, if it has neither carriage returns nor the start of
a reference. -/
theorem loadFile_writes {t : Tree} (hwrites : Writes text t) (hvalue : t.value? limits.digits decode? = some (.obj ms))
    (hline : '\r' ∉ text) (hplain : ¬ Environment.opener <:+: text) (env : Environment) (path : String) :
    loadFile env path (.file (utf8Encode text)) limits =
      if limits.nesting.any (· < (t.depth : Int)) then .fail .tooDeep else pure ms := by
  have hbytes := readFileText_utf8Encode hline
  have hkept := Environment.substitute_of_none (Environment.nextReference?_of_not_infix hplain) env
  have hread := hwrites.readCommented limits
  rw [← hkept] at hread
  cases hdepth : limits.nesting.any (· < (t.depth : Int)) with
  | true =>
    rw [hdepth, if_pos rfl] at hread
    rw [if_pos rfl]
    exact loadFile_tooDeep hbytes hread path
  | false =>
    rw [hdepth, if_neg Bool.false_ne_true] at hread
    rw [if_neg Bool.false_ne_true]
    have hkeptValue := (Commented.readKept_eq_ok_iff hwrites.formed hdepth).mpr hvalue
    exact loadFile_object hbytes (hread.trans hkeptValue) path

/-- **What is printed is loaded as what it was.** -/
theorem loadFile_print {style : PrintStyle} (hstyle : style.showsHalves = false) (hspaced : style.Spaced)
    (htaken : (Json.obj ms).Taken limits.digits none) (hline : '\r' ∉ (Json.obj ms).print style)
    (hplain : ¬ Environment.opener <:+: (Json.obj ms).print style) (env : Environment) (path : String) :
    loadFile env path (.file (utf8Encode ((Json.obj ms).print style))) limits =
      if limits.nesting.any (· < (((Json.obj ms).tree style).depth : Int)) then .fail .tooDeep else pure ms := by
  have hwrites : Writes ((Json.obj ms).print style) ((Json.obj ms).tree style) :=
    Commented.writes_iff.mpr ⟨htaken.formed_tree hstyle, _, .refl _, laid_print hspaced (.obj ms)⟩
  exact loadFile_writes hwrites (htaken.value?_tree hstyle) hline hplain env path

/-! ## Decorations -/

/-- **Plain JSON is loaded as what it is, however it is decorated.** Whatever style the value is written in that
shows no halves of pairs, wherever there are trailing commas, and whatever blanks and comments are between the
tokens: if the text has neither carriage returns nor the start of a reference, the file is loaded as the object,
and nothing is reported. Only a reader that limits the depth of what it takes may give up on it. -/
theorem loadFile_decorated {style : PrintStyle} (hstyle : style.showsHalves = false)
    (htaken : (Json.obj ms).Taken limits.digits none) {ts : List Token}
    (htrailed : Trailed ((Json.obj ms).tree style).tokens ts) (hlaid : Laid ts text) (hline : '\r' ∉ text)
    (hplain : ¬ Environment.opener <:+: text) (env : Environment) (path : String) :
    loadFile env path (.file (utf8Encode text)) limits =
      if limits.nesting.any (· < (((Json.obj ms).tree style).depth : Int)) then .fail .tooDeep else pure ms := by
  have hwrites : Writes text ((Json.obj ms).tree style) :=
    Commented.writes_iff.mpr ⟨htaken.formed_tree hstyle, ts, htrailed, hlaid⟩
  exact loadFile_writes hwrites (htaken.value?_tree hstyle) hline hplain env path

/-- A file with comments that look like JSON and a string that looks like a comment, and with trailing commas. -/
def decoratedFile : List Char := "\x7b // \x7b\"b\": 1\x7d,\n\"a\": [-1, \"# \\\\ //\",], # ]\n\x7d".toList

/-- The tokens of that file. -/
def decoratedTokens : List Token :=
  [.openBrace, .text ['"', 'a', '"'], .colon, .openBracket, .scalar ['-', '1'], .comma,
    .text ['"', '#', ' ', '\\', '\\', ' ', '/', '/', '"'], .comma, .closeBracket, .comma, .closeBrace]

/-- The file is loaded as the one member that it has. -/
theorem loadFile_decoratedFile :
    (Json.obj [("a", .arr [.int (-1), .str "# \\ //"])]).Taken Limits.usual.digits none ∧
    Trailed ((Json.obj [("a", .arr [.int (-1), .str "# \\ //"])]).tree .plain).tokens decoratedTokens ∧
    Laid decoratedTokens decoratedFile ∧
    loadFile [] "/glint.json" (.file (utf8Encode decoratedFile)) =
      pure [("a", .arr [.int (-1), .str "# \\ //"])] := by
  have htaken : (Json.obj [("a", .arr [.int (-1), .str "# \\ //"])]).Taken Limits.usual.digits none := by
    refine .obj (by decide) (by decide) fun p hp => ?_
    cases List.mem_singleton.mp hp
    refine .arr (by decide) fun x hx => ?_
    simp only [List.mem_cons, List.not_mem_nil, or_false] at hx
    rcases hx with rfl | rfl
    · exact .int (by decide +kernel)
    · exact .str _
  have htokens : ((Json.obj [("a", .arr [.int (-1), .str "# \\ //"])]).tree .plain).tokens =
      [.openBrace, .text ['"', 'a', '"'], .colon, .openBracket, .scalar ['-', '1'], .comma,
        .text ['"', '#', ' ', '\\', '\\', ' ', '/', '/', '"'], .closeBracket, .closeBrace] := by
    decide +kernel
  have htrailed : Trailed ((Json.obj [("a", .arr [.int (-1), .str "# \\ //"])]).tree .plain).tokens
      decoratedTokens := by
    rw [htokens]
    iterate 7 refine .keep _ ?_
    exact .comma false (.comma true .nil)
  have hcomment : Commented.Gap [' ', '/', '/', ' ', '{', '"', 'b', '"', ':', ' ', '1', '}', ',', '\n'] :=
    .blank rfl (.comment (show ['/', '/'] ∈ Commented.commentMarks by decide)
      (show '\n' ∉ [' ', '{', '"', 'b', '"', ':', ' ', '1', '}', ','] by decide) .nil)
  have hend : Commented.Gap [' ', '#', ' ', ']', '\n'] :=
    .blank rfl (.comment (show ['#'] ∈ Commented.commentMarks by decide) (show '\n' ∉ [' ', ']'] by decide) .nil)
  have hblank : Commented.Gap [' '] := .blank rfl .nil
  have hlaid : Laid decoratedTokens decoratedFile :=
    .cons .nil (.cons hcomment (.cons .nil (.cons hblank (.cons .nil (.cons .nil (.cons hblank (.cons .nil
      (.cons .nil (.cons .nil (.cons hend (.nil rfl)))))))))))
  have hplain : ¬ Environment.opener <:+: decoratedFile := fun hwithin =>
    absurd (hwithin.subset (show 'v' ∈ Environment.opener by decide)) (by decide)
  refine ⟨htaken, htrailed, hlaid, ?_⟩
  rw [loadFile_decorated rfl htaken htrailed hlaid (by decide) hplain]
  exact if_neg (by decide +kernel)

end EditorServices.Config
