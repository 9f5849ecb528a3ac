import EditorServices.Proofs.Session.Correlation

/-!
# `Proofs.Session.Degrading` — badly shaped answers

A server may put anything under `result` and under `error`. A question is to end with an answer of the
kind it promises whatever the server sent, and with the empty one if there is no result to read.

That holds for hovers and references without exception. Two results spoil it for the others: items of a
completion that are a number, which cannot be run through, and an address of a definition that is no
text, which is handed on as it is. Both have to count as something, since what counts as nothing is
replaced by an empty value first. `Spoilt` names them, `reads` says that there are no more, and
`answers_degrade_unless_spoilt` carries this to the turn in which the question ends.

## Contents
- **Running through a value.** `Json.partsOrNone?_eq_none`.
- **What is promised.** `Promised`, and the empty answer `Query.nothing`.
- **Results that spoil an answer.** `Spoilt`.
- **Reading a result.** `Reads`, with `reads_completions` and `reads_definition`.
- **Nothing to read.** `Resultless`.
- **The end of a question.** `EndsExactly`, and the headline `answers_degrade_unless_spoilt`.
-/

namespace EditorServices

namespace Json

/-! ## Running through a value -/

/-- Of what counts as something, only a number cannot be run through. -/
theorem partsOrNone?_eq_none {v : Json} :
    v.partsOrNone? = none ↔ v.isFalsy = false ∧ v.numeral?.isSome := by
  unfold partsOrNone?
  cases hv : v.isFalsy with
  | true => simp
  | false => cases v <;> simp_all [parts?, numeral?, isFalsy]

end Json

namespace Session

open Completion

/-! ## What is promised -/

/-- An answer of the kind that a question promises; the address of a definition is a text. -/
inductive Promised : Query → Answer → Prop where
  | suggestions (items : List Suggestion) : Promised .completions (.suggestions items)
  | text (s : String) : Promised .hover (.text s)
  | target (s : String) : Promised .definition (.target (.str s))
  | locations (items : List Json) : Promised .references (.locations items)

/-- The empty answer to a question. -/
def Query.nothing : Query → Answer
  | .completions => .suggestions []
  | .hover => .text ""
  | .definition => .target (.str "")
  | .references => .locations []

theorem Query.nothing_promised (q : Query) : Promised q q.nothing := by
  cases q with
  | completions => exact .suggestions []
  | hover => exact .text ""
  | definition => exact .target ""
  | references => exact .locations []

/-! ## Results that spoil an answer -/

/-- A result with a value in the wrong place, and what comes of it: items of a completion that are a
number or truth value cannot be run through, and an address of a definition that is no text is handed
on. The value counts as something, or an empty one would take its place. -/
inductive Spoilt : Query → Json → Except Failure Answer → Prop where
  | items {ms : Members} {v : Json} (found : Named.get? ms "items" = some v)
      (something : v.isFalsy = false) (number : v.numeral?.isSome) :
      Spoilt .completions (.obj ms) (.error .wrongKind)
  | address {first : Json} {ms : Members} {rest : List Json} {v : Json}
      (found : Named.get? ms "uri" = some v) (something : v.isFalsy = false)
      (other : v.asText? = none) : Spoilt .definition (.arr (first :: .obj ms :: rest)) (.ok (.target v))

/-- What comes of a spoilt result is no answer of the kind that was promised. -/
theorem Spoilt.not_promised {q : Query} {result : Json} {a : Answer} (h : Spoilt q result (.ok a)) :
    ¬ Promised q a := by
  cases h with
  | address found something other =>
    intro promised
    cases promised with
    | target s => cases other

/-- One thing comes of a spoilt result. -/
theorem Spoilt.unique {q : Query} {result : Json} {o o' : Except Failure Answer}
    (h : Spoilt q result o) (h' : Spoilt q result o') : o = o' := by
  cases h with
  | items => cases h' with | items => rfl
  | address found =>
    cases h' with
    | address found' => rw [Option.some.inj (found.symm.trans found')]

/-! ## Reading a result -/

/-- What a question makes of a result: what comes of a spoilt one, or an answer of its kind. -/
inductive Reads (q : Query) (result : Json) : Except Failure Answer → Prop where
  | spoilt {o : Except Failure Answer} (spoilt : Spoilt q result o) : Reads q result o
  | proper {a : Answer} (promised : Promised q a) (unspoilt : ∀ o, ¬ Spoilt q result o) :
      Reads q result (.ok a)

section
variable {q : Query} {result : Json} {o : Except Failure Answer}

theorem Reads.of_spoilt (h : Reads q result o) {o' : Except Failure Answer} (ho' : Spoilt q result o') :
    o = o' := by
  cases h with
  | spoilt ho => exact ho.unique ho'
  | proper _ unspoilt => exact absurd ho' (unspoilt o')

theorem Reads.of_unspoilt (h : Reads q result o) (unspoilt : ∀ o', ¬ Spoilt q result o') :
    ∃ a, Promised q a ∧ o = .ok a := by
  cases h with
  | spoilt ho => exact absurd ho (unspoilt o)
  | proper promised _ => exact ⟨_, promised, rfl⟩

end

theorem reads_completions (result : Json) : Reads .completions result (Query.completions.read result) := by
  unfold Query.read suggestions
  cases result with
  | arr xs => exact .proper (.suggestions _) nofun
  | obj ms =>
    dsimp only
    cases hparts : (Json.field (.obj ms) "items").partsOrNone? with
    | some xs =>
      refine .proper (.suggestions _) fun o ho => ?_
      cases ho with
      | items found something number =>
        have hnone := Json.partsOrNone?_eq_none.mpr ⟨something, number⟩
        rw [Json.field, Json.get?, found, Option.getD_some, hnone] at hparts
        cases hparts
    | none =>
      obtain ⟨something, number⟩ := Json.partsOrNone?_eq_none.mp hparts
      rw [Json.field, Json.get?] at something number
      cases hfound : Named.get? ms "items" with
      | none =>
        -- items that are missing count as nothing
        rw [hfound] at something
        cases something
      | some v =>
        rw [hfound, Option.getD_some] at something number
        exact .spoilt (.items hfound something number)
  | null | bool _ | int _ | float _ | str _ => exact .proper (.suggestions _) nofun

section
variable {first : Json} {ms : Members} {rest : List Json} {u : Json}

/-- An address spoils a definition only by being something other than a text. -/
theorem Spoilt.address_other (found : Named.get? ms "uri" = some u) {o : Except Failure Answer}
    (h : Spoilt .definition (.arr (first :: .obj ms :: rest)) o) : u.isFalsy = false ∧ u.asText? = none := by
  cases h with
  | address found' something other =>
    obtain rfl := Option.some.inj (found.symm.trans found')
    exact ⟨something, other⟩

/-- An address that counts as nothing is replaced by the empty text, and a text is taken as it is. -/
theorem reads_address (found : Named.get? ms "uri" = some u) :
    Reads .definition (.arr (first :: .obj ms :: rest))
      (.ok (.target (if u.isFalsy then .str "" else u))) := by
  cases hfalsy : u.isFalsy with
  | true =>
    refine .proper (.target "") fun o ho => ?_
    have hsome := (ho.address_other found).1
    rw [hfalsy] at hsome
    cases hsome
  | false =>
    cases htext : u.asText? with
    | none => exact .spoilt (.address found hfalsy htext)
    | some s =>
      obtain rfl : u = .str s := by
        cases u <;> cases htext
        rfl
      refine .proper (.target s) fun o ho => ?_
      cases (ho.address_other found).2

end

theorem reads_definition (result : Json) : Reads .definition result (Query.definition.read result) := by
  unfold Query.read definitionTarget
  dsimp only
  split
  · next first location rest =>
    cases location with
    | obj ms =>
      rw [Json.get?]
      cases found : Named.get? ms "uri" with
      | some u => exact reads_address found
      | none =>
        refine .proper (.target _) fun o ho => ?_
        cases ho with
        | address found' =>
          rw [found] at found'
          cases found'
    | null | bool _ | int _ | float _ | str _ | arr _ => exact .proper (.target _) nofun
  · next hshort =>
    refine .proper (.target _) fun o ho => ?_
    cases ho with
    | address => exact hshort _ _ _ rfl

/-- **A question makes an answer of its kind of every result, but for the spoilt ones.** -/
theorem reads (q : Query) (result : Json) : Reads q result (q.read result) := by
  cases q with
  | completions => exact reads_completions result
  | hover => exact .proper (.text _) nofun
  | definition => exact reads_definition result
  | references => exact .proper (.locations _) nofun

/-! ## Nothing to read -/

/-- A response with an error that is not null, or with no result or a result that is null. -/
def Resultless (response : Json) : Prop :=
  (∃ e, response.get? "error" = some e ∧ e ≠ .null) ∨ response.get? "result" = none ∨
    response.get? "result" = some .null

/-- An error hides the result, whatever it is. -/
theorem resultOf_of_error {response e : Json} (h : response.get? "error" = some e) (he : e ≠ .null) :
    resultOf response = .null := by
  have hgiven : errorOf? response = some e := by
    unfold errorOf? Json.given?
    rw [h]
    split
    · next hnull => exact absurd (Option.some.inj hnull) he
    · rfl
  rw [resultOf, hgiven]
  rfl

theorem Resultless.resultOf {response : Json} (h : Resultless response) : resultOf response = .null := by
  rcases h with ⟨e, herror, he⟩ | hnone | hnull
  · exact resultOf_of_error herror he
  · rw [Session.resultOf, Json.field, hnone]
    exact ite_self _
  · rw [Session.resultOf, Json.field, hnull]
    exact ite_self _

/-- **Without a result the answer is the empty one.** -/
theorem Resultless.answer {response : Json} (h : Resultless response) (q : Query) :
    q.answer response = .ok q.nothing := by
  rw [Query.answer, h.resultOf]
  cases q <;> rfl

/-! ## The end of a question -/

/-- A call of a task ends in a turn with an outcome, and with no other. -/
def EndsExactly (s : Session) (u : Turn) (t : Nat) (o : Except Failure Answer) : Prop :=
  ∀ o', .completed t o' ∈ (s.step u).effects ↔ o' = o

/-- A question ends with what the response to its request means, and with nothing else. -/
theorem Concludes.endsExactly {s : Session} {u : Turn} {t id : Nat} {m : Json}
    (h : Concludes s u t id (.ok m)) (ho : Orderly s) {q : Query} {line character : Json}
    (job : s.jobOf t = some (.call (.ask q line character))) : EndsExactly s u t (q.answer m) := by
  intro o
  constructor
  · intro hmem
    rcases response_or_failure ho job hmem with ⟨id', m', hc, rfl⟩ | ⟨-, hnone⟩
    · -- a wait has one reply
      obtain ⟨w, hw, -, hreply⟩ := h.waitOf
      obtain ⟨w', hw', -, hreply'⟩ := hc.waitOf
      obtain rfl : w = w' := Option.some.inj (hw.symm.trans hw')
      rw [hreply] at hreply'
      cases hreply'
      rfl
    · exact absurd h (hnone id m)
  · rintro rfl
    exact h.completed ho job

/-- **Badly shaped answers degrade, but for two shapes.** After every history, in the turn in which a
question about any position gets the response to its request, whatever the response holds:

* if nothing spoils the result, the question ends with an answer of the kind it promises;
* if there is an error, or no result, it ends with the empty answer;
* if the result is spoilt, the question ends with what comes of that: it fails, or its answer is none of
  the kind it promises. -/
theorem answers_degrade_unless_spoilt {p : Profile} {h : List Turn} {u : Turn} {t id : Nat} {m : Json}
    {q : Query} {line character : Json}
    (job : ((new p).after h).jobOf t = some (.call (.ask q line character)))
    (concludes : Concludes ((new p).after h) u t id (.ok m)) :
    ((∀ o, ¬ Spoilt q (resultOf m) o) → ∃ a, Promised q a ∧ EndsExactly ((new p).after h) u t (.ok a)) ∧
    (Resultless m → EndsExactly ((new p).after h) u t (.ok q.nothing) ∧ Promised q q.nothing) ∧
    (∀ o, Spoilt q (resultOf m) o →
      EndsExactly ((new p).after h) u t o ∧ ∀ a, o = .ok a → ¬ Promised q a) := by
  have hends : EndsExactly ((new p).after h) u t (q.answer m) := concludes.endsExactly (orderly_after p h) job
  have hreads : Reads q (resultOf m) (q.answer m) := reads q (resultOf m)
  refine ⟨fun unspoilt => ?_, fun hnone => ⟨hnone.answer q ▸ hends, q.nothing_promised⟩,
    fun o ho => ⟨?_, ?_⟩⟩
  · obtain ⟨a, promised, ha⟩ := hreads.of_unspoilt unspoilt
    exact ⟨a, promised, ha ▸ hends⟩
  · exact hreads.of_spoilt ho ▸ hends
  · rintro a rfl
    exact ho.not_promised

/-! ### One question and its answer -/

/-- A session shakes hands and asks one question, to which the server has an answer. -/
def asked (q : Query) (answer : Members) : List Turn :=
  [.call .handshake, .resume 0 .begins, .resume 0 (.returned (.ok "")), .resume 0 (.returned (.ok "")),
    .receive (.obj [("id", .int 1), ("result", .obj [])]), .resume 0 .replied,
    .resume 0 (.returned (.ok "")), .call (.ask q (.int 0) (.int 0)), .resume 2 .begins,
    .resume 2 (.returned (.ok "")), .receive (.obj (("id", .int 2) :: answer))]

/-- A hover whose response has contents, and an error besides, is empty. -/
theorem error_hides_contents :
    let p : Profile := ⟨"/a.txt", .str "text", "/", .int 0, false, false, 1⟩
    let h := asked .hover [("error", .int 0), ("result", .obj [("contents", .str "x")])]
    EndsExactly ((new p).after h) (.resume 2 .replied) 2 (.ok (.text "")) := by
  intro p h
  let m : Json := .obj [("id", .int 2), ("error", .int 0), ("result", .obj [("contents", .str "x")])]
  have job : ((new p).after h).jobOf 2 = some (.call (.ask .hover (.int 0) (.int 0))) := by decide +kernel
  have waits : ((new p).after h).progressOf 2 = some (.requesting (.ask .hover) 2 true (some (.ok m))) := by
    decide +kernel
  exact (answers_degrade_unless_spoilt job (.replied waits)).2.1 (.inl ⟨.int 0, rfl, nofun⟩) |>.1

/-- Items that are a number make a completion fail, and a number for an address is handed on. -/
theorem numbers_spoil_answers :
    let p : Profile := ⟨"/a.txt", .str "text", "/", .int 0, false, false, 1⟩
    let h := asked .completions [("result", .obj [("items", .int 5)])]
    let g := asked .definition [("result", .arr [.obj [], .obj [("uri", .int 5)]])]
    EndsExactly ((new p).after h) (.resume 2 .replied) 2 (.error .wrongKind) ∧
      EndsExactly ((new p).after g) (.resume 2 .replied) 2 (.ok (.target (.int 5))) ∧
      ¬ Promised .definition (.target (.int 5)) := by
  intro p h g
  let m : Json := .obj [("id", .int 2), ("result", .obj [("items", .int 5)])]
  let n : Json := .obj [("id", .int 2), ("result", .arr [.obj [], .obj [("uri", .int 5)]])]
  have items : EndsExactly ((new p).after h) (.resume 2 .replied) 2 (Query.completions.answer m) := by
    have job : ((new p).after h).jobOf 2 = some (.call (.ask .completions (.int 0) (.int 0))) := by
      decide +kernel
    have waits : ((new p).after h).progressOf 2
        = some (.requesting (.ask .completions) 2 true (some (.ok m))) := by decide +kernel
    exact (Concludes.replied waits).endsExactly (orderly_after p h) job
  have address : EndsExactly ((new p).after g) (.resume 2 .replied) 2 (Query.definition.answer n) := by
    have job : ((new p).after g).jobOf 2 = some (.call (.ask .definition (.int 0) (.int 0))) := by
      decide +kernel
    have waits : ((new p).after g).progressOf 2
        = some (.requesting (.ask .definition) 2 true (some (.ok n))) := by decide +kernel
    exact (Concludes.replied waits).endsExactly (orderly_after p g) job
  exact ⟨items, address, nofun⟩

end Session

end EditorServices
