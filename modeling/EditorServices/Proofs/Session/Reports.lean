import EditorServices.Proofs.Schema.Readings
import EditorServices.Proofs.Session.Dealing
import EditorServices.Proofs.Session.DocumentChanges
import Mathlib.Data.List.Induction

/-!
# `Proofs.Session.Reports` — a session shows what the last report on its document says

A server may report on the problems of any document, as often as it likes, and put anything into a report.
Only the last report on the document of the session counts: what it shows are the entries of that report
that state a problem, in their order, without those of a severity that was switched off. Entries that state
none are passed over one by one.

A report is taken over in the very turn in which the message is received, and no other turn touches what
was taken over. Both are facts about single turns; the headline `last_report_shown` follows a history from
its last report on.

## Contents
- **Reports.** `Lists` and `Reports`: which messages report on the document, and on what.
- **What is shown.** `Shows`, entry by entry.
- **One turn.** `diagnostics_receive`, and `diagnostics_step` for all turns that report nothing.
- **The headline.** `last_report_shown`.
-/

namespace EditorServices.Session

/-! ## Reports -/

/-- The entries that the parameters of a report list: the items of an array, and none if there is nothing.
Texts and objects can be run through as well; their parts state nothing. -/
inductive Lists (params : Members) : List Json → Prop where
  | items {entries : List Json} (given : Named.get? params "diagnostics" = some (.arr entries)) :
      Lists params entries
  | missing (given : Named.get? params "diagnostics" = none) : Lists params []
  | nothing {v : Json} (given : Named.get? params "diagnostics" = some v) (nothing : v.isFalsy = true) :
      Lists params []
  | parts {v : Json} {entries : List Json} (given : Named.get? params "diagnostics" = some v)
      (something : v.isFalsy = false) (parts : v.parts? = some entries) : Lists params entries

/-- A message reports on the document of a profile, with these entries. -/
def Reports (p : Profile) (m : Json) (entries : List Json) : Prop :=
  ∃ ms params, m = .obj ms ∧ Named.get? ms "method" = some (.str "textDocument/publishDiagnostics") ∧
    Named.get? ms "params" = some (.obj params) ∧ Named.get? params "uri" = some (.str p.uri) ∧
    Lists params entries

/-- The entries of a report are what it can be run through. -/
theorem lists_iff {params : Members} {entries : List Json} :
    Lists params entries ↔ (Json.field (.obj params) "diagnostics").partsOrNone? = some entries := by
  have hfield : Json.field (.obj params) "diagnostics" = (Named.get? params "diagnostics").getD .null := rfl
  rw [hfield]
  constructor
  · rintro (given | given | ⟨given, nothing⟩ | ⟨given, something, parts⟩)
    · rw [given]
      cases entries <;> rfl
    · rw [given]
      rfl
    · rw [given]
      exact if_pos nothing
    · rw [given, Option.getD_some, Json.partsOrNone?, something]
      exact parts
  · intro h
    cases hgiven : Named.get? params "diagnostics" with
    | none =>
      rw [hgiven] at h
      cases h
      exact .missing hgiven
    | some v =>
      rw [hgiven, Option.getD_some, Json.partsOrNone?] at h
      split at h
      · next hfalsy =>
        cases h
        exact .nothing hgiven hfalsy
      · next hfalsy => exact .parts hgiven (Bool.eq_false_iff.mpr hfalsy) h

/-! ## What is shown -/

/-- The severity of a problem is switched off: two is a warning, one an error. -/
def SwitchedOff (p : Profile) (d : Diagnostic) : Prop :=
  p.hidesWarnings = true ∧ d.severity = 2 ∨ p.hidesErrors = true ∧ d.severity = 1

/-- What is shown of the entries of a report: the problems that they state, in their order, but for those
of a severity that is switched off. -/
inductive Shows (p : Profile) : List Json → List Diagnostic → Prop where
  | nil : Shows p [] []
  | shown {members : Members} {d : Diagnostic} {entries : List Json} {ds : List Diagnostic}
      (stated : d.StatedBy members) (visible : ¬ SwitchedOff p d) (rest : Shows p entries ds) :
      Shows p (.obj members :: entries) (d :: ds)
  | hidden {members : Members} {d : Diagnostic} {entries : List Json} {ds : List Diagnostic}
      (stated : d.StatedBy members) (hidden : SwitchedOff p d) (rest : Shows p entries ds) :
      Shows p (.obj members :: entries) ds
  | malformed {entry : Json} {entries : List Json} {ds : List Diagnostic}
      (unstated : ∀ members (d : Diagnostic), entry = .obj members → ¬ d.StatedBy members)
      (rest : Shows p entries ds) : Shows p (entry :: entries) ds

variable {p : Profile} {entry : Json} {entries : List Json} {ds : List Diagnostic}

theorem hides_iff {d : Diagnostic} : p.hides d = true ↔ SwitchedOff p d := by
  simp [Profile.hides, SwitchedOff, Diagnostic.warningSeverity, Diagnostic.errorSeverity]

theorem hides_eq_false_iff {d : Diagnostic} : p.hides d = false ↔ ¬ SwitchedOff p d := by
  rw [← hides_iff, Bool.not_eq_true]

/-- What is kept of a report, entry by entry. -/
theorem wellFormed_cons (entry : Json) (entries : List Json) :
    wellFormed (entry :: entries) = (Diagnostic.check entry).toOption.toList ++ wellFormed entries := by
  unfold wellFormed
  rw [List.filterMap_cons]
  cases Diagnostic.check entry <;> rfl

/-- **What a session keeps of a report is what is to be shown of it.** -/
theorem shows_iff : Shows p entries ds ↔ ds = (wellFormed entries).filter fun d => !p.hides d := by
  constructor
  · intro h
    induction h with
    | nil => rfl
    | shown stated visible _ ih =>
      rw [wellFormed_cons, Diagnostic.check_eq_valid_iff.mpr ⟨_, rfl, stated⟩, ih]
      exact (List.filter_cons_of_pos (by simpa [hides_eq_false_iff] using visible)).symm
    | hidden stated hidden _ ih =>
      rw [wellFormed_cons, Diagnostic.check_eq_valid_iff.mpr ⟨_, rfl, stated⟩, ih]
      exact (List.filter_cons_of_neg (by simpa [hides_iff] using hidden)).symm
    | @malformed entry _ _ unstated _ ih =>
      rw [wellFormed_cons, ih]
      cases hcheck : Diagnostic.check entry with
      | valid d =>
        obtain ⟨ms, rfl, stated⟩ := Diagnostic.check_eq_valid_iff.mp hcheck
        exact absurd stated (unstated ms d rfl)
      | invalid issues => rfl
  · rintro rfl
    induction entries with
    | nil => exact .nil
    | cons entry entries ih =>
      rw [wellFormed_cons]
      cases hcheck : Diagnostic.check entry with
      | valid d =>
        obtain ⟨ms, rfl, stated⟩ := Diagnostic.check_eq_valid_iff.mp hcheck
        show Shows p _ ((d :: wellFormed entries).filter _)
        by_cases hidden : SwitchedOff p d
        · rw [List.filter_cons_of_neg (by simpa [hides_iff] using hidden)]
          exact .hidden stated hidden ih
        · rw [List.filter_cons_of_pos (by simpa [hides_eq_false_iff] using hidden)]
          exact .shown stated hidden ih
      | invalid issues =>
        refine .malformed (fun ms d heq stated => ?_) ih
        rw [Diagnostic.check_eq_valid_iff.mpr ⟨ms, heq, stated⟩] at hcheck
        cases hcheck

/-! ## One turn -/

section
variable (s : Session) (t : Nat)

@[simp] theorem diagnostics_finish (o : Except Failure Answer) :
    (s.finish t o).session.diagnostics = s.diagnostics := by rw [session_finish, diagnostics_moveTask]

@[simp] theorem diagnostics_transmit (m : Json) (next : Progress) :
    (s.transmit t m next).session.diagnostics = s.diagnostics := by
  rw [session_transmit, diagnostics_moveTask]

@[simp] theorem diagnostics_ask (purpose : Purpose) (method : String) (params : Json) :
    (s.ask t purpose method params).session.diagnostics = s.diagnostics := by
  rw [session_ask]
  split <;> rfl

@[simp] theorem diagnostics_tell (n : Notification) (rs : List Bus.Subscription) :
    (s.tell t n rs).session.diagnostics = s.diagnostics := by
  obtain ⟨progress, h, -⟩ := session_tell s t n rs
  rw [h, diagnostics_moveTask]

@[simp] theorem diagnostics_reply (r : Reply) : (s.reply t r).session.diagnostics = s.diagnostics := by
  unfold reply
  split <;> rfl

@[simp] theorem diagnostics_failPending (reason : String) :
    (s.failPending reason).session.diagnostics = s.diagnostics :=
  replyAll_preserves (P := fun x => x.diagnostics = s.diagnostics) (fun x t h => by rw [diagnostics_reply, h])
    _ rfl

theorem diagnostics_conclude (purpose : Purpose) (id : Nat) (r : Reply) :
    (s.conclude t purpose id r).session.diagnostics = s.diagnostics := by
  obtain ⟨progress, h, -⟩ := session_conclude s t purpose id r
  rw [h]
  rfl

theorem diagnostics_wrapUp : (s.wrapUp t).session.diagnostics = s.diagnostics :=
  diagnostics_finish s.shutDown t _

theorem diagnostics_begin (job : Job) : (s.begin t job).session.diagnostics = s.diagnostics := by
  cases job with
  | listen => rfl
  | answer id method params =>
    show (s.beginAnswer t id method params).session.diagnostics = _
    unfold beginAnswer
    split
    · exact diagnostics_finish s t _
    · split
      · exact diagnostics_finish s t _
      · exact diagnostics_transmit s t _ _
  | publish n =>
    show (s.beginPublish t n).session.diagnostics = _
    unfold beginPublish
    split
    · exact diagnostics_finish s t _
    · exact diagnostics_tell s t n _
  | call c =>
    cases c with
    | handshake | openDocument => rfl
    | updateDocument text =>
      show (s.beginUpdate t text).session.diagnostics = _
      unfold beginUpdate
      split
      · exact diagnostics_finish s t _
      · exact diagnostics_transmit { s with document := _ } t _ _
    | closeDocument =>
      show (s.beginClose t).session.diagnostics = _
      unfold beginClose
      split
      · exact diagnostics_finish s t _
      · exact diagnostics_transmit s t _ _
    | ask q line character => exact diagnostics_ask s t _ _ _
    | dispose =>
      show (s.beginDispose t).session.diagnostics = _
      unfold beginDispose
      split
      · exact diagnostics_finish s t _
      · exact diagnostics_failPending { s with phase := .disposed } _

theorem diagnostics_continueWith (job : Job) (text : String) (q : Progress) :
    (s.continueWith t job text q).session.diagnostics = s.diagnostics := by
  cases q with
  | openingChannel =>
    exact diagnostics_ask { (s.addTask .listen).1 with reader := some s.tasks.length } t .handshake
      handshakeMethod (handshakeParams s.profile)
  | requesting purpose id written reply =>
    cases written with
    | true => rfl
    | false =>
      cases reply with
      | some r => exact diagnostics_conclude s t purpose id r
      | none => rfl
  | announcing => exact diagnostics_finish { s with phase := .ready } t _
  | reading =>
    show (s.openWith t text).session.diagnostics = _
    unfold openWith
    dsimp only
    split
    · exact diagnostics_finish s t _
    · exact diagnostics_transmit { s with document := _ } t _ _
  | updating | answering => exact diagnostics_finish s t _
  | closing => exact diagnostics_finish { s with document := none } t _
  | closingChannel =>
    show (s.channelClosed t).session.diagnostics = _
    unfold channelClosed
    split
    · exact diagnostics_wrapUp s t
    · rfl
  | created | opening | settling | telling | listening | awaitingReader | finished => rfl

theorem diagnostics_continueWithout (f : Failure) (q : Progress) :
    (s.continueWithout t f q).session.diagnostics = s.diagnostics := by
  cases q with
  | requesting purpose id written reply =>
    cases written with
    | true => rfl
    | false => exact diagnostics_finish (s.dropRequest id) t _
  | openingChannel | announcing | reading | opening | updating | closing | answering
  | closingChannel => exact diagnostics_finish s t _
  | created | settling | telling | listening | awaitingReader | finished => rfl

theorem diagnostics_abandon (q : Progress) : (s.abandon t q).session.diagnostics = s.diagnostics := by
  cases q with
  | finished => rfl
  | requesting purpose id written reply => exact diagnostics_finish (s.dropRequest id) t _
  | awaitingReader reader => exact diagnostics_wrapUp s t
  | created | openingChannel | announcing | reading | opening | settling | updating | closing | answering
  | telling | listening | closingChannel => exact diagnostics_finish s t _

theorem diagnostics_streamEnded (reason : String) (error : Option String) :
    (s.streamEnded t reason error).session.diagnostics = s.diagnostics := by
  unfold streamEnded
  dsimp only
  rw [Turned.session_after, Turned.session_andThen, succeed, diagnostics_finish]
  split
  · rfl
  · exact diagnostics_failPending { s with ended := _ } _

/-- No turn of a task touches what was reported. -/
theorem diagnostics_resume (r : Resumption) : (s.resume t r).session.diagnostics = s.diagnostics := by
  unfold resume
  split
  · rfl
  · split
    · exact diagnostics_begin s t _
    · exact diagnostics_continueWith s t _ _ _
    · exact diagnostics_continueWithout s t _ _
    · exact diagnostics_conclude s t _ _ _
    · exact diagnostics_finish s t _
    · split
      · exact diagnostics_tell s t _ _
      · rfl
    · exact diagnostics_streamEnded s t _ _
    · exact diagnostics_wrapUp s t
    · exact diagnostics_abandon s t _
    · rfl

end

/-! ### Messages -/

section
variable {s : Session}

/-- Neither its answer nor the telling of subscribers touches what a message reported. -/
theorem diagnostics_receiveMethod (s : Session) (ms : Members) (method : Json) :
    (s.receiveMethod ms method).session.diagnostics =
      ((s.noticeDiagnostics method (Json.field (.obj ms) "params")).map fun r => r.session.diagnostics).getD
        s.diagnostics := by
  unfold receiveMethod
  dsimp only
  cases s.noticeDiagnostics method (Json.field (.obj ms) "params") with
  | none => rfl
  | some noticed =>
    have hanswer (q : Session) (id : Option Json) (method params : Json) :
        (q.answerRequest id method params).session.diagnostics = q.diagnostics := by
      cases id <;> rfl
    have htell (q : Session) (id : Option Json) (method params : Json) :
        (q.tellOf id method params).session.diagnostics = q.diagnostics := by
      unfold tellOf
      split <;> rfl
    show (((noticed.andThen _).andThen _).session.diagnostics) = noticed.session.diagnostics
    rw [Turned.session_andThen, htell, Turned.session_andThen, hanswer]

/-- A member that is missing is no object. -/
theorem field_eq_obj_iff {ms params : Members} {name : String} :
    Json.field (.obj ms) name = .obj params ↔ Named.get? ms name = some (.obj params) := by
  show (Named.get? ms name).getD .null = _ ↔ _
  cases Named.get? ms name with
  | none => exact ⟨nofun, nofun⟩
  | some v => simp

/-- **A report on the document is taken over.** -/
theorem diagnostics_receive {m : Json} {entries : List Json} (h : Reports s.profile m entries) :
    Shows s.profile entries (s.receive m).session.diagnostics := by
  obtain ⟨ms, params, rfl, hmethod, hparams, huri, hlists⟩ := h
  rw [shows_iff]
  unfold receive
  dsimp only
  rw [hmethod]
  dsimp only
  rw [diagnostics_receiveMethod, field_eq_obj_iff.mpr hparams]
  show (Option.map _ (s.receiveDiagnostics params)).getD _ = _
  unfold receiveDiagnostics
  rw [if_pos huri, lists_iff.mp hlists]
  rfl

/-- What reports nothing on the document touches nothing. -/
theorem diagnostics_noticeDiagnostics {ms : Members} {method : Json}
    (hmethod : Named.get? ms "method" = some method) (h : ∀ entries, ¬ Reports s.profile (.obj ms) entries) :
    ((s.noticeDiagnostics method (Json.field (.obj ms) "params")).map fun r => r.session.diagnostics).getD
      s.diagnostics = s.diagnostics := by
  generalize hfield : Json.field (.obj ms) "params" = v
  unfold noticeDiagnostics
  split
  · next text params =>
    split
    · next htext =>
      subst htext
      unfold receiveDiagnostics
      split
      · next huri =>
        -- what cannot be run through is passed over; with all else the message would be a report
        cases hparts : (Json.field (.obj params) "diagnostics").partsOrNone? with
        | none => rfl
        | some entries =>
          exact absurd ⟨ms, params, rfl, hmethod, field_eq_obj_iff.mp hfield, huri, lists_iff.mpr hparts⟩
            (h entries)
      · rfl
    · rfl
  · rfl

/-- A message that reports nothing on the document touches nothing. -/
theorem diagnostics_receive_of_not_reports {m : Json} (h : ∀ entries, ¬ Reports s.profile m entries) :
    (s.receive m).session.diagnostics = s.diagnostics := by
  unfold receive
  split
  · next ms =>
    split
    · next method hmethod =>
      rw [diagnostics_receiveMethod]
      exact diagnostics_noticeDiagnostics hmethod h
    · unfold receiveResponse
      dsimp only
      split
      · split
        · exact diagnostics_reply (s.dropRequest _) _ _
        · rfl
      · rfl
  · rfl

/-- **No other turn touches what was reported.** -/
theorem diagnostics_step {u : Turn} (h : ∀ m entries, u = .receive m → ¬ Reports s.profile m entries) :
    (s.step u).session.diagnostics = s.diagnostics := by
  cases u with
  | call c => rfl
  | account t f => rfl
  | resume t r => exact diagnostics_resume s t r
  | receive m => exact diagnostics_receive_of_not_reports fun entries => h m entries rfl

end

/-! ## The headline -/

/-- Without a report on the document a history leaves what was reported before. -/
theorem diagnostics_after {p : Profile} {g h : List Turn}
    (hnone : ∀ m entries, .receive m ∈ h → ¬ Reports p m entries) :
    ((new p).after (g ++ h)).diagnostics = ((new p).after g).diagnostics := by
  induction h using List.reverseRecOn with
  | nil => rw [List.append_nil]
  | append_singleton h u ih =>
    rw [← List.append_assoc, after_append,
      ← ih fun m entries hm => hnone m entries (List.mem_append_left _ hm)]
    refine diagnostics_step fun m entries hu => ?_
    rw [profile_after]
    exact hnone m entries (hu ▸ List.mem_append_right h (List.mem_singleton_self _))

/-- **The last report on the document is shown.** After every history of a session, with any severities
switched off, whatever else happens in it,

* if a message reports on the document and no later one does, then what the session shows of problems is what
  is to be shown of that report, and nothing else;
* if no message reports on the document, the session shows no problem. -/
theorem last_report_shown (p : Profile) (h : List Turn) :
    (∀ before m after entries, h = before ++ .receive m :: after → Reports p m entries →
      (∀ m' entries', .receive m' ∈ after → ¬ Reports p m' entries') →
      ∀ ds, Shows p entries ds ↔ ds = ((new p).after h).diagnostics) ∧
    ((∀ m entries, .receive m ∈ h → ¬ Reports p m entries) → ((new p).after h).diagnostics = []) := by
  constructor
  · -- what the report is taken over as stands until the end, since nothing later touches it
    rintro before m after entries rfl hreports hlast ds
    have hprofile : ((new p).after before).profile = p := profile_after p before
    have htaken : Shows p entries ((new p).after (before ++ [.receive m])).diagnostics := by
      rw [after_append]
      have hreceived := diagnostics_receive (hprofile ▸ hreports)
      rw [hprofile] at hreceived
      exact hreceived
    rw [List.append_cons, diagnostics_after hlast, shows_iff, ← shows_iff.mp htaken]
  · intro hnone
    exact diagnostics_after (g := []) hnone

/-- With warnings switched off, a report is replaced by a later one, of which an entry without a message is
passed over and a warning, written as a text, is left out; a report on another document changes nothing. -/
theorem later_report_replaces :
    let p : Profile := ⟨"/a.txt", .str "text", "/", .int 0, true, false, 1⟩
    let entry (message : String) (more : Members) : Json :=
      .obj (("range", .obj []) :: ("message", .str message) :: more)
    let report (uri : String) (entries : List Json) : Json :=
      .obj [("method", .str "textDocument/publishDiagnostics"),
        ("params", .obj [("uri", .str uri), ("diagnostics", .arr entries)])]
    let h : List Turn := [.receive (report "file:///a.txt" [entry "first" []]),
      .receive (report "file:///a.txt" [.obj [("range", .obj [])], entry "second" [("severity", .str "2")],
        entry "third" [("severity", .float (Binary64.ofInt 3))]]),
      .receive (report "file:///b.txt" [entry "fourth" []]), .call .dispose]
    ((new p).after h).diagnostics = [⟨[], "third", 3, none, .null⟩] := by
  intro p entry report h
  let entries : List Json := [.obj [("range", .obj [])], entry "second" [("severity", .str "2")],
    entry "third" [("severity", .float (Binary64.ofInt 3))]]
  have second : Reports p (report "file:///a.txt" entries) entries :=
    ⟨_, _, rfl, rfl, rfl, by decide, .items rfl⟩
  have later (m : Json) (entries' : List Json)
      (hm : .receive m ∈ [Turn.receive (report "file:///b.txt" [entry "fourth" []]), .call .dispose]) :
      ¬ Reports p m entries' := by
    rintro ⟨ms, params, rfl, -, hparams, huri, -⟩
    simp only [report, List.mem_cons, Turn.receive.injEq, Json.obj.injEq, reduceCtorEq, List.not_mem_nil,
      or_false] at hm
    subst hm
    obtain rfl : [("uri", Json.str "file:///b.txt"), _] = params := Json.obj.inj (Option.some.inj hparams)
    exact absurd huri (by decide)
  have shown : Shows p entries [⟨[], "third", 3, none, .null⟩] := shows_iff.mpr (by decide +kernel)
  exact (((last_report_shown p h).1 [_] _ _ entries rfl second later _).mp shown).symm

end EditorServices.Session
