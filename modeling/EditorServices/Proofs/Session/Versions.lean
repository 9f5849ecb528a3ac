import EditorServices.Proofs.Session.DocumentChanges

/-!
# `Proofs.Session.Versions` — the versions of which the server is told rise by one

While a session stays open and nobody closes the document, every turn that accepts an opening or a change
gives the document the next version and hands over one message with it, and no other turn does either.
Since both happen in one turn, it does not matter how the calls take turns: an opening may read its file
while changes of the document that is still listed go on.

A call is accepted once at most. It is accepted in its first turn, or in the one in which its file was
read, and after both it is `Spent`.

## Contents
- **Histories.** `announcedIn`, `Numbered`, and `StaysOpen`, under which a turn is one of two things.
- **The row of versions.** `numbered_announced`, `opened_first`, `version_announced_last`.
- **One message for a call.** `Spent`, `AcceptedIn`, `announced_by` and `not_acceptedIn_of_unlisted`.
- **Success.** `Unaccepted` and `accepted_of_succeeded`.
- **The headline.** `InVersionOrder` and `versions_in_order`.
-/

namespace EditorServices.Session

/-! ## Histories -/

/-- The texts of which a history tells the server, in the order in which they are handed over. -/
def announcedIn (s : Session) (hs : List Turn) : List Announcement := announcements (s.run hs).effects

theorem announcedIn_cons (s : Session) (u : Turn) (hs : List Turn) :
    s.announcedIn (u :: hs) = announcements (s.step u).effects ++ (s.step u).session.announcedIn hs := by
  show announcements ((s.step u).effects ++ _) = _
  rw [announcements_append]
  rfl

/-- The version of the document; none was given yet if it is not listed. -/
def version (s : Session) : Int := (s.document.map DocumentHandle.version).getD 0

/-- The versions rise by one, from the one after `base`. -/
def Numbered (base : Int) (as : List Announcement) : Prop :=
  ∀ (i : Nat) (a : Announcement), as[i]? = some a → a.version = .int (base + i + 1)

theorem numbered_nil (base : Int) : Numbered base [] := by
  intro i a h
  cases h

theorem Numbered.cons {base : Int} {a : Announcement} {as : List Announcement}
    (first : a.version = .int (base + 1)) (rest : Numbered (base + 1) as) : Numbered base (a :: as) := by
  intro i b hb
  cases i with
  | zero =>
    obtain rfl : a = b := Option.some.inj hb
    rw [first]
    simp
  | succ i =>
    rw [rest i b hb]
    congr 1
    push_cast
    omega

/-- No message is refused during a history, and no closing of the document goes on in it. -/
structure StaysOpen (s : Session) (hs : List Turn) : Prop where
  opened : ∀ a b, hs = a ++ b → (s.after a).refusal? = none
  unclosing : ∀ t, (s.after hs).jobOf t = some (.call .closeDocument) → s.progressOf t = some .finished

namespace StaysOpen

variable {s : Session} {u : Turn} {hs : List Turn}

theorem now (h : StaysOpen s hs) : s.refusal? = none := h.opened [] hs rfl

theorem tail (ho : Orderly s) (h : StaysOpen s (u :: hs)) : StaysOpen (s.step u).session hs := by
  refine ⟨fun a b heq => ?_, fun t hj => ?_⟩
  · exact h.opened (u :: a) b (by rw [heq, List.cons_append])
  · exact ho.finished_step u (h.unclosing t hj)

/-- A turn accepts a call, which gives the document its next version and hands over one message with it;
or it has nothing to do with the document. -/
theorem turn (ho : Orderly s) (h : StaysOpen s (u :: hs)) :
    ((s.step u).session.document = s.document ∧ announcements (s.step u).effects = [] ∧
      ∀ t message, ¬ Accepts s u t message) ∨
    ∃ t message, Accepts s u t message ∧
      (s.step u).session.document.map DocumentHandle.version = some s.nextVersion ∧
      announcements (s.step u).effects = [⟨message, .int s.nextVersion, t⟩] := by
  cases documentChange_step ho u with
  | kept untouched refuses => exact .inl ⟨untouched.document, untouched.announced, refuses⟩
  | accepted t message accepts accepted =>
    refine .inr ⟨t, message, accepts, accepted.version, ?_⟩
    rw [accepted.announced, announcing, h.now]
    rfl
  | forgotten t forgets =>
    cases forgets with
    | closing t text job closing =>
      -- the closing would be over
      have hfinished := h.unclosing t (ho.jobOf_after _ job)
      rw [closing] at hfinished
      cases hfinished
    | disposal t job created =>
      -- the session would be closed
      have hopen := (refusal?_eq_none.mp (h.opened [.resume t .begins] hs rfl)).1
      have hclosed := whyClosed?_of_disposed (phase_dispose job created)
      change (s.step (.resume t .begins)).session.whyClosed? = none at hopen
      rw [hclosed] at hopen
      cases hopen

end StaysOpen

/-! ## The row of versions -/

section
variable {s : Session} {hs : List Turn}

/-- **The versions rise by one** from that of the document. -/
theorem numbered_announced (ho : Orderly s) (h : StaysOpen s hs) : Numbered s.version (s.announcedIn hs) := by
  induction hs generalizing s with
  | nil => exact numbered_nil _
  | cons u hs ih =>
    have hrest := ih (ho.step u) (h.tail ho)
    rw [announcedIn_cons]
    rcases h.turn ho with ⟨document, hnil, -⟩ | ⟨t, message, -, hversion, hone⟩
    · have hsame : (s.step u).session.version = s.version := by
        unfold version
        rw [document]
      rw [hnil, List.nil_append, ← hsame]
      exact hrest
    · have hnext : (s.step u).session.version = s.version + 1 := by
        rw [version, hversion]
        rfl
      rw [hnext] at hrest
      rw [hone]
      exact .cons rfl hrest

/-- A document that is not listed is opened before it is changed. -/
theorem opened_first (ho : Orderly s) (h : StaysOpen s hs) (unlisted : s.document = none) {a : Announcement}
    (first : (s.announcedIn hs).head? = some a) : a.message = .opened := by
  induction hs generalizing s with
  | nil => cases first
  | cons u hs ih =>
    rw [announcedIn_cons] at first
    rcases h.turn ho with ⟨document, hnil, -⟩ | ⟨t, message, accepts, -, hone⟩
    · rw [hnil, List.nil_append] at first
      exact ih (ho.step u) (h.tail ho) (document.trans unlisted) first
    · rw [hone] at first
      obtain rfl := Option.some.inj first
      cases accepts with
      | opening => rfl
      | change _ _ _ _ listed =>
        rw [unlisted] at listed
        cases listed

/-- A history that announces nothing leaves the document as it is. -/
theorem document_of_announced_nil (ho : Orderly s) (h : StaysOpen s hs) (hnone : s.announcedIn hs = []) :
    (s.after hs).document = s.document := by
  induction hs generalizing s with
  | nil => rfl
  | cons u hs ih =>
    rw [announcedIn_cons] at hnone
    obtain ⟨hnow, hrest⟩ := List.append_eq_nil_iff.mp hnone
    rcases h.turn ho with ⟨document, -, -⟩ | ⟨t, message, -, -, hone⟩
    · exact (ih (ho.step u) (h.tail ho) hrest).trans document
    · rw [hone] at hnow
      cases hnow

/-- **The document has the version that was announced last.** -/
theorem version_announced_last (ho : Orderly s) (h : StaysOpen s hs) {a : Announcement}
    (last : (s.announcedIn hs).getLast? = some a) :
    ∃ d, (s.after hs).document = some d ∧ a.version = .int d.version := by
  induction hs generalizing s with
  | nil => cases last
  | cons u hs ih =>
    rw [announcedIn_cons] at last
    rcases h.turn ho with ⟨-, hnil, -⟩ | ⟨t, message, -, hversion, hone⟩
    · rw [hnil, List.nil_append] at last
      exact ih (ho.step u) (h.tail ho) last
    · cases hlast : ((s.step u).session.announcedIn hs).getLast? with
      | none =>
        have hrest := List.getLast?_eq_none_iff.mp hlast
        have hdocument := document_of_announced_nil (ho.step u) (h.tail ho) hrest
        obtain ⟨d, hd, hdv⟩ := Option.map_eq_some_iff.mp hversion
        rw [hone, hrest, List.append_nil] at last
        have ha : ⟨message, .int s.nextVersion, t⟩ = a := Option.some.inj last
        exact ⟨d, hdocument.trans hd, by rw [← ha, hdv]⟩
      | some b =>
        rw [List.getLast?_append, hlast] at last
        obtain rfl : b = a := Option.some.inj last
        exact ih (ho.step u) (h.tail ho) hlast

end

/-! ## One message for a call -/

/-- A task is past the turn in which it can be accepted. -/
def Spent (s : Session) (t : Nat) : Prop :=
  ∃ p, s.progressOf t = some p ∧ p ≠ .created ∧ p ≠ .reading

/-- An opening whose file was read waits for its message to be written, or for the server, or is over. -/
theorem progressOf_resume_opening {s : Session} {t : Nat} {p : Progress} (hp : s.progressOf t = some p)
    (hcreated : p ≠ .created) (hreading : p ≠ .reading) (hisOf : p.IsOf (.call .openDocument))
    (hk : s.tasks[t]? = some ⟨.call .openDocument, p⟩) (r : Resumption) :
    (s.resume t r).session.progressOf t ≠ some .reading := by
  have hidle : s.progressOf t ≠ some .reading := by
    rw [hp]
    exact fun heq => hreading (Option.some.inj heq)
  have hmove (next : Progress) (hnext : next ≠ .reading) :
      (s.moveTask t next).progressOf t ≠ some .reading := by
    rw [progressOf_moveTask, if_pos rfl, hp]
    exact fun heq => hnext (Option.some.inj heq)
  have hfinish (o : Except Failure Answer) : (s.finish t o).session.progressOf t ≠ some .reading := by
    rw [session_finish]
    exact hmove .finished (by simp)
  rw [resume, hk]
  cases p with
  | opening =>
    cases r with
    | returned x =>
      cases x with
      | ok text => exact hmove .settling (by simp)
      | error f => exact hfinish _
    | cancelled => exact hfinish _
    | begins | replied | rested | streamEnded | readerFinished => exact hidle
  | settling =>
    cases r with
    | rested => exact hfinish _
    | returned x => cases x <;> exact hidle
    | cancelled => exact hfinish _
    | begins | replied | streamEnded | readerFinished => exact hidle
  | finished =>
    cases r with
    | returned x => cases x <;> exact hidle
    | begins | replied | rested | streamEnded | readerFinished | cancelled => exact hidle
  | created => exact absurd rfl hcreated
  | reading => exact absurd rfl hreading
  | requesting purpose => cases purpose <;> simp [Progress.IsOf] at hisOf
  | openingChannel | announcing | updating | closing | answering | telling | listening | closingChannel
  | awaitingReader => simp [Progress.IsOf] at hisOf

/-- Who has read the file, or never had to, does not read it again. -/
theorem not_reading_step {s : Session} (ho : Orderly s) (u : Turn) {t : Nat} {p : Progress}
    (hp : s.progressOf t = some p) (hcreated : p ≠ .created) (hreading : p ≠ .reading) :
    (s.step u).session.progressOf t ≠ some .reading := by
  intro hafter
  by_cases hu : u.task? = some t
  · obtain ⟨r, rfl⟩ := Turn.exists_resume hu
    obtain ⟨k, hk, rfl⟩ := Option.map_eq_some_iff.mp hp
    have hj : s.jobOf t = some k.job := jobOf_of_get hk
    -- only an opening reads
    have hjob : k.job = .call .openDocument :=
      ho.step (.resume t r) t k.job .reading (ho.jobOf_step _ hj) hafter
    have hisOf : k.progress.IsOf (.call .openDocument) := by
      have h := ho t k.job k.progress hj hp
      rw [hjob] at h
      exact h
    have hk : s.tasks[t]? = some ⟨.call .openDocument, k.progress⟩ := by rw [hk, ← hjob]
    exact progressOf_resume_opening hp hcreated hreading hisOf hk r hafter
  · obtain ⟨q, hq, hpq⟩ := ho.progressOf_step hu hp
    obtain rfl : q = .reading := Option.some.inj (hq.symm.trans hafter)
    rcases hpq with heq | ⟨_, _, _, _, -, heq⟩
    · exact hreading heq.symm
    · cases heq

/-- Who is spent stays spent. -/
theorem Spent.step {s : Session} {t : Nat} (h : Spent s t) (ho : Orderly s) (u : Turn) :
    Spent (s.step u).session t := by
  obtain ⟨p, hp, hcreated, hreading⟩ := h
  obtain ⟨k, hk, -⟩ := Option.map_eq_some_iff.mp hp
  obtain ⟨k', hk', -⟩ := Option.map_eq_some_iff.mp (ho.jobOf_step u (jobOf_of_get hk))
  have hp' : (s.step u).session.progressOf t = some k'.progress := progressOf_of_get hk'
  refine ⟨k'.progress, hp', fun heq => ?_, fun heq => ?_⟩
  · exact ho.begun_step u hp hcreated (heq ▸ hp')
  · exact not_reading_step ho u hp hcreated hreading (heq ▸ hp')

theorem Spent.after {s : Session} {t : Nat} (h : Spent s t) (ho : Orderly s) (hs : List Turn) :
    Spent (s.after hs) t := by
  have hboth : Orderly (s.after hs) ∧ Spent (s.after hs) t :=
    after_preserves (P := fun q => Orderly q ∧ Spent q t)
      (fun q v hq => ⟨hq.1.step v, hq.2.step hq.1 v⟩) ⟨ho, h⟩ hs
  exact hboth.2

/-- Who is spent is not accepted. -/
theorem Spent.not_accepts {s : Session} {t : Nat} (h : Spent s t) (u : Turn) (message : DocumentMessage) :
    ¬ Accepts s u t message := by
  obtain ⟨p, hp, hcreated, hreading⟩ := h
  intro ha
  cases ha with
  | opening _ _ _ _ reading => exact hreading (Option.some.inj (hp.symm.trans reading))
  | change _ _ _ created => exact hcreated (Option.some.inj (hp.symm.trans created))

/-- Who has a message to send is spent, whether it is sent or not. -/
theorem spent_transmit {q : Session} {t : Nat} {p : Progress} (hp : q.progressOf t = some p) (m : Json)
    (next : Progress) (hcreated : next ≠ .created) (hreading : next ≠ .reading) :
    Spent (q.transmit t m next).session t := by
  refine ⟨q.sending next, ?_, ?_⟩
  · rw [session_transmit]
    exact progressOf_moveTask_self hp _
  · unfold sending
    split
    · exact ⟨by simp, by simp⟩
    · exact ⟨hcreated, hreading⟩

/-- The turn in which a call is accepted is the last in which it can be. -/
theorem Accepts.spent {s : Session} {u : Turn} {t : Nat} {message : DocumentMessage}
    (h : Accepts s u t message) : Spent (s.step u).session t := by
  cases h with
  | opening t text language job reading known =>
    show Spent (s.resume t (.returned (.ok text))).session t
    rw [resume, task_of_views job reading]
    show Spent (s.openWith t text).session t
    unfold openWith
    dsimp only
    rw [known]
    refine spent_transmit (p := .reading) ?_ _ .opening (by simp) (by simp)
    exact reading
  | change t text job created listed =>
    obtain ⟨d, hd⟩ := Option.isSome_iff_exists.mp listed
    show Spent (s.resume t .begins).session t
    rw [resume, task_of_views job created]
    show Spent (s.beginUpdate t text).session t
    unfold beginUpdate
    rw [hd]
    refine spent_transmit (p := .created) ?_ _ .updating (by simp) (by simp)
    exact created

/-- A turn of a history accepts the call of a task. -/
def AcceptedIn (s : Session) (hs : List Turn) (t : Nat) (message : DocumentMessage) : Prop :=
  ∃ a u b, hs = a ++ u :: b ∧ Accepts (s.after a) u t message

theorem acceptedIn_cons {s : Session} {u : Turn} {hs : List Turn} {t : Nat} {message : DocumentMessage} :
    AcceptedIn s (u :: hs) t message ↔
      Accepts s u t message ∨ AcceptedIn (s.step u).session hs t message := by
  constructor
  · rintro ⟨a, v, b, heq, ha⟩
    cases a with
    | nil =>
      obtain ⟨rfl, -⟩ := List.cons.inj heq
      exact .inl ha
    | cons w a =>
      obtain ⟨rfl, rfl⟩ := List.cons.inj heq
      exact .inr ⟨a, v, b, rfl, ha⟩
  · rintro (ha | ⟨a, v, b, rfl, ha⟩)
    · exact ⟨[], u, hs, rfl, ha⟩
    · exact ⟨u :: a, v, b, rfl, ha⟩

/-- Who is spent is not accepted any more. -/
theorem Spent.not_acceptedIn {s : Session} {t : Nat} (h : Spent s t) (ho : Orderly s) (hs : List Turn)
    (message : DocumentMessage) : ¬ AcceptedIn s hs t message := by
  rintro ⟨a, u, b, -, ha⟩
  exact (h.after ho a).not_accepts u message ha

/-- The texts of which a task tells the server in a history. -/
def announcedBy (s : Session) (hs : List Turn) (t : Nat) : List Announcement :=
  (s.announcedIn hs).filter fun a => a.task = t

/-- A call hands over one message exactly if it is accepted, and it is accepted once at most. -/
theorem announced_by {s : Session} {hs : List Turn} (ho : Orderly s) (h : StaysOpen s hs) (t : Nat) :
    (∀ message, AcceptedIn s hs t message → ∃ v, s.announcedBy hs t = [⟨message, v, t⟩]) ∧
      ((∀ message, ¬ AcceptedIn s hs t message) → s.announcedBy hs t = []) := by
  induction hs generalizing s with
  | nil =>
    refine ⟨fun message ha => ?_, fun _ => rfl⟩
    obtain ⟨a, u, b, heq, -⟩ := ha
    simp at heq
  | cons u hs ih =>
    obtain ⟨honce, hnever⟩ := ih (ho.step u) (h.tail ho)
    have hsplit : s.announcedBy (u :: hs) t
        = (announcements (s.step u).effects).filter (fun a => a.task = t)
          ++ (s.step u).session.announcedBy hs t := by
      rw [announcedBy, announcedIn_cons, List.filter_append]
      rfl
    rw [hsplit]
    rcases h.turn ho with ⟨-, hnil, hrefuses⟩ | ⟨v, kind, accepts, -, hone⟩
    · rw [hnil, List.filter_nil, List.nil_append]
      refine ⟨fun message ha => ?_, fun hnone => hnever fun message ha => ?_⟩
      · exact honce message ((acceptedIn_cons.mp ha).resolve_left (hrefuses t message))
      · exact hnone message (acceptedIn_cons.mpr (.inr ha))
    · rw [hone]
      by_cases hv : v = t
      · subst hv
        -- from now on the task is spent
        have hlater := accepts.spent.not_acceptedIn (ho.step u) hs
        rw [hnever hlater, List.append_nil]
        refine ⟨fun message ha => ⟨.int s.nextVersion, ?_⟩, fun hnone => ?_⟩
        · have hnow := (acceptedIn_cons.mp ha).resolve_right (hlater message)
          obtain rfl : message = kind := by
            cases hnow <;> cases accepts <;> rfl
          simp
        · exact absurd (acceptedIn_cons.mpr (.inl accepts)) (hnone kind)
      · have hother (message : DocumentMessage) : ¬ Accepts s u t message := by
          intro ha
          apply hv
          cases ha <;> cases accepts <;> rfl
        have hfilter : [(⟨kind, .int s.nextVersion, v⟩ : Announcement)].filter (fun a => a.task = t) = [] := by
          simp [hv]
        rw [hfilter, List.nil_append]
        refine ⟨fun message ha => ?_, fun hnone => hnever fun message ha => ?_⟩
        · exact honce message ((acceptedIn_cons.mp ha).resolve_left (hother message))
        · exact hnone message (acceptedIn_cons.mpr (.inr ha))

/-- A change that begins while no document is listed is not accepted. -/
theorem not_acceptedIn_of_unlisted {s : Session} {a b : List Turn} {t : Nat} {text : Json} (ho : Orderly s)
    (job : (s.after a).jobOf t = some (.call (.updateDocument text)))
    (created : (s.after a).progressOf t = some .created) (unlisted : (s.after a).document = none)
    (message : DocumentMessage) : ¬ AcceptedIn s (a ++ .resume t .begins :: b) t message := by
  induction a generalizing s with
  | nil =>
    intro ha
    rcases acceptedIn_cons.mp ha with hnow | hlater
    · cases hnow with
      | change _ _ _ _ listed =>
        change s.document = none at unlisted
        rw [unlisted] at listed
        cases listed
    · -- its first turn was its last one
      have hover : (s.resume t .begins).session.progressOf t = some .finished := by
        change s.jobOf t = _ at job
        change s.progressOf t = _ at created
        change s.document = none at unlisted
        rw [resume, task_of_views job created]
        show (s.beginUpdate t text).session.progressOf t = _
        rw [beginUpdate, unlisted, session_succeed]
        exact progressOf_moveTask_self created _
      have hspent : Spent (s.resume t .begins).session t := ⟨.finished, hover, by simp, by simp⟩
      exact hspent.not_acceptedIn (ho.step (.resume t .begins)) b message hlater
  | cons u a ih =>
    intro ha
    rcases acceptedIn_cons.mp ha with hnow | hlater
    · obtain ⟨p, hp, hne, -⟩ := hnow.spent.after (ho.step u) a
      exact hne (Option.some.inj (hp.symm.trans created))
    · exact ih (ho.step u) job created unlisted hlater

/-! ## Success -/

/-- A call that has a text of the document to tell of. -/
def Call.HasText : Call → Prop
  | .openDocument | .updateDocument _ => True
  | .handshake | .closeDocument | .ask _ _ _ | .dispose => False

/-- What becomes of a call in a turn that does not accept it: it still waits, or it is over, which is a
success only for a change that finds no document. -/
inductive Unaccepted (s : Session) (t : Nat) (c : Call) (u : Turn) (r : Turned) : Prop where
  | waits (unspent : ¬ Spent r.session t) (running : ∀ o, .completed t o ∉ r.effects)
  | ended (finished : r.session.progressOf t = some .finished) (failed : ∀ x, .completed t (.ok x) ∉ r.effects)
  | idle (text : Json) (change : c = .updateDocument text) (turn : u = .resume t .begins)
      (document : s.document = none) (finished : r.session.progressOf t = some .finished)

section
variable {s : Session} {t : Nat} {c : Call} {r : Resumption}

/-- A call that gives up is over. -/
theorem unaccepted_giveUp (hj : s.jobOf t = some (.call c)) {p : Progress} (hp : s.progressOf t = some p)
    (u : Turn) (f : Failure) : Unaccepted s t c u (s.giveUp t f) := by
  rw [giveUp, finish_call hj]
  refine .ended (progressOf_moveTask_self hp _) fun x hx => ?_
  simp at hx

/-- The turns of a call that still waits to begin. -/
theorem unaccepted_created (hc : c.HasText) (hj : s.jobOf t = some (.call c))
    (hp : s.progressOf t = some .created) (refused : ∀ message, ¬ Accepts s (.resume t r) t message) :
    Unaccepted s t c (.resume t r) (s.resume t r) := by
  have hk := task_of_views hj hp
  have hidle : Unaccepted s t c (.resume t r) ⟨s, []⟩ := by
    refine .waits ?_ fun o => List.not_mem_nil
    rintro ⟨q, hq, hne, -⟩
    exact hne (Option.some.inj (hq.symm.trans hp))
  rw [resume, hk]
  cases r with
  | begins =>
    cases c with
    | openDocument =>
      refine .waits ?_ fun o ho => ?_
      · rintro ⟨q, hq, -, hne⟩
        exact hne (Option.some.inj (hq.symm.trans (progressOf_moveTask_self hp .reading)))
      · simp [begin, beginCall] at ho
    | updateDocument text =>
      show Unaccepted s t _ _ (s.beginUpdate t text)
      cases hd : s.document with
      | some d =>
        have hlisted : s.document.isSome = true := by
          rw [hd]
          rfl
        exact absurd (.change t text hj hp hlisted) (refused .changed)
      | none =>
        rw [beginUpdate, hd]
        refine .idle text rfl rfl hd ?_
        rw [session_succeed]
        exact progressOf_moveTask_self hp _
    | handshake | closeDocument | ask | dispose => cases hc
  | cancelled => exact unaccepted_giveUp hj hp _ _
  | returned x => cases x <;> exact hidle
  | replied | rested | streamEnded | readerFinished => exact hidle

/-- The turns of an opening that waits for the text of its file. -/
theorem unaccepted_reading (hj : s.jobOf t = some (.call .openDocument))
    (hp : s.progressOf t = some .reading) (refused : ∀ message, ¬ Accepts s (.resume t r) t message) :
    Unaccepted s t .openDocument (.resume t r) (s.resume t r) := by
  have hk := task_of_views hj hp
  have hidle : Unaccepted s t .openDocument (.resume t r) ⟨s, []⟩ := by
    refine .waits ?_ fun o => List.not_mem_nil
    rintro ⟨q, hq, -, hne⟩
    exact hne (Option.some.inj (hq.symm.trans hp))
  rw [resume, hk]
  cases r with
  | returned x =>
    cases x with
    | ok text =>
      show Unaccepted s t _ _ (s.openWith t text)
      cases hl : s.profile.language with
      | ok language => exact absurd (.opening t text language hj hp hl) (refused .opened)
      | error f =>
        rw [openWith, hl]
        exact unaccepted_giveUp hj hp _ f
    | error f => exact unaccepted_giveUp hj hp _ f
  | cancelled => exact unaccepted_giveUp hj hp _ _
  | begins | replied | rested | streamEnded | readerFinished => exact hidle

/-- A turn that does not accept a call which was not accepted before. -/
theorem unaccepted_step (ho : Orderly s) (hc : c.HasText) (hj : ∀ job, s.jobOf t = some job → job = .call c)
    (unspent : ¬ Spent s t) {u : Turn} (refused : ∀ message, ¬ Accepts s u t message) :
    Unaccepted s t c u (s.step u) := by
  by_cases hu : u.task? = some t
  · obtain ⟨r, rfl⟩ := Turn.exists_resume hu
    show Unaccepted s t c _ (s.resume t r)
    cases hk : s.tasks[t]? with
    | none =>
      rw [resume, hk]
      exact .waits unspent fun o => List.not_mem_nil
    | some k =>
      have hp : s.progressOf t = some k.progress := progressOf_of_get hk
      have hjob : s.jobOf t = some (.call c) := by
        rw [← hj k.job (jobOf_of_get hk)]
        exact jobOf_of_get hk
      by_cases hcreated : k.progress = .created
      · exact unaccepted_created hc hjob (hcreated ▸ hp) refused
      by_cases hreading : k.progress = .reading
      · rw [hreading] at hp
        obtain rfl : c = .openDocument := Job.call.inj (ho t _ .reading hjob hp)
        exact unaccepted_reading hjob hp refused
      · exact absurd ⟨k.progress, hp, hcreated, hreading⟩ unspent
  · refine .waits ?_ fun o h => hu (task?_of_completed h)
    -- the task is where it was, or appears
    rintro ⟨q, hq, hcreated, hreading⟩
    cases hp : s.progressOf t with
    | none =>
      rcases ho.progressOf_fresh u hp with hnone | hfresh
      · rw [hnone] at hq
        cases hq
      · exact hcreated (Option.some.inj (hq.symm.trans hfresh))
    | some p =>
      obtain ⟨x, hx, hpx⟩ := ho.progressOf_step hu hp
      obtain rfl : x = q := Option.some.inj (hx.symm.trans hq)
      rcases hpx with rfl | ⟨purpose, id, written, a, rfl, rfl⟩
      · exact unspent ⟨x, hp, hcreated, hreading⟩
      · exact unspent ⟨_, hp, by simp, by simp⟩

end

/-- What is over has no end in a history. -/
theorem not_completed_of_finished_run {s : Session} {t : Nat} (ho : Orderly s)
    (hp : s.progressOf t = some .finished) (hs : List Turn) (o : Except Failure Answer) :
    .completed t o ∉ (s.run hs).effects := by
  induction hs generalizing s with
  | nil => exact List.not_mem_nil
  | cons u hs ih =>
    intro hmem
    rcases List.mem_append.mp hmem with hnow | hlater
    · exact not_completed_of_finished hp u o hnow
    · exact ih (ho.step u) (ho.finished_step u hp) hlater

/-- **A call that succeeds was accepted**, unless it is a change that found no document when it began. -/
theorem accepted_of_succeeded {s : Session} {hs : List Turn} {t : Nat} {c : Call} {x : Answer}
    (ho : Orderly s) (hc : c.HasText) (hj : (s.after hs).jobOf t = some (.call c)) (unspent : ¬ Spent s t)
    (succeeded : .completed t (.ok x) ∈ (s.run hs).effects) :
    (∃ message, AcceptedIn s hs t message) ∨
      ∃ text a b, c = .updateDocument text ∧ hs = a ++ .resume t .begins :: b ∧
        (s.after a).document = none := by
  induction hs generalizing s with
  | nil => cases succeeded
  | cons u hs ih =>
    by_cases haccepts : ∃ message, Accepts s u t message
    · obtain ⟨message, h⟩ := haccepts
      exact .inl ⟨message, acceptedIn_cons.mpr (.inl h)⟩
    have hjob (job : Job) (h : s.jobOf t = some job) : job = .call c :=
      Option.some.inj ((ho.jobOf_after (u :: hs) h).symm.trans hj)
    have hsplit : .completed t (.ok x) ∈ (s.step u).effects ∨
        .completed t (.ok x) ∈ ((s.step u).session.run hs).effects := List.mem_append.mp succeeded
    cases unaccepted_step ho hc hjob unspent (fun message h => haccepts ⟨message, h⟩) with
    | waits unspent running =>
      rcases ih (ho.step u) hj unspent (hsplit.resolve_left (running _)) with
        ⟨message, h⟩ | ⟨text, a, b, hchange, rfl, hdocument⟩
      · exact .inl ⟨message, acceptedIn_cons.mpr (.inr h)⟩
      · exact .inr ⟨text, u :: a, b, hchange, rfl, hdocument⟩
    | ended finished failed =>
      have hlater := hsplit.resolve_left (failed x)
      exact absurd hlater (not_completed_of_finished_run (ho.step u) finished hs _)
    | idle text change turn document =>
      exact .inr ⟨text, [], hs, change, by rw [turn]; rfl, document⟩

/-! ## The headline -/

/-- What a history that leaves the session open tells the server of the document. -/
structure InVersionOrder (s : Session) (hs : List Turn) : Prop where
  /-- The versions rise by one from that of the document, without gap or repetition. -/
  numbered : Numbered s.version (s.announcedIn hs)
  /-- If the document was not listed, it is opened first. -/
  opensFirst : s.document = none → ∀ a, (s.announcedIn hs).head? = some a → a.message = .opened
  /-- The document has the version that was announced last. -/
  last : ∀ a, (s.announcedIn hs).getLast? = some a →
    ∃ d, (s.after hs).document = some d ∧ a.version = .int d.version
  /-- A call that succeeds was accepted, unless it is a change that found no document. -/
  succeeded : ∀ t c x, c.HasText → (s.after hs).jobOf t = some (.call c) → ¬ Spent s t →
    .completed t (.ok x) ∈ (s.run hs).effects → (∃ message, AcceptedIn s hs t message) ∨
      ∃ text a b, c = .updateDocument text ∧ hs = a ++ .resume t .begins :: b ∧
        (s.after a).document = none
  /-- A call that is accepted has one message. -/
  once : ∀ t message, AcceptedIn s hs t message → ∃ v, s.announcedBy hs t = [⟨message, v, t⟩]
  /-- A call that is not accepted has none. -/
  never : ∀ t, (∀ message, ¬ AcceptedIn s hs t message) → s.announcedBy hs t = []
  /-- A change that begins while no document is listed has none. -/
  unlisted : ∀ a b t text, hs = a ++ .resume t .begins :: b →
    (s.after a).jobOf t = some (.call (.updateDocument text)) →
    (s.after a).progressOf t = some .created → (s.after a).document = none → s.announcedBy hs t = []

/-- **In a session that stays open the server is told of versions in their order.** -/
theorem versions_in_order {s : Session} {hs : List Turn} (ho : Orderly s) (h : StaysOpen s hs) :
    InVersionOrder s hs := by
  refine ⟨numbered_announced ho h, fun unlisted a => opened_first ho h unlisted,
    fun a => version_announced_last ho h, fun t c x hc hj => accepted_of_succeeded ho hc hj,
    fun t => (announced_by ho h t).1,
    fun t => (announced_by ho h t).2, ?_⟩
  rintro a b t text rfl job created unlisted
  exact (announced_by ho h t).2 (not_acceptedIn_of_unlisted ho job created unlisted)

end EditorServices.Session
