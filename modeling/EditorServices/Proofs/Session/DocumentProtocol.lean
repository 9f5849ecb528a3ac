import EditorServices.Proofs.Session.Documents

/-!
# `Proofs.Session.DocumentProtocol` — when the server is told a proper story of the document

A server expects an opening before every change and every closing, with no closing between them. A
session tells it such a story unless calls meet in the window of a closing: the document stays listed
while the message of the closing is being written, so that a change or a second closing that begins
then is handed over as well, and an opening that begins then is forgotten when the closing is over.

The headline `document_protocol` says that nothing else can go wrong: the story is proper exactly when
no change and no closing is handed over in the window of an earlier closing, and in the end session and
server agree on whether the document is open exactly when the last message is a closing or was handed
over in nobody's window. `closing_window_breaks_protocol` is a run in which both fail.

## Contents
- **Stories.** `Proper`, `Overlaps` and `Agrees`.
- **The trail.** `Trail`, what is known of a session from what it has handed over; kept by every
  undisturbed turn.
- **The protocol.** `document_protocol`, and a run that breaks it.
-/

namespace EditorServices.Session

/-! ## Stories -/

/-- Every change and every closing comes after an opening with no closing between them. -/
def Proper (hs : List Handed) : Prop :=
  ∀ pre e post, hs = pre ++ e :: post → e.message ≠ .opened →
    ∃ a o b, pre = a ++ o :: b ∧ o.message = .opened ∧ ∀ x ∈ b, x.message ≠ .closed

/-- A change or a closing was handed over while an earlier closing, after which nothing was opened, was
still being written. -/
def Overlaps (hs : List Handed) : Prop :=
  ∃ pre c mid e post, hs = pre ++ c :: (mid ++ e :: post) ∧ c.message = .closed ∧
    (∀ x ∈ mid, x.message ≠ .opened) ∧ e.message ≠ .opened ∧ c.task ∈ e.closings

/-- The session lists the document exactly when the last message about it is no closing. -/
def Agrees (s : Session) (hs : List Handed) : Prop :=
  s.document.isSome = true ↔ ∃ e, hs.getLast? = some e ∧ e.message ≠ .closed

/-- What meets in a window is improper. -/
theorem Overlaps.not_proper {hs : List Handed} (h : Overlaps hs) : ¬ Proper hs := by
  obtain ⟨pre, c, mid, e, post, rfl, hc, hmid, he, -⟩ := h
  intro hp
  obtain ⟨a, o, b, hsplit, ho, hb⟩ := hp (pre ++ c :: mid) e post (by simp) he
  -- the opening would have to come after the closing, where there is none
  rcases List.append_eq_append_iff.mp hsplit with ⟨x, rfl, hx⟩ | ⟨x, rfl, hx⟩
  · cases x with
    | nil =>
      cases hx
      rw [hc] at ho
      cases ho
    | cons y x =>
      cases hx
      exact hmid o (by simp) ho
  · cases x with
    | nil =>
      cases hx
      rw [hc] at ho
      cases ho
    | cons y x =>
      cases hx
      exact hb c (by simp) hc

/-! ## The trail -/

/-- What is known of a session, in which nothing was disturbed, from what it has handed over. -/
structure Trail (s : Session) (hs : List Handed) : Prop where
  /-- A listed document was opened, and all closings since then are being written. -/
  listed : s.document.isSome = true → ∃ pre o mid, hs = pre ++ o :: mid ∧ o.message = .opened ∧
    (∀ x ∈ mid, x.message ≠ .opened) ∧ ∀ x ∈ mid, x.message = .closed → x.task ∈ s.closings
  /-- While it is listed, the closings of the moment of the last message go on. -/
  lasting : s.document.isSome = true → ∀ e, hs.getLast? = some e → ∀ t ∈ e.closings, t ∈ s.closings
  /-- A closing that is being written is the last message or older. -/
  older : ∀ t ∈ s.closings, ∃ e, hs.getLast? = some e ∧
    (t ∈ e.closings ∨ e.message = .closed ∧ e.task = t)
  /-- A document that is not listed was forgotten by a closing. -/
  forgotten : s.document = none → ∀ e, hs.getLast? = some e → e.message = .closed ∨ e.closings ≠ []
  /-- What was known when a change or a closing was handed over. -/
  met : ∀ pre e post, hs = pre ++ e :: post → e.message ≠ .opened →
    ∃ a o b, pre = a ++ o :: b ∧ o.message = .opened ∧ (∀ x ∈ b, x.message ≠ .opened) ∧
      ∀ x ∈ b, x.message = .closed → x.task ∈ e.closings

/-- Before the first message. -/
theorem trail_nil {s : Session} (document : s.document = none) (closings : s.closings = []) :
    Trail s [] := by
  refine ⟨fun h => ?_, fun h => ?_, fun t ht => ?_, fun _ e he => ?_, fun pre e post h => ?_⟩
  · rw [document] at h; cases h
  · rw [document] at h; cases h
  · rw [closings] at ht; cases ht
  · cases he
  · exact absurd h (by simp)

namespace Trail

variable {s s' : Session} {hs : List Handed}

/-- A message of a listed document that is handed over meets what `listed` says. -/
theorem met_snoc (h : Trail s hs) {n : Handed} (hn : n.message ≠ .opened → s.document.isSome = true)
    (closings : n.closings = s.closings) {pre : List Handed} {e : Handed} {post : List Handed}
    (heq : hs ++ [n] = pre ++ e :: post) (he : e.message ≠ .opened) :
    ∃ a o b, pre = a ++ o :: b ∧ o.message = .opened ∧ (∀ x ∈ b, x.message ≠ .opened) ∧
      ∀ x ∈ b, x.message = .closed → x.task ∈ e.closings := by
  rcases List.eq_nil_or_concat post with rfl | ⟨post, last, rfl⟩
  · obtain ⟨rfl, hne⟩ := List.append_inj' heq rfl
    cases hne
    rw [closings]
    exact h.listed (hn he)
  · have hinit : hs ++ [n] = (pre ++ e :: post) ++ [last] := by rw [heq]; simp
    obtain ⟨rfl, -⟩ := List.append_inj' hinit rfl
    exact h.met pre e post rfl he

/-- A further message of the listed document. If it is a closing, it is being written from now on. -/
theorem extend (h : Trail s hs) {n : Handed} (listed : s.document.isSome = true)
    (document : s'.document.isSome = true) (hn : n.message ≠ .opened) (same : n.closings = s.closings)
    (closings : ∀ v, v ∈ s'.closings ↔ v ∈ s.closings ∨ n.message = .closed ∧ v = n.task) :
    Trail s' (hs ++ [n]) := by
  refine ⟨fun _ => ?_, fun _ e he v hv => ?_, fun v hv => ?_, fun hd => ?_, fun pre e post heq he => ?_⟩
  · obtain ⟨pre, o, mid, rfl, ho, hmid, hcl⟩ := h.listed listed
    refine ⟨pre, o, mid ++ [n], by simp, ho, fun x hx => ?_, fun x hx hxc => ?_⟩
    · rcases List.mem_append.mp hx with hx | hx
      · exact hmid x hx
      · rw [List.mem_singleton.mp hx]
        exact hn
    · rcases List.mem_append.mp hx with hx | hx
      · exact (closings _).mpr (.inl (hcl x hx hxc))
      · obtain rfl := List.mem_singleton.mp hx
        exact (closings _).mpr (.inr ⟨hxc, rfl⟩)
  · rw [List.getLast?_concat] at he
    cases he
    exact (closings v).mpr (.inl (same ▸ hv))
  · refine ⟨n, List.getLast?_concat, ?_⟩
    rcases (closings v).mp hv with hv | ⟨hc, rfl⟩
    · exact .inl (same ▸ hv)
    · exact .inr ⟨hc, rfl⟩
  · rw [hd] at document
    cases document
  · exact h.met_snoc (fun _ => listed) same heq he

/-- **Every undisturbed turn keeps the trail.** -/
theorem step (h : Trail s hs) {new : List Handed} (turn : DocumentTurn s s' new) :
    Trail s' (hs ++ new) := by
  cases turn with
  | quiet document closings =>
    rw [List.append_nil]
    refine ⟨fun hd => ?_, fun hd e he t ht => ?_, fun t ht => ?_, fun hd => ?_, h.met⟩
    · obtain ⟨pre, o, mid, heq, ho, hmid, hcl⟩ := h.listed (document ▸ hd)
      exact ⟨pre, o, mid, heq, ho, hmid, fun x hx hxc => (closings _).mpr (hcl x hx hxc)⟩
    · exact (closings t).mpr (h.lasting (document ▸ hd) e he t ht)
    · exact h.older t ((closings t).mp ht)
    · refine h.forgotten ?_
      rw [← Option.isNone_iff_eq_none, ← Option.not_isSome, ← document, hd]
      rfl
  | opened t document closings =>
    refine ⟨fun _ => ⟨hs, _, [], rfl, rfl, by simp, by simp⟩, fun _ e he v hv => ?_, fun v hv => ?_,
      fun hd => ?_, fun pre e post heq he => ?_⟩
    · rw [List.getLast?_concat] at he
      cases he
      exact (closings v).mpr hv
    · exact ⟨_, List.getLast?_concat, .inl ((closings v).mp hv)⟩
    · rw [hd] at document
      cases document
    · exact h.met_snoc (fun hn => absurd rfl hn) rfl heq he
  | changed t listed document closings =>
    exact h.extend listed document (by simp) rfl fun v => by simp [closings v]
  | closed t listed document closings =>
    exact h.extend listed document (by simp) rfl fun v => by simp [closings v]
  | forgotten t closing document closings =>
    rw [List.append_nil]
    refine ⟨fun hd => ?_, fun hd => ?_, fun v hv => ?_, fun _ e he => ?_, h.met⟩
    · rw [document] at hd
      cases hd
    · rw [document] at hd
      cases hd
    · exact h.older v ((closings v).mp hv).1
    · -- the closing that is over is the last message, or was on its way before it
      obtain ⟨e', he', hcase⟩ := h.older t closing
      rw [he] at he'
      cases he'
      rcases hcase with hmem | ⟨hclosed, -⟩
      · exact .inr (List.ne_nil_of_mem hmem)
      · exact .inl hclosed

/-- Only what meets in a window is improper. -/
theorem proper_iff (h : Trail s hs) : Proper hs ↔ ¬ Overlaps hs := by
  refine ⟨fun hp ho => ho.not_proper hp, fun hno pre e post heq he => ?_⟩
  obtain ⟨a, o, b, rfl, ho, hopened, hclosed⟩ := h.met pre e post heq he
  refine ⟨a, o, b, rfl, ho, fun c hc hcc => hno ?_⟩
  obtain ⟨b₁, b₂, rfl⟩ := List.append_of_mem hc
  exact ⟨a ++ o :: b₁, c, b₂, e, post, by rw [heq]; simp, hcc,
    fun x hx => hopened x (by simp [hx]), he, hclosed c hc hcc⟩

/-- When no closing is on its way, the last message tells whether session and server agree. -/
theorem agrees_iff (h : Trail s hs) (settled : s.closings = []) :
    Agrees s hs ↔ ∀ e, hs.getLast? = some e → e.message = .closed ∨ e.closings = [] := by
  unfold Agrees
  cases hd : s.document with
  | none =>
    -- forgotten: agreement means that the last message is a closing
    simp only [Option.isSome_none, Bool.false_eq_true, false_iff, not_exists, not_and, ne_eq,
      Decidable.not_not]
    constructor
    · exact fun hall e he => .inl (hall e he)
    · intro hall e he
      rcases hall e he with hc | hnil
      · exact hc
      · rcases h.forgotten hd e he with hc | hne
        · exact hc
        · exact absurd hnil hne
  | some d =>
    have hsome : s.document.isSome = true := by rw [hd]; rfl
    have hnil : ∀ e, hs.getLast? = some e → e.closings = [] := fun e he =>
      List.eq_nil_iff_forall_not_mem.mpr fun t ht => by
        have := h.lasting hsome e he t ht
        rw [settled] at this
        cases this
    obtain ⟨pre, o, mid, rfl, ho, -, hclosed⟩ := h.listed hsome
    simp only [Option.isSome_some, true_iff]
    refine ⟨fun _ e he => .inr (hnil e he), fun _ => ?_⟩
    -- the last message is the opening or came after it, and no closing came after it
    refine ⟨(o :: mid).getLast (by simp), ?_, fun hc => ?_⟩
    · rw [List.getLast?_append, List.getLast?_eq_some_getLast (by simp)]
      rfl
    · rcases List.mem_cons.mp (List.getLast_mem (show o :: mid ≠ [] by simp)) with heq | hmem
      · rw [heq, ho] at hc
        cases hc
      · have := hclosed _ hmem hc
        rw [settled] at this
        cases this

end Trail

/-- The trail of an undisturbed history. -/
theorem trail_after {s : Session} (ho : Orderly s) (hopen : s.refusal? = none) {hs : List Handed}
    (ht : Trail s hs) (h : List Turn) (run : s.runsUndisturbed h = true) :
    Trail (s.after h) (hs ++ s.handed h) := by
  induction h generalizing s hs with
  | nil => simpa [handed] using ht
  | cons u h ih =>
    rw [runsUndisturbed, Bool.and_eq_true] at run
    obtain ⟨hturn, hopen'⟩ := documentTurn_step ho hopen run.1
    rw [handed, ← List.append_assoc, after_cons]
    exact ih (ho.step u) hopen' (ht.step hturn) run.2

/-! ## The protocol -/

/-- A session that was started, is open with its writer at work, and has no document listed and none being
closed. -/
structure Started (s : Session) : Prop where
  phase : s.phase = .ready
  ended : s.ended = none
  writer : s.writer ≠ .stopped
  document : s.document = none
  closings : s.closings = []

/-- **The document protocol, exactly.** In every undisturbed history of a started session the story that
the server is told is proper exactly when no change and no closing meets the window of an earlier
closing; and once no closing is on its way any more, session and server agree on whether the document
is open exactly when the last message is a closing or was handed over in nobody's window. -/
theorem document_protocol {p : Profile} {g : List Turn} (started : Started ((new p).after g))
    {h : List Turn} (run : ((new p).after g).runsUndisturbed h = true) :
    (Proper (((new p).after g).handed h) ↔ ¬ Overlaps (((new p).after g).handed h)) ∧
    ((((new p).after g).after h).closings = [] →
      (Agrees (((new p).after g).after h) (((new p).after g).handed h) ↔
        ∀ e, (((new p).after g).handed h).getLast? = some e → e.message = .closed ∨ e.closings = [])) := by
  have hopen : ((new p).after g).refusal? = none :=
    refusal?_eq_none.mpr
      ⟨whyClosed?_eq_none.mpr ⟨by rw [started.phase]; simp, started.ended⟩, started.writer⟩
  have ht := trail_after (orderly_after p g) hopen (trail_nil started.document started.closings) h run
  rw [List.nil_append] at ht
  exact ⟨ht.proper_iff, ht.agrees_iff⟩

/-! ### A meeting in a window -/

/-- A session about one file. -/
def meetingProfile : Profile := ⟨"/a.txt", .str "text", "/", .int 0, false, false, 1⟩

/-- From the first call of a session to the end of its handshake. -/
def startingTurns : List Turn :=
  [.call .handshake, .resume 0 .begins, .resume 0 (.returned (.ok "")), .resume 1 .begins,
    .resume 0 (.returned (.ok "")), .receive (.obj [("id", .int 1), ("result", .obj [])]),
    .resume 0 .replied, .resume 0 (.returned (.ok ""))]

/-- The document is opened; then a closing and a change are made together, and both run to their end. -/
def meetingTurns : List Turn :=
  [.call .openDocument, .resume 2 .begins, .resume 2 (.returned (.ok "text")),
    .resume 2 (.returned (.ok "")), .resume 2 .rested,
    .call .closeDocument, .call (.updateDocument (.str "x")), .resume 3 .begins, .resume 4 .begins,
    .resume 3 (.returned (.ok "")), .resume 4 (.returned (.ok ""))]

theorem started_meeting : Started ((new meetingProfile).after startingTurns) := ⟨rfl, rfl, nofun, rfl, rfl⟩

theorem undisturbed_meeting :
    ((new meetingProfile).after startingTurns).runsUndisturbed meetingTurns = true := by decide +kernel

theorem handed_meeting : ((new meetingProfile).after startingTurns).handed meetingTurns
    = [⟨.opened, 2, []⟩, ⟨.closed, 3, []⟩, ⟨.changed, 4, [3]⟩] := by decide +kernel

theorem settled_meeting :
    (((new meetingProfile).after startingTurns).after meetingTurns).closings = [] := by decide +kernel

theorem unlisted_meeting :
    (((new meetingProfile).after startingTurns).after meetingTurns).document = none := by decide +kernel

theorem overlaps_meeting : Overlaps (((new meetingProfile).after startingTurns).handed meetingTurns) := by
  rw [handed_meeting]
  exact ⟨[⟨.opened, 2, []⟩], ⟨.closed, 3, []⟩, [], ⟨.changed, 4, [3]⟩, [], rfl, rfl, by simp, by decide,
    by decide⟩

/-- A closing and a change meet: the change is handed over after the closing, and in the end the last
message is a change of a document that the session does not list. -/
theorem closing_window_breaks_protocol :
    Started ((new meetingProfile).after startingTurns) ∧
      ((new meetingProfile).after startingTurns).runsUndisturbed meetingTurns = true ∧
      (((new meetingProfile).after startingTurns).after meetingTurns).closings = [] ∧
      ¬ Proper (((new meetingProfile).after startingTurns).handed meetingTurns) ∧
      ¬ Agrees (((new meetingProfile).after startingTurns).after meetingTurns)
        (((new meetingProfile).after startingTurns).handed meetingTurns) := by
  refine ⟨started_meeting, undisturbed_meeting, settled_meeting, overlaps_meeting.not_proper, ?_⟩
  unfold Agrees
  rw [unlisted_meeting, handed_meeting]
  intro hagrees
  exact absurd (hagrees.mpr ⟨⟨.changed, 4, [3]⟩, rfl, by decide⟩) (by simp)

/-- The general theorem says of this run that its story is improper, and that session and server
disagree. -/
theorem document_protocol_meeting :
    ¬ Proper (((new meetingProfile).after startingTurns).handed meetingTurns) ∧
      ¬ Agrees (((new meetingProfile).after startingTurns).after meetingTurns)
        (((new meetingProfile).after startingTurns).handed meetingTurns) := by
  obtain ⟨hproper, hagrees⟩ := document_protocol started_meeting undisturbed_meeting
  refine ⟨fun h => hproper.mp h overlaps_meeting, fun h => ?_⟩
  have hlast := (hagrees settled_meeting).mp h
  rw [handed_meeting] at hlast
  rcases hlast ⟨.changed, 4, [3]⟩ rfl with hc | hc <;> cases hc

end EditorServices.Session
