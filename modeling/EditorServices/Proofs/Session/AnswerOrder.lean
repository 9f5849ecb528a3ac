import EditorServices.Proofs.Session.EndOfChannel
import EditorServices.Proofs.Session.FirstTurns

/-!
# `Proofs.Session.AnswerOrder` — the server never waits for an answer

Every request of the server is answered once, and the answers are handed over in the order in which the
requests arrived. What was still to be answered, and what is due to the messages that came in, is what was
handed over and what is still to be answered: `answers_perm` counts, in every order of turns. For the order
it matters that the loop gives first turns in the order in which they were asked for; `StartsInOrder` says
that of a row of occurrences. First turns are asked for in the order of the new tasks, so the first one that
is demanded is that of the oldest answer (`Queued.head_unbegun`).

A request whose items or diagnostics cannot be run through is not answered at all.

## Contents
- **Histories.** `answers`, `awaited`, and the law of one turn and of a history: `answers_perm`, `answers_eq`.
- **Disposals.** Only a disposal makes an answer give up: `Undisposed`, `Spared`, `spared_run`.
- **Rows of occurrences.** `calm_turns` and `beginInOrder_turns`, by which the laws hold of their turns.
- **The headline.** `requests_served`.
-/

namespace EditorServices.Session

/-! ## Histories -/

/-- What the answers hand over in a turn. -/
def answersIn (s : Session) (u : Turn) : List Json :=
  ((s.step u).effects.filterMap Effect.sent?).filterMap fun x =>
    if s.isAnswering x.1 then some x.2 else none

/-- What the answers hand over in a history. -/
def answers (s : Session) : List Turn → List Json
  | [] => []
  | u :: hs => s.answersIn u ++ (s.step u).session.answers hs

/-- What the answers will hand over that have not begun. -/
def awaited (s : Session) : List Json := s.unbegun.filterMap s.dueFor

/-- What is due to the messages of a history. -/
def duesIn (p : Profile) (hs : List Turn) : List Json := (hs.filterMap Turn.message?).filterMap (due? p)

/-- If an answer begins in a turn, it is the oldest. -/
def OldestFirst (s : Session) (u : Turn) : Prop :=
  ∀ t ∈ s.unbegun, u = .resume t .begins → s.unbegun.head? = some t

/-- The answers begin in the order of their requests. -/
def BeginInOrder (s : Session) : List Turn → Prop
  | [] => True
  | u :: hs => OldestFirst s u ∧ (s.step u).session.BeginInOrder hs

/-- Every turn of a history is taken in a session that answers, and makes no answer give up. -/
def Calm (s : Session) : List Turn → Prop
  | [] => True
  | u :: hs => Attentive s ∧ (∀ t ∈ s.unbegun, u ≠ .resume t .cancelled) ∧ (s.step u).session.Calm hs

section

variable {s : Session} (ho : Orderly s)
include ho

/-- What is due to a task stays due. -/
theorem dueFor_step (u : Turn) {t : Nat} (hmem : t ∈ s.unbegun) :
    (s.step u).session.dueFor t = s.dueFor t := by
  obtain ⟨id, method, params, hj, -⟩ := exists_of_mem_unbegun hmem
  unfold dueFor
  rw [hj, ho.jobOf_step u hj, profile_step ho u]

/-- What is awaited of answers that had not begun before a turn. -/
theorem filterMap_dueFor_step (u : Turn) {ts : List Nat} (hts : ∀ t ∈ ts, t ∈ s.unbegun) :
    ts.filterMap (s.step u).session.dueFor = ts.filterMap s.dueFor :=
  List.filterMap_congr fun t ht => dueFor_step ho u (hts t ht)

/-- What a turn does to the answers that are awaited: the one that begins leaves, and what is due to a
message comes last. -/
theorem awaited_step (ha : Attentive s) {u : Turn} (spared : ∀ t ∈ s.unbegun, u ≠ .resume t .cancelled) :
    (s.answersIn u = [] ∧ (s.step u).session.awaited = s.awaited ++ duesIn s.profile [u]) ∨
    ∃ t ∈ s.unbegun, u = .resume t .begins ∧ s.answersIn u = (s.dueFor t).toList ∧
      (s.step u).session.awaited = (s.unbegun.erase t).filterMap s.dueFor ∧ duesIn s.profile [u] = [] := by
  cases answerTurn_step ho ha spared with
  | asked m job received asks added here started silent =>
    -- a request: its answer comes last among those that are awaited
    subst received
    refine .inl ⟨?_, ?_⟩
    · unfold answersIn
      rw [silent]
      rfl
    · have hdue : (s.step (.receive m)).session.dueFor s.tasks.length = due? s.profile m := by
        unfold dueFor due?
        rw [here, asks, profile_step ho]
      unfold awaited
      rw [added, List.filterMap_append, filterMap_dueFor_step ho _ fun _ ht => ht]
      congr 1
      simp only [duesIn, List.filterMap_cons, List.filterMap_nil, Turn.message?, hdue]
  | begun t first mem removed sent =>
    refine .inr ⟨t, mem, first, ?_, ?_, ?_⟩
    · -- what the answer sends counts as an answer
      have hanswering : s.isAnswering t = true := by
        obtain ⟨id, method, params, hj, -⟩ := exists_of_mem_unbegun mem
        unfold isAnswering
        rw [hj]
        rfl
      unfold answersIn
      rw [sent]
      cases s.dueFor t with
      | none => rfl
      | some m => simp [hanswering]
    · unfold awaited
      rw [removed, filterMap_dueFor_step ho u fun v hv => List.mem_of_mem_erase hv]
    · rw [first]
      rfl
  | apart unasked later same sent =>
    refine .inl ⟨?_, ?_⟩
    · unfold answersIn
      refine List.filterMap_eq_nil_iff.mpr fun x hx => ?_
      rw [sent x hx]
      rfl
    · have hnone : duesIn s.profile [u] = [] := by
        cases u with
        | receive m =>
          have hdue : due? s.profile m = none := by
            unfold due?
            rw [unasked m rfl]
            rfl
          simp [duesIn, Turn.message?, hdue]
        | call | resume | account => rfl
      unfold awaited
      rw [same, filterMap_dueFor_step ho u fun _ ht => ht, hnone, List.append_nil]

/-- **One turn loses no answer and makes up none.** -/
theorem answersIn_perm (ha : Attentive s) {u : Turn} (spared : ∀ t ∈ s.unbegun, u ≠ .resume t .cancelled) :
    (s.answersIn u ++ (s.step u).session.awaited).Perm (s.awaited ++ duesIn s.profile [u]) := by
  rcases awaited_step ho ha spared with ⟨hnone, hawaited⟩ | ⟨t, hmem, -, hanswer, hawaited, hdues⟩
  · rw [hnone, hawaited]
    exact .refl _
  · have hperm := (List.perm_cons_erase hmem).filterMap s.dueFor
    rw [filterMap_cons_toList] at hperm
    rw [hanswer, hawaited, hdues, List.append_nil]
    exact hperm.symm

/-- The answer that begins comes first, if it is the oldest. -/
theorem answersIn_eq (ha : Attentive s) {u : Turn} (spared : ∀ t ∈ s.unbegun, u ≠ .resume t .cancelled)
    (oldest : OldestFirst s u) :
    s.answersIn u ++ (s.step u).session.awaited = s.awaited ++ duesIn s.profile [u] := by
  rcases awaited_step ho ha spared with ⟨hnone, hawaited⟩ | ⟨t, hmem, hu, hanswer, hawaited, hdues⟩
  · rw [hnone, hawaited]
    rfl
  · have hhead := oldest t hmem hu
    obtain ⟨rest, hrest⟩ : ∃ rest, s.unbegun = t :: rest := by
      cases hs : s.unbegun with
      | nil =>
        rw [hs] at hmem
        cases hmem
      | cons v rest =>
        rw [hs] at hhead
        cases hhead
        exact ⟨rest, rfl⟩
    have hawaits : s.awaited = (s.dueFor t).toList ++ rest.filterMap s.dueFor := by
      unfold awaited
      rw [hrest, filterMap_cons_toList]
    rw [hanswer, hawaited, hdues, hawaits, hrest, List.erase_cons_head, List.append_nil]

end

/-- What is due comes message by message. -/
theorem duesIn_cons (p : Profile) (u : Turn) (hs : List Turn) :
    duesIn p (u :: hs) = duesIn p [u] ++ duesIn p hs := by
  have happend : (u :: hs) = [u] ++ hs := rfl
  unfold duesIn
  rw [happend, List.filterMap_append, List.filterMap_append]

/-- **Every request is answered once**: what is handed over, and what is still awaited, is what was awaited
at first and what is due to the messages that came in. -/
theorem answers_perm {s : Session} {hs : List Turn} (ho : Orderly s) (calm : Calm s hs) :
    (s.answers hs ++ (s.after hs).awaited).Perm (s.awaited ++ duesIn s.profile hs) := by
  induction hs generalizing s with
  | nil =>
    show (s.awaited).Perm (s.awaited ++ [])
    rw [List.append_nil]
  | cons u hs ih =>
    obtain ⟨ha, spared, hcalm⟩ := calm
    have hlater := ih (ho.step u) hcalm
    rw [profile_step ho u] at hlater
    have hnow := (answersIn_perm ho ha spared).append_right (duesIn s.profile hs)
    rw [List.append_assoc, List.append_assoc, ← duesIn_cons] at hnow
    show (s.answersIn u ++ (s.step u).session.answers hs ++ ((s.step u).session.after hs).awaited).Perm _
    rw [List.append_assoc]
    exact (hlater.append_left _).trans hnow

/-- **The answers are handed over in the order of the requests**, if they begin in it. -/
theorem answers_eq {s : Session} {hs : List Turn} (ho : Orderly s) (calm : Calm s hs)
    (order : BeginInOrder s hs) : s.answers hs ++ (s.after hs).awaited = s.awaited ++ duesIn s.profile hs := by
  induction hs generalizing s with
  | nil => exact (List.append_nil _).symm
  | cons u hs ih =>
    obtain ⟨ha, spared, hcalm⟩ := calm
    obtain ⟨oldest, horder⟩ := order
    have hlater := ih (ho.step u) hcalm horder
    rw [profile_step ho u] at hlater
    calc s.answersIn u ++ (s.step u).session.answers hs ++ ((s.step u).session.after hs).awaited
        = s.answersIn u ++ (s.step u).session.awaited ++ duesIn s.profile hs := by
          rw [List.append_assoc, hlater, List.append_assoc]
      _ = s.awaited ++ (duesIn s.profile [u] ++ duesIn s.profile hs) := by
          rw [answersIn_eq ho ha spared oldest, List.append_assoc]
      _ = s.awaited ++ duesIn s.profile (u :: hs) := by
          rw [duesIn_cons s.profile u hs]

/-! ## Disposals -/

/-- No disposal goes on. -/
def Undisposed (s : Session) : Prop := ∀ t, ¬ s.Disposing t

/-- No disposal begins as long as the session stays open. -/
theorem Undisposed.step {s : Session} (h : Undisposed s) (ho : Orderly s) {u : Turn}
    (opened : (s.step u).session.whyClosed? = none) : Undisposed (s.step u).session := by
  intro t ht
  rcases ht.before ho with hbefore | hphase
  · exact h t hbefore
  · exact (whyClosed?_eq_none.mp opened).1 hphase

/-- Only disposals make others give up. -/
theorem Undisposed.not_cancel {s : Session} (h : Undisposed s) (u : Turn) (v : Nat) :
    .cancel v ∉ (s.step u).effects := by
  intro hmem
  have hnobody {job : Job} {t : Nat} (hallowed : (s.step u).Allowed s.refusal? [] job t) : False := by
    cases hallowed _ hmem
  cases u with
  | call | receive | account => exact hnobody (allowed_step_of_task?_none s rfl _ _ .listen 0)
  | resume t r =>
    cases hk : s.tasks[t]? with
    | none =>
      change .cancel v ∈ (s.resume t r).effects at hmem
      rw [resume, hk] at hmem
      cases hmem
    | some k =>
      obtain ⟨job, q⟩ := k
      refine hnobody (allowed_resume_of_stage s t s.refusal? hk r (fun _ => rfl) fun hends => ?_)
      have hq := progressOf_of_get hk
      cases q with
      | closingChannel => exact (h t (.inl hq)).elim
      | awaitingReader reader => exact (h t (.inr ⟨reader, hq⟩)).elim
      | created | openingChannel | requesting | announcing | reading | opening | settling | updating | closing
      | answering | telling | listening | finished => cases hends

namespace Loop

/-- No answer is made to give up, nor refused: no disposal goes on, and nothing of an earlier one is left. -/
structure Spared (l : Loop) : Prop where
  undisposed : Undisposed l.session
  writer : l.session.writer ≠ .stopped
  uncancelled : ∀ t, .turn (.resume t .cancelled) ∉ l.demands

/-- No writer is stopped if no disposal goes on. -/
theorem Spared.writer_step {l : Loop} (h : Spared l) (ho : Orderly l.session) (x : Occurrence) :
    (l.step x).session.writer ≠ .stopped := by
  rcases session_step l x with heq | ⟨u, -, heq⟩
  · rw [heq]
    exact h.writer
  · rw [heq]
    rcases Session.writer_step ho u with hsame | ⟨t, ht⟩
    · rw [hsame]
      exact h.writer
    · exact (h.undisposed t ht).elim

/-- What is left to do makes no task give up, if no disposal goes on. -/
theorem Spared.uncancelled_step {l : Loop} (h : Spared l) (x : Occurrence) (t : Nat) :
    .turn (.resume t .cancelled) ∉ (l.step x).demands := by
  generalize hl : l.step x = l'
  have hstepped := stepped_step l x
  rw [hl] at hstepped
  intro hmem
  cases hstepped with
  | outside => exact h.uncancelled t hmem
  | operation place v o text here =>
    rcases List.mem_or_eq_of_mem_set hmem with hmem | heq
    · exact h.uncancelled t hmem
    · cases heq
  | turn u demands arrived prompted old =>
    rcases List.mem_append.mp hmem with hmem | hmem
    · exact h.uncancelled t (old _ hmem)
    · obtain ⟨e, he, hdemand⟩ := List.mem_filterMap.mp hmem
      cases e with
      | cancel v => exact h.undisposed.not_cancel u v he
      | _ => cases hdemand

/-- Before anyone disposes of the session, no answer is made to give up. -/
theorem spared_run (p : Profile) (peer : Channel.Peer) (surroundings : Channel.Surroundings)
    {g : List Occurrence} (alone : ∀ x ∈ g, x ≠ .call .dispose) : Spared ((new p peer surroundings).run g) := by
  have hundisposed {l : Loop} (hs : Sound p l) (hl : LeftAlone l) : Undisposed l.session :=
    fun t ht => hl.undisposed t (ht.job hs.orderly)
  have hnew : Spared (new p peer surroundings) := by
    refine ⟨fun t ht => ?_, by simp [new, Session.new], fun t ht => by cases ht⟩
    rcases ht with ht | ⟨v, ht⟩ <;> cases ht
  have hall := run_preserves (P := fun l => Sound p l ∧ LeftAlone l ∧ Spared l)
    (fun l x hx hl => by
      obtain ⟨hsound, hleft, hspared⟩ := hl
      have hnext := hleft.step hsound hx
      exact ⟨hsound.step x, hnext, hundisposed (hsound.step x) hnext,
        hspared.writer_step hsound.orderly x, hspared.uncancelled_step x⟩)
    alone ⟨sound_new p peer surroundings, ⟨rfl, fun t ht => by cases ht⟩, hnew⟩
  exact hall.2.2

/-! ## Rows of occurrences -/

/-- An occurrence of a row takes a turn or none, and the others follow. -/
theorem turns_cons (l : Loop) (x : Occurrence) (h : List Occurrence) :
    ((l.step x).session = l.session ∧ l.turns (x :: h) = (l.step x).turns h) ∨
    ∃ u, Prompted l x u ∧ (l.step x).taken = l.taken ++ [u] ∧
      (l.step x).session = (l.session.step u).session ∧ l.turns (x :: h) = u :: (l.step x).turns h := by
  obtain ⟨hs, htaken, -⟩ := exists_turns (l.step x) h
  have hrest : (l.step x).turns h = hs := turns_eq htaken
  have hrun : (l.run (x :: h)).taken = (l.step x).taken ++ hs := htaken
  rw [hrest]
  generalize hl : l.step x = l' at hrun ⊢
  have hstepped := stepped_step l x
  rw [hl] at hstepped
  cases hstepped with
  | outside => exact .inl ⟨rfl, turns_eq hrun⟩
  | operation => exact .inl ⟨rfl, turns_eq hrun⟩
  | turn u demands arrived prompted =>
    refine .inr ⟨u, prompted, rfl, rfl, turns_eq ?_⟩
    rw [hrun]
    exact List.append_assoc _ _ _

/-- A caller gives up calls only. -/
theorem isCall_of_taken {l : Loop} {t : Nat} {u : Turn} (taken : (l.step (.giveUp t)).taken = l.taken ++ [u]) :
    isCall l.session t = true := by
  change (if isCall l.session t then l.take (.resume t .cancelled) else l).taken = _ at taken
  split at taken
  · next hcall => exact hcall
  · have hlength := congrArg List.length taken
    simp at hlength

/-- No turn makes an answer give up. -/
theorem Spared.not_cancelled {l : Loop} (h : Spared l) {x : Occurrence} {u : Turn} (prompted : Prompted l x u)
    (taken : (l.step x).taken = l.taken ++ [u]) {t : Nat} (hmem : t ∈ l.session.unbegun) :
    u ≠ .resume t .cancelled := by
  rintro rfl
  cases prompted with
  | demanded mem => exact h.uncancelled t mem
  | gaveUp =>
    have hcall := isCall_of_taken taken
    obtain ⟨id, method, params, hj, -⟩ := exists_of_mem_unbegun hmem
    unfold isCall at hcall
    split at hcall
    · next c hc => cases hj.symm.trans hc
    · cases hcall

section

variable {p : Profile} {h : List Occurrence}

/-- **The turns of an open session without a handshake are calm.** -/
theorem calm_turns {l : Loop} (hs : Sound p l) (hshaken : Shaken l.session) (hspared : Spared l)
    (opened : ∀ a b, h = a ++ b → (l.run a).session.whyClosed? = none)
    (once : ∀ x ∈ h, x ≠ .call .handshake) : Calm l.session (l.turns h) := by
  induction h generalizing l with
  | nil =>
    have hnone : l.turns [] = [] := turns_eq (List.append_nil _).symm
    rw [hnone]
    trivial
  | cons x h ih =>
    have hnow : l.session.whyClosed? = none := opened [] _ rfl
    have hnext : (l.step x).session.whyClosed? = none := opened [x] h rfl
    have hlater (undisposed : Undisposed (l.step x).session) : Calm (l.step x).session ((l.step x).turns h) :=
      ih (hs.step x) (shaken_step hs hshaken (once x List.mem_cons_self))
        ⟨undisposed, hspared.writer_step hs.orderly x, hspared.uncancelled_step x⟩
        (fun a b heq => opened (x :: a) b (congrArg _ heq)) fun y hy => once y (List.mem_cons_of_mem _ hy)
    rcases turns_cons l x h with ⟨hsession, hturns⟩ | ⟨u, prompted, taken, hsession, hturns⟩
    · rw [hturns, ← hsession]
      exact hlater (hsession ▸ hspared.undisposed)
    · rw [hturns]
      rw [hsession] at hlater hnext
      have hundisposed := hspared.undisposed.step hs.orderly hnext
      exact ⟨⟨refusal?_eq_none.mpr ⟨hnow, hspared.writer⟩, hshaken⟩,
        fun t hmem => hspared.not_cancelled prompted taken hmem, hlater hundisposed⟩

/-- **Answers begin in the order of their requests** if first turns are given in the order in which they
were asked for. -/
theorem beginInOrder_turns {l : Loop} (hs : Sound p l) (hq : Queued l) (order : StartsInOrder l h) :
    BeginInOrder l.session (l.turns h) := by
  induction h generalizing l with
  | nil =>
    have hnone : l.turns [] = [] := turns_eq (List.append_nil _).symm
    rw [hnone]
    trivial
  | cons x h ih =>
    obtain ⟨hx, hrest⟩ := order
    have hlater := ih (hs.step x) (hq.step hs.orderly x) hrest
    rcases turns_cons l x h with ⟨hsession, hturns⟩ | ⟨u, -, taken, hsession, hturns⟩
    · rw [hturns, ← hsession]
      exact hlater
    · rw [hturns]
      refine ⟨fun t hmem hu => ?_, hsession ▸ hlater⟩
      subst hu
      exact hq.head_unbegun hmem (beginning_of_begins hx taken)

end

/-! ## The headline -/

/-- What becomes of the requests of the server in a row of occurrences. -/
structure Served (p : Profile) (before : Loop) (h : List Occurrence) : Prop where
  /-- Messages are handed to the session in the order in which they arrive. -/
  arrived : (before.turns h).filterMap Turn.message? ++ (before.run h).arrived =
    before.arrived ++ if before.streamEnd.isSome then [] else arrivals h
  /-- What is due to them is handed over once, or is still awaited; nothing else is handed over as an
  answer. -/
  once : (before.session.answers (before.turns h) ++ (before.run h).session.awaited).Perm
    (before.session.awaited ++ duesIn p (before.turns h))
  /-- If first turns are given in the order in which they were asked for, the answers are handed over in the
  order of the requests. -/
  inOrder : StartsInOrder before h →
    before.session.answers (before.turns h) ++ (before.run h).session.awaited =
      before.session.awaited ++ duesIn p (before.turns h)
  /-- An answer that is awaited has its first turn coming. -/
  attended : ∀ t ∈ (before.run h).session.unbegun, .turn (.resume t .begins) ∈ (before.run h).demands
  /-- What is handed over besides the answers is handed over for a call. -/
  senders : ∀ a u b t m, before.turns h = a ++ u :: b →
    .perform t (.send m) ∈ ((before.session.after a).step u).effects → Sending (before.session.after a) u t
  /-- One writer writes it all in this order. -/
  written : WritesInOrder before h →
    before.waiting ++ (before.session.run (before.turns h)).effects.filterMap Effect.sent? =
      before.written h ++ (before.run h).waiting

/-- What a calm history sends is sent by answers and calls. -/
theorem sending_of_calm {s : Session} {hs : List Turn} (ho : Orderly s) (calm : Calm s hs) {a b : List Turn}
    {u : Turn} (heq : hs = a ++ u :: b) {t : Nat} {m : Json}
    (hsend : .perform t (.send m) ∈ ((s.after a).step u).effects) : Sending (s.after a) u t := by
  induction a generalizing s hs with
  | nil =>
    subst heq
    exact sending_of_send ho calm.1.shaken hsend
  | cons v a ih =>
    subst heq
    exact ih (ho.step v) calm.2.2 rfl hsend

/-- **The server never waits for an answer.** Let a handshake succeed in a row of occurrences `g` in which
nobody asks to dispose of the session, and let the session stay open through a row `h` without another
handshake. Then the requests that arrive are served as `Served` says, in whatever order calls, messages and
operations follow each other; and the answers that are due are those that `Dues` names. -/
theorem requests_served (p : Profile) (peer : Channel.Peer) (surroundings : Channel.Surroundings)
    (g h : List Occurrence) (ready : Initialized ((new p peer surroundings).run g))
    (alone : ∀ x ∈ g, x ≠ .call .dispose) (once : ∀ x ∈ h, x ≠ .call .handshake)
    (opened : ∀ a b, h = a ++ b → (((new p peer surroundings).run g).run a).session.whyClosed? = none) :
    Dues p ∧ Served p ((new p peer surroundings).run g) h := by
  have hqueued := queued_run p peer surroundings (g ++ h)
  have hspared := spared_run p peer surroundings alone
  have hbeforeQueued := queued_run p peer surroundings g
  rw [run_append] at hqueued
  generalize hbefore : (new p peer surroundings).run g = before at *
  have hsound : Sound p before := hbefore ▸ sound_run p peer surroundings g
  have hprofile : before.session.profile = p := by
    rw [hsound.session]
    exact profile_after p before.taken
  have hcalm : Calm before.session (before.turns h) := calm_turns hsound ready.2 hspared opened once
  obtain ⟨hs, htaken, hsession, heffects, -⟩ := exists_turns before h
  have hturns : before.turns h = hs := turns_eq htaken
  rw [hturns] at hcalm
  refine ⟨dues p, ?_⟩
  constructor
  · have hreceived := hsound.received_run h
    unfold received at hreceived
    rw [htaken, List.filterMap_append, List.append_assoc, List.append_assoc] at hreceived
    rw [hturns]
    exact List.append_cancel_left hreceived
  · rw [hturns, hsession, ← hprofile]
    exact answers_perm hsound.orderly hcalm
  · intro order
    have horder := beginInOrder_turns hsound hbeforeQueued order
    rw [hturns] at horder ⊢
    rw [hsession, ← hprofile]
    exact answers_eq hsound.orderly hcalm horder
  · intro t hmem
    obtain ⟨d, hd, hbegins⟩ := List.mem_filterMap.mp (hqueued.queued t hmem)
    rw [eq_of_begins? hbegins] at hd
    exact hd
  · intro a u b t m heq hsend
    rw [hturns] at heq
    exact sending_of_calm hsound.orderly hcalm heq hsend
  · intro order
    obtain ⟨es, hes, hlaw⟩ := waiting_append_run order
    obtain rfl : es = (before.session.run hs).effects := List.append_cancel_left (hes.symm.trans heffects)
    rw [hturns]
    exact hlaw

/-- A request for configuration of two items and another request arrive; their answers are handed over and
written in this order. -/
theorem two_requests_served :
    let p : Profile := ⟨"/a.txt", .str "text", "/", .int 0, false, false, 1⟩
    let now (place : Nat) : Occurrence := .serve place (.ok "")
    let handshake := [.call .handshake, now 0, now 0, now 0, now 0, now 0, now 0,
      .arrive (.obj [("id", .int 1)]), now 0, now 1, now 1, now 1]
    let configuration := .obj [("id", .int 7), ("method", .str "workspace/configuration"),
      ("params", .obj [("items", .arr [.null, .obj []])])]
    let registration := .obj [("id", .str "b"), ("method", .str "client/registerCapability")]
    let h := [.arrive configuration, now 0, .arrive registration, now 0, now 1, now 1, now 1, now 1, now 1, now 3]
    let before := (new p .streams ⟨⟨"linux", none⟩, [], none, none, false, false, false, 0⟩).run handshake
    let answers := [response (.int 7) (.arr [.obj [], .obj []]), response (.str "b") .null]
    before.session.phase = .ready ∧ before.session.answers (before.turns h) = answers ∧
      (before.written h).map Prod.snd = answers := by
  intro p now handshake configuration registration h before answers
  have hshaken : Shaken before.session := shaken_of_tasks (by decide +kernel)
  have hopened : ∀ a ∈ h.inits, (before.run a).session.whyClosed? = none := by decide +kernel
  obtain ⟨-, hserved⟩ := requests_served p .streams
    ⟨⟨"linux", none⟩, [], none, none, false, false, false, 0⟩ handshake h ⟨by decide +kernel, hshaken⟩
    (by simp [handshake, now]) (by simp [h, now])
    fun a b heq => hopened a ((List.mem_inits a h).mpr ⟨b, heq.symm⟩)
  have horder := hserved.inOrder (by decide +kernel)
  have hawaited : before.session.awaited = [] ∧ (before.run h).session.awaited = [] := by decide +kernel
  have hdues : duesIn p (before.turns h) = answers := by decide +kernel
  change before.session.answers (before.turns h) ++ (before.run h).session.awaited
    = before.session.awaited ++ duesIn p (before.turns h) at horder
  rw [hawaited.1, hawaited.2, hdues, List.append_nil] at horder
  exact ⟨by decide +kernel, horder, by decide +kernel⟩

/-- A request for configuration whose items are null is handed to the session; nothing is ever handed over
to the server, and nothing is awaited. -/
theorem items_without_answer :
    let p : Profile := ⟨"/a.txt", .str "text", "/", .int 0, false, false, 1⟩
    let now (place : Nat) : Occurrence := .serve place (.ok "")
    let handshake := [.call .handshake, now 0, now 0, now 0, now 0, now 0, now 0,
      .arrive (.obj [("id", .int 1)]), now 0, now 1, now 1, now 1]
    let request := .obj [("id", .int 7), ("method", .str "workspace/configuration"),
      ("params", .obj [("items", .null)])]
    let h := [.arrive request, now 0, now 1, now 1, now 1, now 1]
    let before := (new p .streams ⟨⟨"linux", none⟩, [], none, none, false, false, false, 0⟩).run handshake
    Initialized before ∧ (∀ a b, h = a ++ b → (before.run a).session.whyClosed? = none) ∧
      (before.turns h).filterMap Turn.message? = [request] ∧ StartsInOrder before h ∧
      (before.session.run (before.turns h)).effects.filterMap Effect.sent? = [] ∧
      (before.run h).session.awaited = [] ∧ (before.run h).demands = [.listening 1] := by
  intro p now handshake request h before
  have hshaken : Shaken before.session := shaken_of_tasks (by decide +kernel)
  have hopened : ∀ a ∈ h.inits, (before.run a).session.whyClosed? = none := by decide +kernel
  refine ⟨⟨by decide +kernel, hshaken⟩, fun a b heq => ?_, by decide +kernel, by decide +kernel,
    by decide +kernel, by decide +kernel, by decide +kernel⟩
  exact hopened a ((List.mem_inits a h).mpr ⟨b, heq.symm⟩)

end Loop

end EditorServices.Session
