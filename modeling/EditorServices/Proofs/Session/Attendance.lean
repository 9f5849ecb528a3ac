import EditorServices.Proofs.Lists
import EditorServices.Proofs.Session.Ending
import EditorServices.Session.Loop

/-!
# `Proofs.Session.Attendance` — no question is forgotten by the loop

A loop serves what its turns asked for, in any order. This file says what can be relied on in every
order. Each question that has not ended waits for the server, or something that makes it go on is still
to be served; and what is to be served is about tasks that are there, and makes no call give up.

## Contents
- **One occurrence.** `Stepped`, what an occurrence does to a loop, and `Prompted`, why a turn is taken.
- **Demands.** `Demand.Fits`, what a demand can be, and `Demand.Moves`, by which it makes a task go on.
- **Attendance.** `Attended`, `Sound`, and `sound_run`.
- **Arrival.** `Unprompted.received_run`: messages are handed over in the order of their arrival.
-/

namespace EditorServices.Session

/-- A job is a question about a position. -/
def Job.IsQuestion (j : Job) : Prop := ∃ q line character, j = .call (.ask q line character)

theorem isQuestion_of_ask {s : Session} {t : Nat} {q : Query} {line character : Json}
    (hj : s.jobOf t = some (.call (.ask q line character))) : ∀ job, s.jobOf t = some job → job.IsQuestion := by
  intro job hjob
  obtain rfl := Option.some.inj (hjob.symm.trans hj)
  exact ⟨q, line, character, rfl⟩

namespace Loop

/-! ## One occurrence -/

/-- Why a turn is taken. -/
inductive Prompted (l : Loop) : Occurrence → Turn → Prop where
  | called (c : Call) : Prompted l (.call c) (.call c)
  | demanded {x : Occurrence} {u : Turn} (mem : .turn u ∈ l.demands) : Prompted l x u
  | received {x : Occurrence} (m : Json) : Prompted l x (.receive m)
  /-- The stream is over, and all that arrived was handed over. -/
  | streamEnded {x : Occurrence} (t : Nat) (reason : String) (error : Option String)
      (none_left : l.arrived = []) : Prompted l x (.resume t (.streamEnded reason error))
  | gaveUp (t : Nat) : Prompted l (.giveUp t) (.resume t .cancelled)

/-- What an occurrence does to a loop. -/
inductive Stepped (l : Loop) (x : Occurrence) : Loop → Prop where
  /-- Nothing that the session knows of. -/
  | outside (arrived : List Json) (streamEnd : Option (String × Option String)) :
      Stepped l x { l with arrived := arrived, streamEnd := streamEnd }
  /-- An operation is done. -/
  | operation (place t : Nat) (o : Operation) (text : Except Failure String)
      (here : l.demands[place]? = some (.operation t o)) :
      Stepped l x { l with
        channel := (perform l.channel text o).1
        demands := l.demands.set place (.turn (.resume t (.returned (perform l.channel text o).2))) }
  /-- A turn is taken; what was demanded of it is done. -/
  | turn (u : Turn) (demands : List Demand) (arrived : List Json) (prompted : Prompted l x u)
      (old : ∀ d ∈ demands, d ∈ l.demands)
      (kept : ∀ d ∈ l.demands, d ∈ demands ∨ d = .turn u ∨ ∃ t, d = .listening t) :
      Stepped l x ({ l with demands := demands, arrived := arrived }.take u)

theorem stepped_listen (l : Loop) (x : Occurrence) {place t : Nat}
    (here : l.demands[place]? = some (.listening t)) : Stepped l x (l.listen place t) := by
  unfold listen
  split
  · next m rest harr =>
    exact .turn (.receive m) l.demands rest (.received m) (fun _ hd => hd) fun _ hd => .inl hd
  · next reason error harr _ =>
    refine .turn _ (l.demands.eraseIdx place) l.arrived (.streamEnded t reason error harr)
      (fun _ hd => List.mem_of_mem_eraseIdx hd) fun d hd => ?_
    rcases mem_eraseIdx_or hd here with hd | rfl
    · exact .inl hd
    · exact .inr (.inr ⟨t, rfl⟩)
  · exact .outside l.arrived l.streamEnd

/-- **What an occurrence does.** -/
theorem stepped_step (l : Loop) (x : Occurrence) : Stepped l x (l.step x) := by
  have hidle : Stepped l x l := .outside l.arrived l.streamEnd
  cases x with
  | call c => exact .turn (.call c) l.demands l.arrived (.called c) (fun _ hd => hd) fun _ hd => .inl hd
  | arrive m =>
    show Stepped l _ (if l.streamEnd.isSome then l else _)
    split
    · exact hidle
    · exact .outside (l.arrived ++ [m]) l.streamEnd
  | endStream reason error =>
    show Stepped l _ (if l.streamEnd.isSome then l else _)
    split
    · exact hidle
    · exact .outside l.arrived (some (reason, error))
  | giveUp t =>
    show Stepped l _ (if isCall l.session t then _ else l)
    split
    · exact .turn _ l.demands l.arrived (.gaveUp t) (fun _ hd => hd) fun _ hd => .inl hd
    · exact hidle
  | serve place text =>
    show Stepped l _ (l.serve place text)
    unfold serve
    split
    · next u here =>
      refine .turn u (l.demands.eraseIdx place) l.arrived (.demanded (List.mem_of_getElem? here))
        (fun _ hd => List.mem_of_mem_eraseIdx hd) fun d hd => ?_
      rcases mem_eraseIdx_or hd here with hd | rfl
      · exact .inl hd
      · exact .inr (.inl rfl)
    · next t o here => exact .operation place t o text here
    · next t here => exact stepped_listen l _ here
    · exact hidle

/-- An occurrence leaves the session as it is, or takes one turn of it. -/
theorem session_step (l : Loop) (x : Occurrence) :
    (l.step x).session = l.session ∨
      ∃ u, Prompted l x u ∧ (l.step x).session = (l.session.step u).session := by
  generalize hl : l.step x = l'
  have hstepped := stepped_step l x
  rw [hl] at hstepped
  cases hstepped with
  | outside => exact .inl rfl
  | operation => exact .inl rfl
  | turn u _ _ prompted => exact .inr ⟨u, prompted, rfl⟩

/-- What every occurrence of a row preserves, the row preserves. -/
theorem run_preserves {P : Loop → Prop} {Q : Occurrence → Prop}
    (hstep : ∀ l x, Q x → P l → P (l.step x)) {h : List Occurrence} (hq : ∀ x ∈ h, Q x) {l : Loop}
    (hl : P l) : P (l.run h) := by
  induction h generalizing l with
  | nil => exact hl
  | cons x h ih =>
    exact ih (fun y hy => hq y (List.mem_cons_of_mem _ hy)) (hstep l x (hq x List.mem_cons_self) hl)

theorem run_append (l : Loop) (g h : List Occurrence) : l.run (g ++ h) = (l.run g).run h := by
  induction g generalizing l with
  | nil => rfl
  | cons x g ih => exact ih _

end Loop

/-! ## Demands -/

/-- A demand can be served for the tasks that are there: an operation fits the job of its task, no call
is made to give up, and the request of a question can only fail because the channel is not open. -/
def Demand.Fits (s : Session) : Demand → Prop
  | .turn (.resume t (.returned x)) =>
    ∃ job, s.jobOf t = some job ∧ (job.IsQuestion → ∀ f, x = .error f → f = Channel.notOpen)
  | .turn (.resume t .cancelled) => ∃ job, s.jobOf t = some job ∧ ∀ c, job ≠ .call c
  | .turn (.resume _ (.streamEnded _ _)) | .turn (.call _) | .turn (.receive _) => False
  | .operation t o => ∃ job, s.jobOf t = some job ∧ o.IsOf job
  | _ => True

/-- A demand fits as long as tasks keep their jobs. -/
theorem Demand.Fits.keep {s s' : Session} {d : Demand} (h : d.Fits s)
    (hj : ∀ {t job}, s.jobOf t = some job → s'.jobOf t = some job) : d.Fits s' := by
  have hsome {t : Nat} {P : Job → Prop} (hx : ∃ job, s.jobOf t = some job ∧ P job) :
      ∃ job, s'.jobOf t = some job ∧ P job := by
    obtain ⟨job, hjob, hP⟩ := hx
    exact ⟨job, hj hjob, hP⟩
  cases d with
  | listening t => trivial
  | operation t o => exact hsome h
  | turn u =>
    cases u with
    | call | receive => exact h
    | account t f => trivial
    | resume t r =>
      cases r with
      | returned | cancelled => exact hsome h
      | streamEnded => exact h
      | begins | replied | rested | readerFinished => trivial

/-- What a turn demands can be served. -/
theorem fits_of_effect {s : Session} (hd : Dependable s) (ho : Orderly s) {u : Turn} {e : Effect}
    (he : e ∈ (s.step u).effects) {d : Demand} (hed : Demand.of? e = some d) :
    d.Fits (s.step u).session := by
  cases e with
  | perform t o =>
    cases hed
    obtain ⟨-, job, hj, hof⟩ := operation_of_perform he
    exact ⟨job, ho.jobOf_step u hj, hof⟩
  | cancel t =>
    cases hed
    obtain ⟨job, hj, hc⟩ := hd t (mem_dependents_of_cancel he)
    exact ⟨job, ho.jobOf_step u hj, hc⟩
  | listen | start | wake | pause | sleep | rejoin | account =>
    cases hed
    trivial
  | completed | told | refused | log => cases hed

/-- A demand makes a task go on from a stage. -/
def Demand.Moves (t : Nat) (p : Progress) : Demand → Prop
  | .turn u => ∃ r, u = .resume t r ∧ p.awaits r = true
  | .operation v _ => v = t ∧ p.awaits (.returned (.ok "")) = true
  | .listening _ => False

/-- It does not matter for the stages of a request whether its reply is there when it is written. -/
theorem Demand.Moves.reply {t id : Nat} {purpose : Purpose} {r : Reply} {d : Demand}
    (h : d.Moves t (.requesting purpose id false none)) :
    d.Moves t (.requesting purpose id false (some r)) := by
  cases d with
  | listening => exact h
  | operation v o => exact ⟨h.1, rfl⟩
  | turn u =>
    obtain ⟨x, rfl, hx⟩ := h
    refine ⟨x, rfl, ?_⟩
    cases x <;> first | rfl | cases hx

/-! ## Attendance -/

/-- A task is not forgotten: something that makes it go on is to be served, it waits for the server, or
it is over and its end was made known. -/
inductive Attended (s : Session) (demands : List Demand) (effects : List Effect) (t : Nat) : Prop where
  | demanded (p : Progress) (d : Demand) (here : s.progressOf t = some p) (mem : d ∈ demands)
      (moves : d.Moves t p)
  | waiting (purpose : Purpose) (id : Nat)
      (here : s.progressOf t = some (.requesting purpose id true none))
  | ended (o : Except Failure Answer) (here : s.progressOf t = some .finished)
      (known : .completed t o ∈ effects)

namespace Loop

/-- What can be relied on in every order of events. -/
structure Sound (p : Profile) (l : Loop) : Prop where
  session : l.session = (Session.new p).after l.taken
  fits : ∀ d ∈ l.demands, d.Fits l.session
  /-- What was made known to be over is over. -/
  completed : ∀ t o, .completed t o ∈ l.effects → ∃ job, l.session.jobOf t = some job ∧
    (job.IsQuestion → l.session.progressOf t = some .finished)
  attended : ∀ t job, l.session.jobOf t = some job → job.IsQuestion →
    Attended l.session l.demands l.effects t

/-- Sending fails for one reason only: the channel is not open. -/
theorem result_perform_send (c : Channel) (text : Except Failure String) (m : Json) :
    (perform c text (.send m)).2
      = if c.closed || !c.started then .error Channel.notOpen else .ok "" := by
  show (c.write m).result.map (fun _ => "") = _
  unfold Channel.write
  split
  · rfl
  · split <;> rfl

/-- What makes a task go on is still demanded after a turn that does not make it go on. -/
theorem still_demanded {l : Loop} {u : Turn} {demands : List Demand}
    (kept : ∀ d ∈ l.demands, d ∈ demands ∨ d = .turn u ∨ ∃ t, d = .listening t)
    {t : Nat} {p' : Progress} {d : Demand} (mem : d ∈ l.demands)
    (moves : d.Moves t p') (hu : ∀ r, u = .resume t r → p'.awaits r = false) : d ∈ demands := by
  rcases kept d mem with hd | rfl | ⟨v, rfl⟩
  · exact hd
  · obtain ⟨r, hr, hawaits⟩ := moves
    rw [hu r hr] at hawaits
    cases hawaits
  · cases moves

namespace Sound

variable {p : Profile} {l : Loop} (h : Sound p l)
include h

theorem orderly : Orderly l.session := h.session ▸ orderly_after p l.taken

theorem consistent : Consistent l.session := h.session ▸ consistent_after p l.taken

theorem dependable : Dependable l.session := h.session ▸ dependable_after p l.taken

/-- An operation that is done leaves a result that fits. -/
theorem operation {place t : Nat} {o : Operation} (text : Except Failure String)
    (here : l.demands[place]? = some (.operation t o)) : Sound p { l with
      channel := (perform l.channel text o).1
      demands := l.demands.set place (.turn (.resume t (.returned (perform l.channel text o).2))) } := by
  obtain ⟨job, hj, hof⟩ := h.fits _ (List.mem_of_getElem? here)
  refine ⟨h.session, fun d hd => ?_, h.completed, fun v job' hv hq => ?_⟩
  · rcases List.mem_or_eq_of_mem_set hd with hd | rfl
    · exact h.fits d hd
    · refine ⟨job, hj, fun hquestion f hf => ?_⟩
      -- of the operations, a question asks only for its request to be sent
      obtain ⟨q, line, character, rfl⟩ := hquestion
      cases o with
      | send m =>
        rw [result_perform_send] at hf
        split at hf
        · exact (Except.error.inj hf).symm
        · cases hf
      | openChannel | closeChannel | readFile => cases hof
  · cases h.attended v job' hv hq with
    | waiting purpose id hp => exact .waiting purpose id hp
    | ended x hp known => exact .ended x hp known
    | demanded p' d hp mem moves =>
      rcases mem_set_or mem here with mem | rfl
      · exact .demanded p' d hp mem moves
      · -- the request of this question was sent: its result is what makes it go on
        obtain ⟨rfl, hawaits⟩ := moves
        refine .demanded p' (.turn (.resume t (.returned (perform l.channel text o).2))) hp ?_
          ⟨_, rfl, hawaits⟩
        exact List.mem_set (List.getElem?_eq_some_iff.mp here).1 _

section
variable {u : Turn} {demands : List Demand}
  (kept : ∀ d ∈ l.demands, d ∈ demands ∨ d = .turn u ∨ ∃ t, d = .listening t)
include kept

/-- A turn of another task leaves a question attended: if it gives the reply, it wakes the question. -/
theorem attended_elsewhere {t : Nat} {job : Job} (hj : l.session.jobOf t = some job)
    (hq : job.IsQuestion) (hu : u.task? ≠ some t) :
    Attended (l.session.step u).session
      (demands ++ (l.session.step u).effects.filterMap Demand.of?)
      (l.effects ++ (l.session.step u).effects) t := by
  have hnot {p' : Progress} (r : Resumption) (hr : u = .resume t r) : p'.awaits r = false :=
    absurd (by rw [hr]; rfl) hu
  cases h.attended t job hj hq with
  | demanded p' d hp mem moves =>
    have hd := List.mem_append_left ((l.session.step u).effects.filterMap Demand.of?)
      (still_demanded kept mem moves hnot)
    obtain ⟨q, hq, rfl | ⟨purpose, id, written, r, rfl, rfl⟩⟩ := h.orderly.progressOf_step hu hp
    · exact .demanded _ d hq hd moves
    · cases written with
      | false => exact .demanded _ d hq hd moves.reply
      | true =>
        -- nothing makes a task go on that waits for the server
        cases d with
        | turn x =>
          obtain ⟨r', -, hr'⟩ := moves
          cases r' <;> cases hr'
        | operation v o => cases moves.2
        | listening v => cases moves
  | waiting purpose id hp =>
    obtain ⟨q, hq, rfl | ⟨_, _, _, r, heq, rfl⟩⟩ := h.orderly.progressOf_step hu hp
    · exact .waiting purpose id hq
    · cases heq
      have hwake := wake_of_reply h.consistent (waitOf_of_progressOf hp) rfl rfl
        (waitOf_of_progressOf hq) (by simp)
      refine .demanded _ (.turn (.resume t .replied)) hq (List.mem_append_right _ ?_) ⟨_, rfl, rfl⟩
      exact List.mem_filterMap.mpr ⟨_, hwake, rfl⟩
  | ended o hp known =>
    exact .ended o (h.orderly.finished_step u hp) (List.mem_append_left _ known)

/-- A turn of a question leaves it attended. -/
theorem attended_own {t : Nat} {r : Resumption} {q : Query} {line character : Json}
    (hj : l.session.jobOf t = some (.call (.ask q line character))) (hu : u = .resume t r) :
    Attended (l.session.step u).session
      (demands ++ (l.session.step u).effects.filterMap Demand.of?)
      (l.effects ++ (l.session.step u).effects) t := by
  subst hu
  obtain ⟨⟨_, p'⟩, hk, -⟩ := Option.map_eq_some_iff.mp hj
  have hp := progressOf_of_get hk
  obtain ⟨q', hq', hturn⟩ := questionTurn_resume hj h.orderly hp r
  have hbefore := h.attended t _ hj ⟨q, line, character, rfl⟩
  show Attended (l.session.resume t r).session
    (demands ++ (l.session.resume t r).effects.filterMap Demand.of?)
    (l.effects ++ (l.session.resume t r).effects) t
  generalize (l.session.resume t r).effects = es at hturn ⊢
  cases hturn with
  | idle passed =>
    cases hbefore with
    | demanded p'' d hp'' mem moves =>
      obtain rfl : p'' = p' := Option.some.inj (hp''.symm.trans hp)
      refine .demanded _ d hq' (List.mem_append_left _ (still_demanded kept mem moves ?_)) moves
      intro r' hr'
      cases hr'
      exact passed
    | waiting purpose id hp'' => exact .waiting purpose id (by rw [hq', ← hp, hp''])
    | ended o hp'' known =>
      exact .ended o (by rw [hq', ← hp, hp'']) (List.mem_append_left _ known)
  | @asked id m =>
    refine .demanded _ (.operation t (.send m)) hq' (List.mem_append_right _ ?_) ⟨rfl, rfl⟩
    exact List.mem_filterMap.mpr ⟨_, List.mem_singleton_self _, rfl⟩
  | written => exact .waiting _ _ hq'
  | ended ends done => exact .ended _ hq' (List.mem_append_right _ ((done _).mpr rfl))

end

/-- A question that was just called waits for its first turn. -/
theorem attended_fresh {u : Turn} {t : Nat} {c : Call} (demands : List Demand) (effects : List Effect)
    (hnone : l.session.jobOf t = none) (hj : (l.session.step u).session.jobOf t = some (.call c)) :
    Attended (l.session.step u).session
      (demands ++ (l.session.step u).effects.filterMap Demand.of?) effects t := by
  obtain ⟨rfl, rfl⟩ := h.orderly.jobOf_fresh hnone hj
  refine .demanded .created (.turn (.resume _ .begins)) ?_ (List.mem_append_right _ ?_) ⟨_, rfl, rfl⟩
  · exact (progressOf_addTask l.session (.call c) _).trans (if_pos rfl)
  · exact List.mem_filterMap.mpr ⟨_, List.mem_singleton_self _, rfl⟩

/-- A question that ends in a turn is over after it. -/
theorem over_of_completed {u : Turn} {t : Nat} {o : Except Failure Answer}
    (ho : .completed t o ∈ (l.session.step u).effects) :
    ∃ job, l.session.jobOf t = some job ∧
      (job.IsQuestion → (l.session.step u).session.progressOf t = some .finished) := by
  have hu := task?_of_completed ho
  obtain ⟨r, rfl⟩ := Turn.exists_resume hu
  change .completed t o ∈ (l.session.resume t r).effects at ho
  cases hk : l.session.tasks[t]? with
  | none =>
    rw [resume, hk] at ho
    cases ho
  | some k =>
    obtain ⟨job, p'⟩ := k
    refine ⟨job, jobOf_of_get hk, ?_⟩
    rintro ⟨q, line, character, hq⟩
    exact finished_of_completed ((jobOf_of_get hk).trans (congrArg some hq)) h.orderly ho

/-- **A turn keeps what can be relied on.** -/
theorem turn {u : Turn} {demands : List Demand} (arrived : List Json)
    (old : ∀ d ∈ demands, d ∈ l.demands)
    (kept : ∀ d ∈ l.demands, d ∈ demands ∨ d = .turn u ∨ ∃ t, d = .listening t) :
    Sound p ({ l with demands := demands, arrived := arrived }.take u) := by
  have ho := h.orderly
  refine ⟨?_, fun d hd => ?_, fun t o hmem => ?_, fun t job hj hq => ?_⟩
  · show (l.session.step u).session = (Session.new p).after (l.taken ++ [u])
    rw [after_append, ← h.session]
    rfl
  · rcases List.mem_append.mp hd with hd | hd
    · exact (h.fits d (old d hd)).keep (ho.jobOf_step u)
    · obtain ⟨e, he, hed⟩ := List.mem_filterMap.mp hd
      exact fits_of_effect h.dependable ho he hed
  · rcases List.mem_append.mp hmem with hmem | hmem
    · obtain ⟨job, hj, hover⟩ := h.completed t o hmem
      exact ⟨job, ho.jobOf_step u hj, fun hq => ho.finished_step u (hover hq)⟩
    · obtain ⟨job, hj, hover⟩ := h.over_of_completed hmem
      exact ⟨job, ho.jobOf_step u hj, hover⟩
  · cases hjob : l.session.jobOf t with
    | none =>
      obtain ⟨q, line, character, rfl⟩ := hq
      exact h.attended_fresh _ _ hjob hj
    | some job' =>
      obtain rfl : job' = job := Option.some.inj ((ho.jobOf_step u hjob).symm.trans hj)
      by_cases hu : u.task? = some t
      · obtain ⟨r, hr⟩ := Turn.exists_resume hu
        obtain ⟨q, line, character, rfl⟩ := hq
        exact h.attended_own kept hjob hr
      · exact h.attended_elsewhere kept hjob hq hu

/-- Every occurrence keeps it. -/
theorem step (x : Occurrence) : Sound p (l.step x) := by
  generalize hl : l.step x = l'
  have hx := stepped_step l x
  rw [hl] at hx
  cases hx with
  | outside arrived streamEnd => exact ⟨h.session, h.fits, h.completed, h.attended⟩
  | operation place t o text here => exact h.operation text here
  | turn u demands arrived _ old kept => exact h.turn arrived old kept

end Sound

theorem sound_new (p : Profile) (peer : Channel.Peer) (surroundings : Channel.Surroundings) :
    Sound p (new p peer surroundings) := by
  refine ⟨rfl, fun d hd => ?_, fun t o ho => ?_, fun t job hj => ?_⟩
  · cases hd
  · cases ho
  · cases hj

/-- Calls are made by occurrences only. -/
theorem Prompted.eq_call {p : Profile} {l : Loop} {x : Occurrence} {c : Call}
    (h : Prompted l x (.call c)) (hs : Sound p l) : x = .call c := by
  cases h with
  | called => rfl
  | demanded mem => exact (hs.fits _ mem).elim

/-- **Every row of occurrences leaves a sound loop.** -/
theorem sound_run (p : Profile) (peer : Channel.Peer) (surroundings : Channel.Surroundings)
    (h : List Occurrence) : Sound p ((new p peer surroundings).run h) :=
  run_preserves (Q := fun _ => True) (fun _ x _ hl => hl.step x) (fun _ _ => trivial)
    (sound_new p peer surroundings)

end Loop

/-! ## Arrival -/

/-- The message that a turn hands to the session. -/
def Turn.message? : Turn → Option Json
  | .receive m => some m
  | _ => none

/-- The messages that arrive before the inbound stream ends. -/
def arrivals : List Occurrence → List Json
  | [] => []
  | .arrive m :: rest => m :: arrivals rest
  | .endStream _ _ :: _ => []
  | .call _ :: rest | .serve _ _ :: rest | .giveUp _ :: rest => arrivals rest

namespace Loop

/-- The messages of the server so far, those first that were handed over. -/
def received (l : Loop) : List Json := l.taken.filterMap Turn.message? ++ l.arrived

/-- A turn that hands over no message. -/
theorem received_take_of_none (l : Loop) {u : Turn} (hu : u.message? = none) (demands : List Demand) :
    ({ l with demands := demands }.take u).received = l.received := by
  show (l.taken ++ [u]).filterMap Turn.message? ++ l.arrived = _
  rw [List.filterMap_append, List.filterMap_cons_none hu, List.filterMap_nil, List.append_nil]
  rfl

theorem streamEnd_take (l : Loop) (u : Turn) : (l.take u).streamEnd = l.streamEnd := rfl

/-- No demand is for a message to be handed over. -/
def Unprompted (l : Loop) : Prop := ∀ m, .turn (.receive m) ∉ l.demands

theorem Sound.unprompted {p : Profile} {l : Loop} (h : Sound p l) : Unprompted l := fun _ hm => h.fits _ hm

/-- No turn asks for a message to be handed over. -/
theorem Unprompted.step {l : Loop} (h : Unprompted l) (x : Occurrence) : Unprompted (l.step x) := by
  intro m hm
  generalize hl : l.step x = l' at hm
  have hstepped := stepped_step l x
  rw [hl] at hstepped
  cases hstepped with
  | outside => exact h m hm
  | operation place t o text here =>
    rcases List.mem_or_eq_of_mem_set hm with hm | heq
    · exact h m hm
    · cases heq
  | turn u demands arrived prompted old =>
    rcases List.mem_append.mp hm with hm | hm
    · exact h m (old _ hm)
    · obtain ⟨e, -, hdemand⟩ := List.mem_filterMap.mp hm
      cases e <;> cases hdemand

/-- What is served is no arrival: a message that is handed over has arrived before. -/
theorem Unprompted.received_serve {l : Loop} (h : Unprompted l) (place : Nat)
    (text : Except Failure String) : (l.serve place text).received = l.received ∧
      (l.serve place text).streamEnd = l.streamEnd := by
  unfold serve
  split
  · next u here =>
    refine ⟨received_take_of_none l ?_ _, rfl⟩
    cases u with
    | receive m => exact absurd (List.mem_of_getElem? here) (h m)
    | call | resume | account => rfl
  · exact ⟨rfl, rfl⟩
  · unfold listen
    split
    · next m rest harr =>
      refine ⟨?_, rfl⟩
      show (l.taken ++ [Turn.receive m]).filterMap Turn.message? ++ rest = _
      rw [List.filterMap_append, received, harr, List.append_assoc]
      rfl
    · exact ⟨received_take_of_none l rfl _, rfl⟩
    · exact ⟨rfl, rfl⟩
  · exact ⟨rfl, rfl⟩

/-- **Messages are handed over in the order in which they arrive**; none is lost before the end of the
stream, and none comes after it. -/
theorem Unprompted.received_run {l : Loop} (h : Unprompted l) (xs : List Occurrence) :
    (l.run xs).received = l.received ++ if l.streamEnd.isSome then [] else arrivals xs := by
  induction xs generalizing l with
  | nil =>
    show l.received = _
    split <;> exact (List.append_nil _).symm
  | cons x xs ih =>
    show ((l.step x).run xs).received = _
    rw [ih (h.step x)]
    cases x with
    | call c =>
      rw [show l.step (.call c) = l.take (.call c) from rfl, streamEnd_take,
        show (l.take (.call c)).received = l.received from received_take_of_none l rfl l.demands]
      rfl
    | serve place text =>
      obtain ⟨hreceived, hend⟩ := h.received_serve place text
      rw [show l.step (.serve place text) = l.serve place text from rfl, hreceived, hend]
      rfl
    | arrive m =>
      by_cases hend : l.streamEnd.isSome
      · rw [show l.step (.arrive m) = l from if_pos hend, if_pos hend, if_pos hend]
      · rw [show l.step (.arrive m) = { l with arrived := l.arrived ++ [m] } from if_neg hend,
          if_neg hend, if_neg hend]
        show l.taken.filterMap Turn.message? ++ (l.arrived ++ [m]) ++ arrivals xs = _
        rw [received, arrivals, List.append_assoc, List.append_assoc, List.append_assoc]
        rfl
    | endStream reason error =>
      by_cases hend : l.streamEnd.isSome
      · rw [show l.step (.endStream reason error) = l from if_pos hend, if_pos hend, if_pos hend]
      · rw [show l.step (.endStream reason error) = { l with streamEnd := some (reason, error) } from
          if_neg hend, if_neg hend]
        rfl
    | giveUp t =>
      simp only [Loop.step]
      split
      · rw [streamEnd_take,
          show (l.take (.resume t .cancelled)).received = l.received from
            received_take_of_none l rfl l.demands]
        rfl
      · rfl

theorem Sound.received_run {p : Profile} {l : Loop} (h : Sound p l) (xs : List Occurrence) :
    (l.run xs).received = l.received ++ if l.streamEnd.isSome then [] else arrivals xs :=
  h.unprompted.received_run xs

end Loop

end EditorServices.Session
