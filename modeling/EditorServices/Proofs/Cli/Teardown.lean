import EditorServices.Proofs.Cli.SilentRuns
import EditorServices.Proofs.Session.Disposal

/-!
# `Proofs.Cli.Teardown` — a question to a server leaves nothing behind

Who asks one question makes a handshake, opens the document and asks, and any of these can fail: the channel
cannot be opened, the handshake is rejected, the file cannot be read, the inbound stream ends at any moment,
the answer makes no sense. Each leaves the session in another state. The disposal that follows does not
depend on it: it finds a session in which no call is under way, and what it waits for is the closing of the
channel and the end of a reader, if there is one.

So an errand is followed through every order of events: when it is over, the session is torn down, the calls
that were made are the first ones up to one that failed, and the outcome is that of the last of them. The
disposal has its own outcome, a success, which takes the place of nothing.

All this begins with a session. Between the choice of a server and the errand a session is made, and that
fails if the delay of the configuration is no number of seconds that can be slept. The headline
`nothing_left_behind` tells both cases apart.

## Contents
- **Outcomes.** `Loop.outcomes`, the calls that are over with what came of them.
- **One call.** `Known`, what is known of the call under way.
- **Errands.** `Carried`, how calls that are made in turn come to an outcome; `Reached` and `Upright`, kept by
  everything that happens.
- **The headline.** `nothing_left_behind`.
-/

namespace EditorServices

namespace Session

/-! ## Outcomes -/

/-- The call that a task is for. -/
def callOf? (s : Session) (t : Nat) : Option Call :=
  match s.jobOf t with
  | some (.call c) => some c
  | _ => none

theorem callOf?_of_jobOf {s : Session} {t : Nat} {c : Call} (h : s.jobOf t = some (.call c)) :
    s.callOf? t = some c := by
  rw [callOf?, h]

namespace Loop

variable {p : Profile} {l : Loop} {t : Nat} {c : Call}

/-- The calls that are over, in the order in which they ended, with what came of them. -/
def outcomes (l : Loop) : List (Call × Except Failure Answer) :=
  (endings l.effects).filterMap fun e => (l.session.callOf? e.1).map fun c => (c, e.2)

/-- A turn adds the calls that end in it. -/
theorem outcomes_take (hs : Coherent p l) (u : Turn) (demands : List Demand) (arrived : List Json) :
    ({ l with demands := demands, arrived := arrived }.take u).outcomes = l.outcomes ++
      (endings (l.session.step u).effects).filterMap fun e =>
        ((l.session.step u).session.callOf? e.1).map fun c => (c, e.2) := by
  show (endings (l.effects ++ (l.session.step u).effects)).filterMap _ = _
  rw [endings_append, List.filterMap_append]
  congr 1
  apply List.filterMap_congr
  rintro ⟨t, o⟩ hmem
  -- the task was there when its end was made known, and no task changes its job
  obtain ⟨job, hj⟩ := hs.completed t o (mem_endings.mp hmem)
  have hafter := hs.orderly.jobOf_step u hj
  show ((l.session.step u).session.callOf? t).map _ = (l.session.callOf? t).map _
  rw [callOf?, callOf?, hj, hafter]

/-- Making a call ends none. -/
theorem outcomes_call (hs : Coherent p l) (c : Call) : (l.step (.call c)).outcomes = l.outcomes := by
  have h := outcomes_take hs (.call c) l.demands l.arrived
  exact h.trans (List.append_nil _)

/-- An outcome that is seen was made known. -/
theorem completed_of_outcome? {o : Except Failure Answer} (h : l.outcome? t = some o) :
    .completed t o ∈ l.effects := by
  obtain ⟨e, he, hmatch⟩ := List.exists_of_findSome?_eq_some h
  cases e with
  | completed v r =>
    dsimp only at hmatch
    split at hmatch
    · next hv =>
      cases hmatch
      exact hv ▸ he
    · cases hmatch
  | _ => cases hmatch

/-! ## One call -/

/-- What is known of a call: nothing while it is under way, and its one outcome after that. -/
inductive Known (l : Loop) (t : Nat) (c : Call) (before : List (Call × Except Failure Answer)) : Prop where
  | going (underWay : UnderWay l.session t) (outcomes : l.outcomes = before)
      (unheard : ∀ o, .completed t o ∉ l.effects)
  | ended (o : Except Failure Answer) (finished : l.session.progressOf t = some .finished)
      (outcomes : l.outcomes = before ++ [(c, o)]) (heard : ∀ r, .completed t r ∈ l.effects ↔ r = o)

namespace Known

variable {before : List (Call × Except Failure Answer)}

/-- Nothing is known of a call that was just made. -/
theorem made (hs : Coherent p l) (c : Call) :
    Known (l.step (.call c)) l.session.tasks.length c l.outcomes := by
  refine .going ⟨⟨c, ?_⟩, ?_⟩ (outcomes_call hs c) fun o ho => ?_
  · exact (jobOf_addTask l.session _ _).trans (if_pos rfl)
  · show (l.session.addTask (.call c)).1.progressOf l.session.tasks.length ≠ _
    rw [progressOf_addTask, if_pos rfl]
    simp
  · rcases List.mem_append.mp ho with ho | ho
    · exact (hs.unknown (jobOf_length l.session)).2.2 o ho
    · cases List.mem_singleton.mp ho

/-- Only the session and the effects matter. -/
theorem congr (h : Known l t c before) {l' : Loop} (session : l'.session = l.session)
    (effects : l'.effects = l.effects) : Known l' t c before := by
  have houtcomes : l'.outcomes = l.outcomes := by
    unfold Loop.outcomes
    rw [session, effects]
  cases h with
  | going underWay outcomes unheard =>
    exact .going (session ▸ underWay) (houtcomes.trans outcomes) (effects ▸ unheard)
  | ended o finished outcomes heard =>
    exact .ended o (session ▸ finished) (houtcomes.trans outcomes) (effects ▸ heard)

theorem take (h : Known l t c before) (hs : Coherent p l) (job : l.session.jobOf t = some (.call c))
    (alone : ∀ v, UnderWay l.session v → v = t) (u : Turn) (demands : List Demand) (arrived : List Json) :
    Known ({ l with demands := demands, arrived := arrived }.take u) t c before := by
  have houtcomes := outcomes_take hs u demands arrived
  have heffects : ({ l with demands := demands, arrived := arrived }.take u).effects
      = l.effects ++ (l.session.step u).effects := rfl
  cases concluded_step hs.orderly u with
  | none silent goesOn =>
    rw [silent, List.filterMap_nil, List.append_nil] at houtcomes
    have hquiet (o : Except Failure Answer) : .completed t o ∉ (l.session.step u).effects := by
      rw [← mem_endings, silent]
      exact List.not_mem_nil
    cases h with
    | going underWay outcomes unheard =>
      refine .going (goesOn t underWay) (houtcomes.trans outcomes) fun o ho => ?_
      rw [heffects] at ho
      exact (List.mem_append.mp ho).elim (unheard o) (hquiet o)
    | ended o finished outcomes heard =>
      refine .ended o (hs.orderly.finished_step u finished) (houtcomes.trans outcomes) fun r => ?_
      rw [heffects, List.mem_append, heard]
      exact or_iff_left (hquiet r)
  | one v o turn underWay known concluded =>
    obtain rfl := alone v underWay
    cases h with
    | ended _ finished => exact absurd finished underWay.2
    | going _ outcomes unheard =>
      refine .ended o concluded ?_ fun r => ?_
      · rw [houtcomes, outcomes, known, List.filterMap_cons,
          callOf?_of_jobOf (hs.orderly.jobOf_step u job)]
        rfl
      · rw [heffects, List.mem_append, or_iff_right (unheard r), ← mem_endings, known]
        simp

/-- What is known of the only call under way grows as it goes on. -/
theorem step (h : Known l t c before) (hs : Coherent p l) (job : l.session.jobOf t = some (.call c))
    (alone : ∀ v, UnderWay l.session v → v = t) (x : Occurrence) : Known (l.step x) t c before := by
  generalize hl : l.step x = l'
  have hx := stepped_step l x
  rw [hl] at hx
  cases hx with
  | outside arrived streamEnd => exact h.congr rfl rfl
  | operation place v o text here => exact h.congr rfl rfl
  | turn u demands arrived => exact h.take hs job alone u demands arrived

end Known

end Loop

end Session

namespace Cli

open Session (Call Answer Query Profile Loop Occurrence Turn UnderWay)
open Session.Loop (Coherent Known Disposes TornDown)

variable {p : Profile} {calls : List Call}

/-! ## Errands -/

/-- Calls are made in turn up to one that fails, and come to an outcome. -/
structure Carried (calls : List Call) (made : List (Call × Except Failure Answer))
    (outcome : Except Failure Answer) : Prop where
  /-- They are made in their order, from the first on. -/
  inOrder : made.map Prod.fst <+: calls
  /-- All but the last one that is made succeed. -/
  passed : ∀ m ∈ made.dropLast, ∃ a, m.2 = .ok a
  /-- The outcome is that of the last one that is made. -/
  last : made.getLast?.map Prod.snd = some outcome
  /-- That one fails, or it is the last one of all. -/
  complete : (∃ f, outcome = .error f) ∨ made.map Prod.fst = calls

/-- One more call after some that succeeded. -/
theorem Carried.of {made : List (Call × Except Failure Answer)} {c : Call} {rest : List Call}
    (split : calls = made.map Prod.fst ++ c :: rest) (passed : ∀ m ∈ made, ∃ a, m.2 = .ok a)
    {outcome : Except Failure Answer} (complete : (∃ f, outcome = .error f) ∨ rest = []) :
    Carried calls (made ++ [(c, outcome)]) outcome := by
  have hmap : (made ++ [(c, outcome)]).map Prod.fst = made.map Prod.fst ++ [c] := by simp
  refine ⟨⟨rest, ?_⟩, ?_, by simp, complete.imp_right ?_⟩
  · rw [hmap, split, List.append_assoc]
    rfl
  · rw [List.dropLast_concat]
    exact passed
  · rintro rfl
    rw [hmap, split]

/-- How far a session has come with an errand. -/
inductive Reached (calls : List Call) (l : Loop) (t : Nat) : Errand → Prop where
  | making {made : List (Call × Except Failure Answer)} {c : Call} {rest : List Call}
      (split : calls = made.map Prod.fst ++ c :: rest) (passed : ∀ m ∈ made, ∃ a, m.2 = .ok a)
      (job : l.session.jobOf t = some (.call c)) (undisposed : l.session.phase ≠ .disposed)
      (known : Known l t c made) : Reached calls l t (.making c rest)
  | disposing {made : List (Call × Except Failure Answer)} {outcome : Except Failure Answer}
      (carried : Carried calls made outcome) (disposes : Disposes l t) (known : Known l t .dispose made) :
      Reached calls l t (.disposing outcome)
  | ended {made : List (Call × Except Failure Answer)} {outcome : Except Failure Answer}
      (carried : Carried calls made outcome) (disposes : Disposes l t) (known : Known l t .dispose made)
      (finished : l.session.progressOf t = some .finished) : Reached calls l t (.ended outcome)

/-- What can be relied on in a conversation. -/
structure Upright (p : Profile) (calls : List Call) (x : Conversation) : Prop where
  coherent : Coherent p x.loop
  alone : ∀ v, UnderWay x.loop.session v → v = x.task
  reached : Reached calls x.loop x.task x.errand

/-- A session is not disposed of while its only call is another one. -/
theorem undisposed_step {s : Session} {t : Nat} {c : Call} (ho : Session.Orderly s)
    (job : s.jobOf t = some (.call c)) (other : c ≠ .dispose) (alone : ∀ v, UnderWay s v → v = t)
    (h : s.phase ≠ .disposed) (u : Turn) : (s.step u).session.phase ≠ .disposed := by
  cases Session.course_step ho u with
  | steady same => rw [same.phase]; exact h
  | ended _ _ _ _ _ _ phase | wrappedUp _ _ _ _ phase | spawned phase | accounted phase => rw [phase]; exact h
  | shaken v _ _ _ phase =>
    rcases phase with phase | ⟨-, -, phase⟩ | ⟨-, -, phase⟩
    · rw [phase]
      exact h
    · simp [phase]
    · simp [phase]
  | disposed v _ jobv created =>
    obtain rfl := alone v ⟨⟨_, jobv⟩, by rw [created]; simp⟩
    cases job.symm.trans jobv
    exact absurd rfl other

namespace Upright

variable {x : Conversation} (h : Upright p calls x)
include h

/-- Whatever happens in the loop keeps it, as long as nobody else makes a call or gives up. -/
theorem occurs (others : ∀ c ∈ calls, c ≠ .dispose) {y : Occurrence} (hcall : ∀ c, y ≠ .call c)
    (hkeeps : ∀ v, y ≠ .giveUp v) : Upright p calls { x with loop := x.loop.step y } := by
  have ho := h.coherent.orderly
  refine ⟨h.coherent.step y, fun v hv => ?_, ?_⟩
  · rcases Session.Loop.session_step x.loop y with hsame | ⟨u, prompted, hturn⟩
    · exact h.alone v (hsame ▸ hv)
    · rw [hturn] at hv
      refine h.alone v (hv.before ho fun c hu => hcall c ?_)
      subst hu
      exact h.coherent.eq_call prompted
  · show Reached calls (x.loop.step y) x.task x.errand
    have hreached := h.reached
    generalize x.errand = e at hreached ⊢
    cases hreached with
    | making split passed job undisposed known =>
      refine .making split passed ?_ ?_ (known.step h.coherent job h.alone y)
      · rcases Session.Loop.session_step x.loop y with hsame | ⟨u, -, hturn⟩
        · rw [hsame, job]
        · rw [hturn]
          exact ho.jobOf_step u job
      · rcases Session.Loop.session_step x.loop y with hsame | ⟨u, -, hturn⟩
        · rw [hsame]
          exact undisposed
        · rw [hturn]
          refine undisposed_step ho job (others _ ?_) h.alone undisposed u
          rw [split]
          exact List.mem_append_right _ List.mem_cons_self
    | disposing carried disposes known =>
      exact .disposing carried (disposes.step h.coherent hcall hkeeps)
        (known.step h.coherent disposes.job h.alone y)
    | ended carried disposes known finished =>
      refine .ended carried (disposes.step h.coherent hcall hkeeps)
        (known.step h.coherent disposes.job h.alone y) ?_
      rcases Session.Loop.session_step x.loop y with hsame | ⟨u, -, hturn⟩
      · rw [hsame, finished]
      · rw [hturn]
        exact ho.finished_step u finished

/-- So does an operation that fails, unless it is to close the channel. -/
theorem fails (place : Nat) (f : Failure) : Upright p calls { x with loop := failAt x.loop place f } := by
  obtain ⟨l, errand, t⟩ := x
  show Upright p calls ⟨failAt l place f, errand, t⟩
  unfold failAt
  split
  · exact h
  · next v o notClosing here =>
    refine ⟨h.coherent.set here l.channel _, h.alone, ?_⟩
    cases h.reached with
    | making split passed job undisposed known =>
      exact .making split passed job undisposed (known.congr rfl rfl)
    | disposing carried disposes known =>
      refine .disposing carried (disposes.set here id fun hclose => ?_) (known.congr rfl rfl)
      exact absurd hclose notClosing
    | ended carried disposes known finished =>
      refine .ended carried (disposes.set here id fun hclose => ?_) (known.congr rfl rfl) finished
      exact absurd hclose notClosing
  · exact h

/-- The next call is made when the call under way is over. -/
theorem make (finished : x.loop.session.progressOf x.task = some .finished) {e : Errand} {c : Call}
    (reached : (∀ v, ¬ UnderWay x.loop.session v) →
      Reached calls (x.loop.step (.call c)) x.loop.session.tasks.length e) :
    Upright p calls (.make x.loop e c) := by
  have hnone (v : Nat) : ¬ UnderWay x.loop.session v := by
    intro hv
    obtain rfl := h.alone v hv
    exact hv.2 finished
  exact ⟨h.coherent.step (.call c), fun v hv => hv.before_call.resolve_right (hnone v), reached hnone⟩

/-- The disposal follows on the last call that is made. -/
theorem dispose (finished : x.loop.session.progressOf x.task = some .finished)
    (undisposed : x.loop.session.phase ≠ .disposed) {outcome : Except Failure Answer}
    (carried : Carried calls x.loop.outcomes outcome) :
    Upright p calls (.make x.loop (.disposing outcome) .dispose) :=
  h.make finished fun hnone =>
    .disposing carried (Disposes.made h.coherent undisposed hnone) (Known.made h.coherent .dispose)

/-- Going on keeps it. -/
theorem goOn : Upright p calls x.goOn := by
  unfold Conversation.goOn
  cases hout : x.loop.outcome? x.task with
  | none => exact h
  | some r =>
    have hcompleted := Session.Loop.completed_of_outcome? hout
    dsimp only
    obtain ⟨l, errand, t⟩ := x
    cases h.reached with
    | @making made c rest split passed job undisposed known =>
      cases known with
      | going _ _ unheard => exact absurd hcompleted (unheard r)
      | ended o finished outcomes heard =>
        obtain rfl := (heard r).mp hcompleted
        cases r with
        | error f =>
          refine h.dispose finished undisposed ?_
          rw [outcomes]
          exact .of split passed (.inl ⟨f, rfl⟩)
        | ok a =>
          cases rest with
          | nil =>
            refine h.dispose finished undisposed ?_
            rw [outcomes]
            exact .of split passed (.inr rfl)
          | cons d rest =>
            refine h.make finished fun _ => .making ?_ ?_ ?_ undisposed (Known.made h.coherent d)
            · rw [outcomes, split]
              simp
            · intro m hm
              rw [outcomes] at hm
              rcases List.mem_append.mp hm with hm | hm
              · exact passed m hm
              · exact ⟨a, by rw [List.mem_singleton.mp hm]⟩
            · exact (Session.jobOf_addTask l.session _ _).trans (if_pos rfl)
    | disposing carried disposes known =>
      cases known with
      | going _ _ unheard => exact absurd hcompleted (unheard r)
      | ended o finished outcomes heard =>
        -- the disposal has succeeded, so that what the calls gave stays
        obtain rfl := disposes.outcome r hcompleted
        exact ⟨h.coherent, h.alone, .ended carried disposes (.ended o finished outcomes heard) finished⟩
    | ended carried disposes known finished =>
      exact ⟨h.coherent, h.alone, .ended carried disposes known finished⟩

/-- **Everything that happens keeps it.** -/
theorem step (others : ∀ c ∈ calls, c ≠ .dispose) (y : Happening) : Upright p calls (x.step y) := by
  cases y with
  | serve | arrive | endStream => exact h.occurs others (by simp) (by simp)
  | fail place f => exact h.fails place f
  | goOn => exact h.goOn

theorem run (others : ∀ c ∈ calls, c ≠ .dispose) (ys : List Happening) : Upright p calls (x.run ys) := by
  induction ys generalizing x with
  | nil => exact h
  | cons y ys ih => exact ih (h.step others y)

end Upright

/-- A conversation that begins. -/
theorem upright_new (p : Profile) (peer : Channel.Peer) (surroundings : Channel.Surroundings) (q : Query)
    (line character : Nat) :
    Upright p (Errand.calls q line character) (.new p peer surroundings q line character) := by
  have hs := Session.Loop.coherent_new p peer surroundings
  refine ⟨hs.step (.call .handshake), fun v hv => ?_, .making rfl ?_ ?_ ?_ (Known.made hs .handshake)⟩
  · refine hv.before_call.resolve_right ?_
    rintro ⟨⟨c, hj⟩, -⟩
    cases hj
  · intro m hm
    cases hm
  · exact (Session.jobOf_addTask _ _ _).trans (if_pos rfl)
  · show Session.Phase.uninitialized ≠ .disposed
    simp

/-- **A conversation leaves nothing behind.** -/
theorem tornDown_of_ended (p : Profile) (peer : Channel.Peer) (surroundings : Channel.Surroundings)
    (q : Query) (line character : Nat) (ys : List Happening) {outcome : Except Failure Answer}
    (concluded : ((Conversation.new p peer surroundings q line character).run ys).errand = .ended outcome) :
    let l := ((Conversation.new p peer surroundings q line character).run ys).loop
    TornDown l ∧ ∃ made, Carried (Errand.calls q line character) made outcome ∧
      l.outcomes = made ++ [(.dispose, .ok .done)] := by
  intro l
  have h := (upright_new p peer surroundings q line character).run (by simp [Errand.calls]) ys
  have hreached := h.reached
  rw [concluded] at hreached
  cases hreached with
  | @ended made _ carried disposes known finished =>
    refine ⟨disposes.tornDown h.coherent finished, made, carried, ?_⟩
    cases known with
    | going underWay => exact absurd finished underWay.2
    | ended o _ outcomes heard =>
      rw [outcomes, disposes.outcome o ((heard o).mpr rfl)]

/-! ## The headline -/

/-- A session can be made if its delay is a number of seconds. -/
theorem exists_profile {config : LspConfig} {delay : Binary64} (h : config.settleDelay = .ok delay) (host : Host)
    (cwd file : String) : ∃ p, Profile.ofConfig host cwd file config = .ok p := by
  unfold Profile.ofConfig
  rw [h]
  exact ⟨_, rfl⟩

theorem profile_of_error {config : LspConfig} {f : Failure} (h : config.settleDelay = .error f) (host : Host)
    (cwd file : String) : Profile.ofConfig host cwd file config = .error f := by
  unfold Profile.ofConfig
  rw [h]
  rfl

/-- A delay that cannot be slept is too long for a number of seconds. -/
theorem settleDelay_error {config : LspConfig} {f : Failure} (h : config.settleDelay = .error f) :
    f = .overflow := by
  unfold LspConfig.settleDelay at h
  dsimp only at h
  split at h
  · exact (Except.error.inj h).symm
  · cases h

/-- What comes of a question when its server was chosen depends on the profile of its session. -/
theorem answerWith_of_chosen {w : Config.World} {host : Host} {o : QueryOptions} {r r' : Record}
    {config : LspConfig} {endpoint : Transport.Endpoint}
    (configured : Run.reporting (serverConfig w o) r = (r', .ok (.ok config)))
    (chosen : Transport.Endpoint.ofConfig host config (some (directoryOf o.file)) = .ok endpoint)
    (talk : Profile → Run (Except Failure Answer)) :
    answerWith w host o talk r = (match Profile.ofConfig host w.cwd o.file.path config with
      | .error f => pure (.error f)
      | .ok profile => talk profile : Run (Except Failure Answer)) { r' with endpoint := some endpoint } := by
  unfold answerWith
  rw [Run.bind_of_ok configured]
  dsimp only
  rw [chosen]
  rfl

/-- **A question leaves nothing behind, once it has a session.** Let a server be chosen for a question by the
configuration that holds for it.

* If the delay of the configuration is a number of seconds, a session is made, and a conversation is held with
  it. When that is over, in whatever order things happened and whatever failed in it, its channel is closed,
  the session is disposed of, nothing is pending, no document is listed, and the bus is closed. The handshake,
  the opening of the document and the question were made in turn up to the first one that failed, the outcome
  is that of the last one made, and after them there was one disposal, which succeeded.
* If the delay is too long for that, the question ends with this failure. There is no session that could be
  disposed of, and nothing is done with the server that was chosen. -/
theorem nothing_left_behind (w : Config.World) (host : Host) (o : QueryOptions) (q : Query) {r r' : Record}
    {config : LspConfig} {endpoint : Transport.Endpoint}
    (configured : Run.reporting (serverConfig w o) r = (r', .ok (.ok config)))
    (chosen : Transport.Endpoint.ofConfig host config (some (directoryOf o.file)) = .ok endpoint) :
    (∀ delay, config.settleDelay = .ok delay → ∃ p, Profile.ofConfig host w.cwd o.file.path config = .ok p ∧
      (∀ talk, answerWith w host o talk r = talk p { r' with endpoint := some endpoint }) ∧
      ∀ surroundings ys outcome,
        let x := (Conversation.new p (.ofEndpoint endpoint) surroundings q o.line o.character).run ys
        x.errand = .ended outcome → TornDown x.loop ∧
          ∃ made, Carried (Errand.calls q o.line o.character) made outcome ∧
            x.loop.outcomes = made ++ [(.dispose, .ok .done)]) ∧
    ∀ f, config.settleDelay = .error f → f = .overflow ∧
      ∀ talk, answerWith w host o talk r = ({ r' with endpoint := some endpoint }, .ok (.error f)) := by
  refine ⟨fun delay hdelay => ?_, fun f hf => ⟨settleDelay_error hf, fun talk => ?_⟩⟩
  · obtain ⟨p, hp⟩ := exists_profile hdelay host w.cwd o.file.path
    refine ⟨p, hp, fun talk => ?_, fun surroundings ys outcome concluded =>
      tornDown_of_ended p _ surroundings q _ _ ys concluded⟩
    rw [answerWith_of_chosen configured chosen, hp]
  · rw [answerWith_of_chosen configured chosen, profile_of_error hf]
    rfl

/-- A server that cannot be reached, and a file that is not there when the session is ready: the first ends
the handshake, the second the opening of the document, while the reader still listens. Both questions leave
nothing behind, and their outcomes are these failures. -/
theorem unreachable_and_unreadable_leave_nothing :
    let p : Profile := ⟨"/a.txt", .str "plaintext", "/", .float (.ofRatio false 300 1000), false, false, 1⟩
    let outside (error : Option String) : Channel.Surroundings :=
      ⟨⟨"linux", some 1⟩, [], error, none, false, false, false, 0⟩
    let now (place : Nat) : Happening := .serve place (.ok "")
    let server : Channel.Peer := .socket "localhost" 9 Transport.Endpoint.defaultTimeout
    let unreachable := (Conversation.new p server (outside (some "refused")) .hover 0 0).run
      [now 0, now 0, now 0, .goOn, now 0, now 0, now 0, .goOn]
    let unreadable := (Conversation.new p server (outside none) .hover 0 0).run
      [now 0, now 0, now 0, now 0, now 0, now 0, .arrive (.obj [("id", .int 1)]), now 0, now 1, now 1, now 1,
        .goOn, now 1, .serve 1 (.error .missingFile), now 1, .goOn, now 1, now 1, now 1, now 1, now 1, .goOn]
    let refused : Failure := .channelClosed "cannot connect to localhost:9" (some "OSError")
    (unreachable.errand = .ended (.error refused) ∧ TornDown unreachable.loop ∧
      ∃ made, Carried (Errand.calls .hover 0 0) made (.error refused) ∧
        unreachable.loop.outcomes = made ++ [(.dispose, .ok .done)]) ∧
    (unreadable.errand = .ended (.error .missingFile) ∧ TornDown unreadable.loop ∧
      ∃ made, Carried (Errand.calls .hover 0 0) made (.error .missingFile) ∧
        unreadable.loop.outcomes = made ++ [(.dispose, .ok .done)]) := by
  intro p outside now server unreachable unreadable refused
  let w : Config.World := ⟨⟨[], []⟩, [("GLINT_CONFIG_DIR", "/c")], "/"⟩
  let o : QueryOptions := ⟨⟨"/a.txt", "/a.txt", []⟩, 0, 0, none, some "localhost:9", none⟩
  let config : LspConfig := ⟨none, some "localhost:9", none, 300, false, false, []⟩
  let r : Record := .empty (.initial (some (.whole 1700000000)) (.zero false) [])
  have silent : r.log.Silent := Log.State.silent_initial ⟨1700000000, by decide +kernel⟩ _ _
  have hconfig : (serverConfig w o).result = .ok config := by decide +kernel
  have configured : Run.reporting (serverConfig w o) r = (r, .ok (.ok config)) := by
    rw [Run.reporting_of_silent silent (writable_serverConfig w o), hconfig]
  have chosen : Transport.Endpoint.ofConfig ⟨"linux", some 1⟩ config (some (directoryOf o.file)) =
      .ok (.socket "localhost" 9 Transport.Endpoint.defaultTimeout) := by decide +kernel
  obtain ⟨hready, -⟩ := nothing_left_behind w ⟨"linux", some 1⟩ o .hover configured chosen
  obtain ⟨p', hp', -, hends⟩ := hready (.ofRatio false 300 1000) (by decide +kernel)
  obtain rfl : p = p' := Except.ok.inj ((show _ = Except.ok p by decide +kernel).symm.trans hp')
  have first : unreachable.errand = .ended (.error refused) := by decide +kernel
  have second : unreadable.errand = .ended (.error .missingFile) := by decide +kernel
  exact ⟨⟨first, hends _ _ _ first⟩, second, hends _ _ _ second⟩

/-- A project with a server whose documents get a delay of a one and four hundred zeros in milliseconds. -/
def patientProject : Config.World where
  tree := ⟨[("/p/glint.json", utf8Encode ("\x7b\"lsp\": \x7b\"command\": [\"x\"], \"settleDelayMs\": 1".toList ++
    List.replicate 400 '0' ++ "\x7d\x7d".toList))], []⟩
  env := [("GLINT_CONFIG_DIR", "/c")]
  cwd := "/"

/-- The delay is accepted and the server is chosen, and then the question fails. No session is seen of which
it could have disposed. -/
theorem long_delay_leaves_server :
    let o : QueryOptions := ⟨⟨"/p/a.txt", "/p/a.txt", []⟩, 0, 0, none, none, none⟩
    let asked := answerOf patientProject ⟨"linux", some 1⟩ (.new [] none "") .hover o
      (.empty (.initial (some (.whole 1700000000)) (.zero false) []))
    asked.1.endpoint = some (.stdio ["x"] (some "/p") none) ∧ asked.2 = .ok (.error .overflow) ∧
      asked.1.notes = [] := by
  intro o asked
  -- the configuration is known by what is asked of it, so that its delay is written out nowhere
  obtain ⟨config, hconfig, hdelay, chosen⟩ : ∃ config, (serverConfig patientProject o).result = .ok config ∧
      config.settleDelay = .error .overflow ∧
      Transport.Endpoint.ofConfig ⟨"linux", some 1⟩ config (some (directoryOf o.file)) =
        .ok (.stdio ["x"] (some "/p") none) :=
    ⟨⟨some ["x"], none, none, 10 ^ 400, false, false, []⟩, by decide +kernel, by decide +kernel, by decide +kernel⟩
  let r : Record := .empty (.initial (some (.whole 1700000000)) (.zero false) [])
  have silent : r.log.Silent := Log.State.silent_initial ⟨1700000000, by decide +kernel⟩ _ _
  have configured : Run.reporting (serverConfig patientProject o) r = (r, .ok (.ok config)) := by
    rw [Run.reporting_of_silent silent (writable_serverConfig patientProject o), hconfig]
  have hasked : asked = ({ r with endpoint := some (.stdio ["x"] (some "/p") none) }, .ok (.error .overflow)) := by
    refine (answerWith_of_chosen configured chosen _).trans ?_
    rw [profile_of_error hdelay]
    rfl
  rw [hasked]
  exact ⟨rfl, rfl, rfl⟩

end Cli

end EditorServices
