import EditorServices.Proofs.Bus.Delivery

/-!
# `Proofs.Bus.Interleaving` — publications that overlap

Callbacks may wait for something else before they go on, and meanwhile others use the bus, and also publish. So
one publication can begin while another one, on which it does not wait, is still under way. Here programs on a
bus are carried out by tasks in single steps, in any order of the tasks. A publication under way is a `Frame`
of the task that waits for it.

A task may be interrupted before each of its calls to the bus. This covers all callbacks, whether and wherever
they suspend. A task that is not interrupted does what `run` does.

## Contents
- **Tasks.** `Frame`, `Task`, and the single steps `Task.step`.
- **Uninterrupted tasks.** `steps_run`: the steps of a task lead to what `run` makes of its program.
- **Interleavings.** `Reaches`: what is reached by any tasks in any order.
- **What a step does.** `Act` and `step_acts`; the bus is at all times what its history says, `Reaches.kept`.
-/

namespace EditorServices.Bus

/-! ## Tasks -/

/-- A publication under way: who is still to be called, and how the one that waits for it goes on. -/
structure Frame (σ : Type) where
  number : Nat
  type : String
  rest : List Subscription
  next : Except Failure Unit → Program σ

/-- A task carries out a program inside the publications that wait for it, the innermost first. -/
structure Task (σ : Type) where
  program : Program σ
  frames : List (Frame σ)

namespace Floor

variable {σ : Type}

/-- A publication goes on to its next recipient; without one it is delivered. -/
def advance (behave : Behaviour σ) (f : Floor σ) (frame : Frame σ) (frames : List (Frame σ)) :
    Floor σ × Task σ :=
  match frame.rest with
  | [] => (f.happened [.delivered frame.number], ⟨frame.next (.ok ()), frames⟩)
  | s :: rest =>
    let frame := { frame with rest := rest }
    match f.payloads[frame.number]? with
    | none => (f, ⟨.done, frame :: frames⟩)
    | some p => ((f.happened [.called frame.number s.callee p]).release s,
      ⟨behave s.callee.listenerId frame.number, frame :: frames⟩)

/-- A task begins a publication, for which it then waits. -/
def begin (behave : Behaviour σ) (depth : Nat) (f : Floor σ) (kind : EventKind) (properties : Properties)
    (next : Except Failure Unit → Program σ) (frames : List (Frame σ)) : Floor σ × Task σ :=
  if frames.length = depth then
    let (f, result) := publishTo behave 0 f kind properties
    (f, ⟨next result, frames⟩)
  else if f.bus.closed then (f.happened [.publishing kind properties .dropped], ⟨next (.ok ()), frames⟩)
  else match kind.accept properties with
    | .error e => (f.happened [.publishing kind properties (.refused e)], ⟨next (.error e), frames⟩)
    | .ok ms =>
      let p : Payload := ⟨kind.type, ms⟩
      let number := f.payloads.length
      ({ f with payloads := f.payloads ++ [p] }.happened [.publishing kind properties (.begun number p)],
        ⟨.done, ⟨number, kind.type, f.bus.recipients kind.type, next⟩ :: frames⟩)

end Floor

namespace Task

open Floor

variable {σ : Type}

/-- One step of a task, unless it has come to its end. What a callback raises is reported, and its publication
goes on. -/
def step (behave : Behaviour σ) (depth : Nat) (f : Floor σ) : Task σ → Option (Floor σ × Task σ)
  | ⟨.done, []⟩ => none
  | ⟨.fail _, []⟩ => none
  | ⟨.done, frame :: frames⟩ => some (f.advance behave frame frames)
  | ⟨.fail text, frame :: frames⟩ => some ((f.report frame.type text).advance behave frame frames)
  | ⟨.consult next, frames⟩ => some (f, ⟨next f.shared, frames⟩)
  | ⟨.keep change next, frames⟩ => some ({ f with shared := change f.shared }, ⟨next, frames⟩)
  | ⟨.subscribe mode type listener next, frames⟩ =>
    let (f, ticket) := f.subscribe mode type listener
    some (f, ⟨next ticket, frames⟩)
  | ⟨.unsubscribe t next, frames⟩ => some (f.unsubscribe t, ⟨next, frames⟩)
  | ⟨.close next, frames⟩ => some (f.close, ⟨next, frames⟩)
  | ⟨.survey next, frames⟩ => some (f, ⟨next f.bus.closed f.bus.count, frames⟩)
  | ⟨.look number next, frames⟩ => some (f, ⟨next f.payloads[number]?, frames⟩)
  | ⟨.amend number p next, frames⟩ => some (f.amend number p, ⟨next, frames⟩)
  | ⟨.publish kind properties next, frames⟩ => some (f.begin behave depth kind properties next frames)

end Task

/-! ## Uninterrupted tasks -/

/-- How a program has ended: with a failure or without. -/
def Program.ended {σ : Type} : Option String → Program σ
  | none => .done
  | some text => .fail text

namespace Floor

open History

variable {σ : Type} {behave : Behaviour σ} {depth : Nat}

/-- Some steps of a single task. -/
inductive Steps (behave : Behaviour σ) (depth : Nat) : Floor σ × Task σ → Floor σ × Task σ → Prop where
  | refl {a : Floor σ × Task σ} : Steps behave depth a a
  | head {a b c : Floor σ × Task σ} (first : a.2.step behave depth a.1 = some b)
      (rest : Steps behave depth b c) : Steps behave depth a c

theorem Steps.trans {a b c : Floor σ × Task σ} (h : Steps behave depth a b) (h' : Steps behave depth b c) :
    Steps behave depth a c := by
  induction h with
  | refl => exact h'
  | head first _ ih => exact .head first (ih h')

/-- What `run` makes of a program, as the end of a task. -/
def endOf (publish : Publisher σ) (program : Program σ) (f : Floor σ) (frames : List (Frame σ)) :
    Floor σ × Task σ :=
  ((run publish program f).1, ⟨.ended (run publish program f).2, frames⟩)

/-- Reports the failure of a callback, if it failed. -/
def settle (f : Floor σ) (type : String) : Option String → Floor σ
  | none => f
  | some text => f.report type text

/-- A callback that has ended lets its publication go on. -/
theorem step_ended (f : Floor σ) (result : Option String) (frame : Frame σ) (frames : List (Frame σ)) :
    Task.step behave depth f ⟨.ended result, frame :: frames⟩ =
      some ((f.settle frame.type result).advance behave frame frames) := by
  cases result <;> rfl

/-- A call to a recipient, as the floor on which its callback has ended. -/
theorem call_eq_settle (publish : Publisher σ) (type : String) (number : Nat) (f : Floor σ) (s : Subscription) :
    call publish behave type number f s = match f.payloads[number]? with
      | none => f
      | some p =>
        let ran := run publish (behave s.callee.listenerId number)
          ((f.happened [.called number s.callee p]).release s)
        ran.1.settle type ran.2 := by
  unfold call
  cases f.payloads[number]? with
  | none => rfl
  | some p =>
    dsimp only
    split <;> next heq => rw [heq]; rfl

/-- **A program** is carried out step by step if its publications are. -/
theorem steps_program {publish : Publisher σ} {frames : List (Frame σ)}
    (hpublish : ∀ f kind properties next, Steps behave depth (f, ⟨.publish kind properties next, frames⟩)
      ((publish f kind properties).1, ⟨next (publish f kind properties).2, frames⟩))
    (program : Program σ) (f : Floor σ) :
    Steps behave depth (f, ⟨program, frames⟩) (endOf publish program f frames) := by
  induction program generalizing f with
  | done | fail text => exact .refl
  | consult next ih => exact .head rfl (ih f.shared f)
  | keep change next ih => exact .head rfl (ih _)
  | subscribe mode type listener next ih => exact .head rfl (ih _ _)
  | unsubscribe t next ih => exact .head rfl (ih _)
  | close next ih => exact .head rfl (ih _)
  | survey next ih => exact .head rfl (ih _ _ f)
  | look number next ih => exact .head rfl (ih _ f)
  | amend number p next ih => exact .head rfl (ih _)
  | publish kind properties next ih => exact (hpublish f kind properties next).trans (ih _ _)

/-- **A publication under way** calls the rest of its recipients, one after the other, and is delivered. -/
theorem steps_tell {publish : Publisher σ} {frames : List (Frame σ)} {number : Nat} {type : String}
    {next : Except Failure Unit → Program σ}
    (hrun : ∀ frame program f,
      Steps behave depth (f, ⟨program, frame :: frames⟩) (endOf publish program f (frame :: frames)))
    (rest : List Subscription) (f : Floor σ) (result : Option String) :
    Steps behave depth (f, ⟨.ended result, ⟨number, type, rest, next⟩ :: frames⟩)
      ((rest.foldl (call publish behave type number) (f.settle type result)).happened [.delivered number],
        ⟨next (.ok ()), frames⟩) := by
  -- by induction on the recipients that are left: the first step settles what the last of them ended with
  induction rest generalizing f result with
  | nil => exact .head (step_ended f result _ frames) .refl
  | cons s rest ih =>
    refine .head (step_ended f result _ frames) ?_
    rw [List.foldl_cons, call_eq_settle]
    show Steps behave depth (match (f.settle type result).payloads[number]? with
      | none => _
      | some p => _) _
    cases (f.settle type result).payloads[number]? with
    | none => exact ih _ none
    | some p => exact (hrun ⟨number, type, rest, next⟩ _ _).trans (ih _ _)

/-- **A publication** is carried out step by step, as deep inside others as `left` says. -/
theorem steps_publish (left : Nat) {frames : List (Frame σ)} (hleft : left + frames.length = depth)
    (f : Floor σ) (kind : EventKind) (properties : Properties) (next : Except Failure Unit → Program σ) :
    Steps behave depth (f, ⟨.publish kind properties next, frames⟩)
      ((publishTo behave left f kind properties).1, ⟨next (publishTo behave left f kind properties).2, frames⟩) := by
  -- by induction on the depth that is left, which each publication inside another lowers by one
  induction left generalizing frames f kind properties next with
  | zero =>
    have hdeep : f.begin behave depth kind properties next frames = _ := if_pos (by omega)
    exact .head (congrArg some hdeep) .refl
  | succ left ih =>
    have hstep : Task.step behave depth f ⟨.publish kind properties next, frames⟩ =
        some (f.begin behave depth kind properties next frames) := rfl
    refine .head hstep ?_
    unfold begin publishTo publishWith
    rw [if_neg (by omega)]
    by_cases hclosed : f.bus.closed = true
    · rw [if_pos hclosed, if_pos hclosed]
      exact .refl
    · rw [if_neg hclosed, if_neg hclosed]
      cases kind.accept properties with
      | error e => exact .refl
      | ok ms =>
        have hrun (frame : Frame σ) (program : Program σ) (f : Floor σ) :
            Steps behave depth (f, ⟨program, frame :: frames⟩)
              (endOf (publishTo behave left) program f (frame :: frames)) := by
          refine steps_program (fun f kind properties next => ih ?_ f kind properties next) program f
          rw [List.length_cons]
          omega
        exact steps_tell hrun (f.bus.recipients kind.type) _ none

/-- **A task that nobody interrupts does what `run` does**, with publications nested as deep as is allowed
beside those that wait for it already. -/
theorem steps_run (program : Program σ) (f : Floor σ) (frames : List (Frame σ)) (left : Nat)
    (hleft : left + frames.length = depth) :
    Steps behave depth (f, ⟨program, frames⟩) (endOf (publishTo behave left) program f frames) :=
  steps_program (steps_publish left hleft) program f

/-! ## Interleavings -/

/-- What is reached on a bus by any tasks, which begin at any time and take their steps in any order. -/
inductive Reaches (behave : Behaviour σ) (depth : Nat) (shared : σ) : Floor σ → List (Task σ) → Prop where
  | new : Reaches behave depth shared (new shared) []
  | start {f : Floor σ} {tasks : List (Task σ)} (program : Program σ)
      (reached : Reaches behave depth shared f tasks) :
      Reaches behave depth shared f (tasks ++ [⟨program, []⟩])
  | step {f f' : Floor σ} {before after : List (Task σ)} {t t' : Task σ}
      (reached : Reaches behave depth shared f (before ++ t :: after))
      (step : t.step behave depth f = some (f', t')) : Reaches behave depth shared f' (before ++ t' :: after)

/-- The steps of one task are steps among others. -/
theorem Reaches.steps {shared : σ} {before after : List (Task σ)} {a b : Floor σ × Task σ}
    (reached : Reaches behave depth shared a.1 (before ++ a.2 :: after)) (h : Steps behave depth a b) :
    Reaches behave depth shared b.1 (before ++ b.2 :: after) := by
  induction h with
  | refl => exact reached
  | head first _ ih => exact ih (.step reached first)

/-- **What `run` does is reached** when other tasks do not interrupt it. -/
theorem Reaches.run {shared : σ} {f : Floor σ} {tasks : List (Task σ)}
    (reached : Reaches behave depth shared f tasks) (program : Program σ) :
    Reaches behave depth shared (Floor.run (publishTo behave depth) program f).1
      (tasks ++ [⟨.ended (Floor.run (publishTo behave depth) program f).2, []⟩]) :=
  (Reaches.start program reached).steps (steps_run program f [] depth rfl)

/-! ## What a step does -/

/-- Two floors with the same bus, the same payloads and the same history. -/
structure Alike (f f' : Floor σ) : Prop where
  bus : f'.bus = f.bus
  payloads : f'.payloads = f.payloads
  history : f'.history = f.history

theorem Alike.refl (f : Floor σ) : f.Alike f := ⟨rfl, rfl, rfl⟩

/-- What a step of a task does to the floor, and to the publications that wait for it. -/
inductive Act (f : Floor σ) : Floor σ → List (Frame σ) → List (Frame σ) → Prop where
  | idle {frames : List (Frame σ)} : Act f f frames frames
  | subscribe (mode : Mode) (type : String) (listener : Nat) {frames : List (Frame σ)} :
      Act f (f.subscribe mode type listener).1 frames frames
  | unsubscribe (t : Ticket) {frames : List (Frame σ)} : Act f (f.unsubscribe t) frames frames
  | close {frames : List (Frame σ)} : Act f f.close frames frames
  | amend (number : Nat) (p : Payload) {frames : List (Frame σ)} : Act f (f.amend number p) frames frames
  /-- A publication does not begin. -/
  | spare (kind : EventKind) (properties : Properties) {start : Start} {frames : List (Frame σ)}
      (idle : ∀ number p, start ≠ .begun number p) :
      Act f (f.happened [.publishing kind properties start]) frames frames
  | begin (kind : EventKind) (properties : Properties) (ms : Members) (next : Except Failure Unit → Program σ)
      {frames : List (Frame σ)} (opened : f.bus.closed = false) (accepted : kind.accept properties = .ok ms) :
      Act f
        ({ f with payloads := f.payloads ++ [Payload.mk kind.type ms] }.happened
          [.publishing kind properties (.begun f.payloads.length ⟨kind.type, ms⟩)]) frames
        (⟨f.payloads.length, kind.type, f.bus.recipients kind.type, next⟩ :: frames)
  /-- A publication without a payload passes over a recipient; there is none such. -/
  | skip {number : Nat} (type : String) (s : Subscription) (rest : List Subscription)
      (next : Except Failure Unit → Program σ) {frames : List (Frame σ)}
      (unknown : f.payloads[number]? = none) :
      Act f f (⟨number, type, s :: rest, next⟩ :: frames) (⟨number, type, rest, next⟩ :: frames)
  | call {number : Nat} (type : String) (s : Subscription) (rest : List Subscription)
      (next : Except Failure Unit → Program σ) {frames : List (Frame σ)} {p : Payload}
      (payload : f.payloads[number]? = some p) :
      Act f ((f.happened [.called number s.callee p]).release s)
        (⟨number, type, s :: rest, next⟩ :: frames) (⟨number, type, rest, next⟩ :: frames)
  | deliver (number : Nat) (type : String) (next : Except Failure Unit → Program σ) {frames : List (Frame σ)} :
      Act f (f.happened [.delivered number]) (⟨number, type, [], next⟩ :: frames) frames

theorem act_advance (f : Floor σ) (frame : Frame σ) (frames : List (Frame σ)) :
    Act f (f.advance behave frame frames).1 (frame :: frames) (f.advance behave frame frames).2.frames := by
  obtain ⟨number, type, rest, next⟩ := frame
  cases rest with
  | nil => exact .deliver number type next
  | cons s rest =>
    unfold advance
    dsimp only
    cases hpayload : f.payloads[number]? with
    | none => exact .skip type s rest next hpayload
    | some p => exact .call type s rest next hpayload

theorem act_begin (f : Floor σ) (kind : EventKind) (properties : Properties)
    (next : Except Failure Unit → Program σ) (frames : List (Frame σ)) :
    Act f (f.begin behave depth kind properties next frames).1 frames
      (f.begin behave depth kind properties next frames).2.frames := by
  unfold begin
  split
  · exact .spare kind properties fun _ _ => nofun
  · split
    · exact .spare kind properties fun _ _ => nofun
    · next hopen =>
      split
      · exact .spare kind properties fun _ _ => nofun
      · next ms haccept => exact .begin kind properties ms next (Bool.eq_false_iff.mpr hopen) haccept

/-- **What a step does**, up to what users of the bus share and to what is reported. -/
theorem step_acts {f f' : Floor σ} {t t' : Task σ} (h : t.step behave depth f = some (f', t')) :
    ∃ f₀, f.Alike f₀ ∧ Act f₀ f' t.frames t'.frames := by
  obtain ⟨program, frames⟩ := t
  cases program with
  | done =>
    cases frames with
    | nil => cases h
    | cons frame frames =>
      have hadvance : f.advance behave frame frames = (f', t') := Option.some.inj h
      have hact := @act_advance _ behave f frame frames
      rw [hadvance] at hact
      exact ⟨f, .refl f, hact⟩
  | fail text =>
    cases frames with
    | nil => cases h
    | cons frame frames =>
      have hadvance : (f.report frame.type text).advance behave frame frames = (f', t') := Option.some.inj h
      have hact := @act_advance _ behave (f.report frame.type text) frame frames
      rw [hadvance] at hact
      exact ⟨f.report frame.type text, ⟨rfl, rfl, rfl⟩, hact⟩
  | consult next | survey next | look number next =>
    cases h
    exact ⟨f, .refl f, .idle⟩
  | keep change next =>
    cases h
    exact ⟨{ f with shared := change f.shared }, ⟨rfl, rfl, rfl⟩, .idle⟩
  | subscribe mode type listener next =>
    cases h
    exact ⟨f, .refl f, .subscribe mode type listener⟩
  | unsubscribe t next =>
    cases h
    exact ⟨f, .refl f, .unsubscribe t⟩
  | close next =>
    cases h
    exact ⟨f, .refl f, .close⟩
  | amend number p next =>
    cases h
    exact ⟨f, .refl f, .amend number p⟩
  | publish kind properties next =>
    have hbegin : f.begin behave depth kind properties next frames = (f', t') := Option.some.inj h
    have hact := @act_begin _ behave depth f kind properties next frames
    rw [hbegin] at hact
    exact ⟨f, .refl f, hact⟩

/-- The publications that some tasks wait for. -/
def framesOf (tasks : List (Task σ)) : List (Frame σ) := tasks.flatMap (·.frames)

@[simp] theorem framesOf_nil : framesOf ([] : List (Task σ)) = [] := rfl

@[simp] theorem framesOf_append (tasks tasks' : List (Task σ)) :
    framesOf (tasks ++ tasks') = framesOf tasks ++ framesOf tasks' := List.flatMap_append

@[simp] theorem framesOf_cons (t : Task σ) (tasks : List (Task σ)) :
    framesOf (t :: tasks) = t.frames ++ framesOf tasks := rfl

theorem Kept.alike {f f' : Floor σ} {level : Nat} (hf : f.Kept level) (h : f.Alike f') : f'.Kept level := by
  constructor
  · rw [h.bus, h.history, hf.subscriptions]
  · rw [h.bus, h.history, hf.closed]
  · rw [h.payloads, h.history, hf.payloads]
  · rw [h.history, hf.underWay]

theorem Kept.act {f f' : Floor σ} {frames frames' : List (Frame σ)} {others : Nat}
    (hf : f.Kept (others + frames.length)) (h : Act f f' frames frames') : f'.Kept (others + frames'.length) := by
  have hproceeds {f f' : Floor σ} {level : Nat} (h : Proceeds 0 level none [] f f') : f'.Kept level := h.kept
  cases h with
  | idle | skip => exact hf
  | subscribe mode type listener => exact hproceeds (hf.subscribe mode type listener)
  | unsubscribe t => exact hproceeds (hf.unsubscribe t)
  | close => exact hproceeds hf.close
  | amend number p => exact hproceeds (hf.amend number p)
  | @spare kind properties start _ idle =>
    have hnone : restated f.payloads (.publishing kind properties start) = f.payloads ∧
        ∀ n, recounted n (.publishing kind properties start) = n := by
      cases start with
      | begun number p => exact absurd rfl (idle number p)
      | tooDeep | dropped | refused e => exact ⟨rfl, fun _ => rfl⟩
    exact hf.happened rfl (Bool.or_false _).symm hnone.1.symm (hnone.2 _).symm
  | begin kind properties ms next opened accepted =>
    exact hf.happened rfl (Bool.or_false _).symm rfl rfl
  | @call number type s rest next _ p payload =>
    have hcalled := hf.happened (e := .called number s.callee p) rfl (Bool.or_false _).symm rfl rfl
    exact hproceeds (hcalled.release s)
  | deliver number type next =>
    exact hf.happened rfl (Bool.or_false _).symm rfl (by simp [recounted])

/-- The bus is at all times what its history says, and the publications under way are those that tasks wait
for. -/
theorem Reaches.kept {shared : σ} {f : Floor σ} {tasks : List (Task σ)}
    (reached : Reaches behave depth shared f tasks) : f.Kept (framesOf tasks).length := by
  induction reached with
  | new => exact kept_new shared
  | start program _ ih => simpa using ih
  | @step f f' before after t t' _ step ih =>
    obtain ⟨f₀, halike, hact⟩ := step_acts step
    have hlength (u : Task σ) : (framesOf (before ++ u :: after)).length =
        (framesOf before).length + (framesOf after).length + u.frames.length := by
      simp only [framesOf_append, framesOf_cons, List.length_append]
      omega
    rw [hlength] at ih ⊢
    exact (ih.alike halike).act hact

/-- **What every step keeps is kept**, whatever tasks do in whatever order: what holds of a new bus, and depends
on no more of it than its history says, nor on the order in which publications under way are listed. -/
theorem Reaches.preserves {P : Floor σ → List (Frame σ) → Prop} {shared : σ} {f : Floor σ} {tasks : List (Task σ)}
    (reached : Reaches behave depth shared f tasks) (start : P (Floor.new shared) [])
    (perm : ∀ f frames frames', frames.Perm frames' → P f frames → P f frames')
    (alike : ∀ f f' frames, f.Alike f' → P f frames → P f' frames)
    (act : ∀ f f' frames frames' others level, f.Kept level → Act f f' frames frames' → P f (frames ++ others) →
      P f' (frames' ++ others)) : P f (framesOf tasks) := by
  induction reached with
  | new => exact start
  | start program _ ih => simpa using ih
  | @step f f' before after t t' reached step ih =>
    obtain ⟨f₀, halike, hact⟩ := step_acts step
    -- the task that takes the step is brought to the front
    have hfront (u : Task σ) : (framesOf (before ++ u :: after)).Perm
        (u.frames ++ (framesOf before ++ framesOf after)) := by
      simp only [framesOf_append, framesOf_cons]
      exact List.perm_append_comm_assoc ..
    have hbefore : P f₀ (t.frames ++ (framesOf before ++ framesOf after)) :=
      perm _ _ _ (hfront t) (alike _ _ _ halike ih)
    exact perm _ _ _ (hfront t').symm (act _ _ _ _ _ _ (reached.kept.alike halike) hact hbefore)

end Floor

end EditorServices.Bus
