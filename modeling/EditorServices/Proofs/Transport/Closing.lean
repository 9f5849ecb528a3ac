import EditorServices.Transport.Channel

/-!
# `Proofs.Transport.Closing` — closing a channel, with all that the outside raises

Closing asks streams to close, a process to end and a socket to shut down, and each of these may raise
something. Here it is written out action by action, with what is handled where. That comes to the same as
`close`: nothing of what is raised gets out, and no later action is left out for it.

## Contents
- **The pieces of closing.** `channel_closeWriter`, `channel_closeReader` and `channel_release`: what each of
  them changes of a channel.
- **Opening, writing, closing.** Whether a channel is started and whether it is closed after them.
- **Procedures.** `Procedure`, actions that may be broken off; `andThen` and `handling`.
- **Actions.** What is done to streams, processes and sockets, and what that raises.
- **Closing.** `closing`, and `closing_eq`: it never raises, and is `close`.
-/

namespace EditorServices.Channel

/-! ## The pieces of closing -/

@[simp] theorem channel_closeWriter (c : Channel) : c.closeWriter.1 = { c with writerOpen := false } := by
  unfold closeWriter
  split
  · rfl
  · next hshut =>
    rw [Bool.not_eq_true] at hshut
    rw [← hshut]

@[simp] theorem channel_closeReader (c : Channel) : c.closeReader.1 = { c with readerOpen := false } := by
  unfold closeReader
  split
  · rfl
  · next hshut =>
    rw [Bool.not_eq_true] at hshut
    rw [← hshut]

/-- A process may have ended after a release; nothing else has changed. -/
theorem channel_release (c : Channel) : ∃ code, c.release.1 = c.exited code := by
  unfold release
  split
  · exact ⟨c.surroundings.exitCode, rfl⟩
  · split <;> exact ⟨c.surroundings.exitCode, rfl⟩
  · split
    · exact ⟨c.surroundings.exitCode, rfl⟩
    · split <;> exact ⟨_, rfl⟩

@[simp] theorem peer_release (c : Channel) : c.release.1.peer = c.peer := by
  obtain ⟨code, h⟩ := channel_release c
  rw [h, exited]

@[simp] theorem started_release (c : Channel) : c.release.1.started = c.started := by
  obtain ⟨code, h⟩ := channel_release c
  rw [h, exited]

@[simp] theorem closed_release (c : Channel) : c.release.1.closed = c.closed := by
  obtain ⟨code, h⟩ := channel_release c
  rw [h, exited]

@[simp] theorem readerOpen_release (c : Channel) : c.release.1.readerOpen = c.readerOpen := by
  obtain ⟨code, h⟩ := channel_release c
  rw [h, exited]

@[simp] theorem writerOpen_release (c : Channel) : c.release.1.writerOpen = c.writerOpen := by
  obtain ⟨code, h⟩ := channel_release c
  rw [h, exited]

@[simp] theorem readerCloseFails_release (c : Channel) :
    c.release.1.surroundings.readerCloseFails = c.surroundings.readerCloseFails := by
  obtain ⟨code, h⟩ := channel_release c
  rw [h, exited]

/-- The process of an open channel has ended once it is released. -/
theorem exitCode_release {c : Channel} {command : List String} {cwd : Option String} {env : Option Environment}
    (hpeer : c.peer = .process command cwd env) (hstarted : c.started = true) :
    c.release.1.surroundings.exitCode.isSome = true := by
  unfold release
  rw [hpeer, hstarted]
  dsimp only
  split
  · next hover => exact hover
  · split <;> rfl

/-! ## Opening, writing, closing -/

@[simp] theorem channel_write (c : Channel) (m : Json) : (c.write m).channel = c := by
  unfold write ok
  split
  · rfl
  · split <;> rfl

/-- What is closed is what was released, without its streams. -/
theorem channel_close {c : Channel} (h : c.closed = false) :
    c.close.1 =
      { (release { c with closed := true, writerOpen := false }).1 with readerOpen := false } := by
  unfold close
  rw [if_neg (ne_true_of_eq_false h)]
  simp only [channel_closeWriter, channel_closeReader]

@[simp] theorem started_close (c : Channel) : c.close.1.started = c.started := by
  cases h : c.closed with
  | true =>
    unfold close
    rw [if_pos h]
  | false => rw [channel_close h, started_release]

@[simp] theorem closed_close (c : Channel) : c.close.1.closed = true := by
  cases h : c.closed with
  | true =>
    unfold close
    rw [if_pos h, h]
  | false => rw [channel_close h, closed_release]

section

variable {c : Channel} (unshut : c.closed = false)
include unshut

theorem start_of_started (running : c.started = true) : c.start = ok c [] := by
  unfold start
  rw [unshut, running]
  rfl

/-- A channel that is not open does what opening does. -/
theorem start_of_unstarted (fresh : c.started = false) : c.start =
    match c.opening.2 with
    | .ok () => ok { c with started := true, readerOpen := true, writerOpen := true } c.opening.1
    | .error f => ⟨c, c.opening.1, .error f⟩ := by
  unfold start
  rw [if_neg (ne_true_of_eq_false unshut), if_neg (ne_true_of_eq_false fresh)]
  generalize c.opening = x
  obtain ⟨effects, ⟨⟩ | ⟨⟩⟩ := x <;> rfl

end

@[simp] theorem closed_start (c : Channel) : c.start.channel.closed = c.closed := by
  unfold start
  split
  · rfl
  · split
    · rfl
    · split <;> rfl

/-- Opening an open channel does nothing. -/
theorem channel_start_of_started {c : Channel} (h : c.started = true) : c.start.channel = c := by
  unfold start
  rw [if_pos h]
  split <;> rfl

/-- What was opened without a failure is open. -/
theorem started_of_start {c : Channel} (h : c.start.result = .ok ()) : c.start.channel.started = true := by
  unfold start at h ⊢
  by_cases hc : c.closed = true
  · rw [if_pos hc] at h
    cases h
  · rw [if_neg hc] at h ⊢
    by_cases hs : c.started = true
    · rw [if_pos hs]
      exact hs
    · rw [if_neg hs] at h ⊢
      generalize c.opening = x at h ⊢
      obtain ⟨effects, ⟨⟩ | ⟨⟩⟩ := x
      · cases h
      · rfl

/-! ## Procedures -/

/-- What an action raises. -/
inductive Trouble where
  /-- The system refuses. -/
  | system (message : String)
  /-- A value does not fit. -/
  | value (message : String)
  /-- The time for a wait has passed. -/
  | expired
deriving DecidableEq

/-- Actions on a channel, which may be broken off by what one of them raises. -/
abbrev Procedure := Channel → Channel × List Effect × Except Trouble Unit

namespace Procedure

/-- Nothing. -/
def nothing : Procedure := fun c => (c, [], .ok ())

/-- An effect without an answer. -/
def effect (e : Effect) : Procedure := fun c => (c, [e], .ok ())

@[simp] theorem effect_eq (e : Effect) (c : Channel) : effect e c = (c, [e], .ok ()) := rfl

/-- One procedure and then another, unless the first one is broken off. -/
def andThen (first second : Procedure) : Procedure := fun c =>
  match first c with
  | (c, effects, .error t) => (c, effects, .error t)
  | (c, effects, .ok ()) =>
    let (c, more, r) := second c
    (c, effects ++ more, r)

/-- A procedure, and a handler that goes on in its place if it is broken off by something that is handled. -/
def handling (body : Procedure) (handled : Trouble → Bool) (handler : Procedure) : Procedure := fun c =>
  match body c with
  | (c, effects, .error t) =>
    if handled t then
      let (c, more, r) := handler c
      (c, effects ++ more, r)
    else (c, effects, .error t)
  | (c, effects, .ok ()) => (c, effects, .ok ())

theorem andThen_of_ok {first second : Procedure} {c c₁ c₂ : Channel} {es₁ es₂ : List Effect}
    {r : Except Trouble Unit} (h₁ : first c = (c₁, es₁, .ok ())) (h₂ : second c₁ = (c₂, es₂, r)) :
    first.andThen second c = (c₂, es₁ ++ es₂, r) := by
  unfold andThen
  rw [h₁]
  dsimp only
  rw [h₂]

theorem handling_of_ok {body handler : Procedure} {handled : Trouble → Bool} {c c₁ : Channel}
    {es : List Effect} (h : body c = (c₁, es, .ok ())) : body.handling handled handler c = (c₁, es, .ok ()) := by
  unfold handling
  rw [h]

theorem handling_of_error {body handler : Procedure} {handled : Trouble → Bool} {c c₁ c₂ : Channel}
    {es₁ es₂ : List Effect} {t : Trouble} {r : Except Trouble Unit} (h₁ : body c = (c₁, es₁, .error t))
    (ht : handled t = true) (h₂ : handler c₁ = (c₂, es₂, r)) :
    body.handling handled handler c = (c₂, es₁ ++ es₂, r) := by
  unfold handling
  rw [h₁]
  dsimp only
  rw [if_pos ht, h₂]

end Procedure

open Procedure

/-! ## Actions -/

/-- What a stream raises when it closes: it may fail to write what it still holds, or be closed already. -/
inductive StreamTrouble where
  | system (message : String)
  | value (message : String)
deriving DecidableEq

def StreamTrouble.raised : StreamTrouble → Trouble
  | .system message => .system message
  | .value message => .value message

/-- What the outside raises while a channel is closed. -/
structure Troubles where
  writer : Option StreamTrouble
  reader : Option StreamTrouble
  /-- Why a socket cannot be shut down, such as an end that is gone. -/
  shutDown : Option String

/-- What comes of an action that may raise something. -/
def raising : Option Trouble → Except Trouble Unit
  | none => .ok ()
  | some t => .error t

/-- One of the two streams of a channel: how it is closed, and what is logged when it raises. -/
structure Stream where
  isOpen : Channel → Bool
  shut : Channel → Channel
  closes : Effect
  complaint : String

namespace Stream

def writer : Stream where
  isOpen := Channel.writerOpen
  shut c := { c with writerOpen := false }
  closes := .closeWriter
  complaint := "failed to close writer"

def reader : Stream where
  isOpen := Channel.readerOpen
  shut c := { c with readerOpen := false }
  closes := .closeReader
  complaint := "failed to close reader"

/-- Asks a stream to close. A stream that raises is closed nevertheless. -/
def ask (x : Stream) (trouble : Option StreamTrouble) : Procedure := fun c =>
  if x.isOpen c then (x.shut c, [x.closes], raising (trouble.map StreamTrouble.raised)) else (c, [], .ok ())

end Stream

/-- Asks the process to end; a stubborn one goes on. -/
def terminate : Procedure := fun c =>
  (if c.surroundings.stubborn then c else c.exited (some (-15)), [.terminate], .ok ())

/-- Makes the process end. -/
def kill : Procedure := fun c => (c.exited (some (-9)), [.kill], .ok ())

/-- Waits for the process to end. -/
def await (w : Wait) : Procedure := fun c =>
  (c, [.wait w], if c.surroundings.exitCode.isSome then .ok () else .error .expired)

/-- Shuts the socket down. -/
def shutSocket (t : Troubles) : Procedure := fun c =>
  (c, [.shutDown], raising (t.shutDown.map Trouble.system))

/-! ## Closing -/

/-- The kinds of trouble that streams make. -/
def Trouble.isOfStream : Trouble → Bool
  | .system _ | .value _ => true
  | .expired => false

def Trouble.isOfSystem : Trouble → Bool
  | .system _ => true
  | _ => false

/-- Closes a stream of an open channel. -/
def Stream.closing (x : Stream) (trouble : Option StreamTrouble) : Procedure := fun c =>
  if c.started then
    (x.ask trouble).handling Trouble.isOfStream (effect (logged .debug x.complaint [])) c
  else nothing c

/-- Makes a process end that did not when it was asked to. -/
def makingEnd : Procedure := fun c =>
  (effect (logged .warn "language server did not terminate; killing"
    [("pid", .int c.surroundings.childId)])).andThen (kill.andThen (await .afterKill)) c

/-- Releases what an open channel holds. -/
def releasing (t : Troubles) : Procedure := fun c =>
  match c.peer with
  | .streams => effect .releaseStreams c
  | .process _ _ _ =>
    if !c.started || c.surroundings.exitCode.isSome then nothing c
    else terminate.andThen ((await .afterTerminate).handling (· = .expired) makingEnd) c
  | .socket _ _ _ =>
    if c.started then
      ((shutSocket t).handling Trouble.isOfSystem nothing).andThen (effect .closeSocket) c
    else nothing c

/-- Closes a channel, action by action. -/
def closing (t : Troubles) : Procedure := fun c =>
  if c.closed then nothing c
  else
    (Stream.writer.closing t.writer).andThen ((releasing t).andThen (Stream.reader.closing t.reader))
      { c with closed := true }

variable {c : Channel} {t : Troubles}

theorem raised_isOfStream (s : StreamTrouble) : s.raised.isOfStream = true := by
  cases s <;> rfl

/-- What a stream raises is logged. -/
theorem Stream.closing_eq {x : Stream} (h : x.isOpen c = true → c.started = true)
    (trouble : Option StreamTrouble) : x.closing trouble c =
      if x.isOpen c then
        (x.shut c, [x.closes] ++ if trouble.isSome then [logged .debug x.complaint []] else [], .ok ())
      else (c, [], .ok ()) := by
  unfold closing
  cases hopen : x.isOpen c with
  | false =>
    have hask : x.ask trouble c = (c, [], .ok ()) := by
      unfold ask
      rw [hopen]
      rfl
    split
    · exact handling_of_ok hask
    · rfl
  | true =>
    have hask : x.ask trouble c = (x.shut c, [x.closes], raising (trouble.map StreamTrouble.raised)) := by
      unfold ask
      rw [if_pos hopen]
    rw [if_pos (h hopen), if_pos rfl]
    cases trouble with
    | none => exact handling_of_ok hask
    | some s => exact handling_of_error hask (raised_isOfStream s) (effect_eq _ _)

theorem closing_writer (h : c.writerOpen = true → c.started = true)
    (hfails : c.surroundings.writerCloseFails = t.writer.isSome) :
    Stream.writer.closing t.writer c = (c.closeWriter.1, c.closeWriter.2, .ok ()) := by
  rw [Stream.closing_eq h, show Stream.writer.isOpen c = c.writerOpen from rfl]
  unfold closeWriter
  rw [hfails]
  cases c.writerOpen <;> rfl

theorem closing_reader (h : c.readerOpen = true → c.started = true)
    (hfails : c.surroundings.readerCloseFails = t.reader.isSome) :
    Stream.reader.closing t.reader c = (c.closeReader.1, c.closeReader.2, .ok ()) := by
  rw [Stream.closing_eq h, show Stream.reader.isOpen c = c.readerOpen from rfl]
  unfold closeReader
  rw [hfails]
  cases c.readerOpen <;> rfl

/-- A socket that cannot be shut down is closed all the same. -/
theorem shutSocket_handled (t : Troubles) (c : Channel) :
    (shutSocket t).handling Trouble.isOfSystem nothing c = (c, [.shutDown], .ok ()) := by
  have hshut : shutSocket t c = (c, [.shutDown], raising (t.shutDown.map Trouble.system)) := rfl
  cases ht : t.shutDown with
  | none =>
    rw [ht] at hshut
    exact handling_of_ok hshut
  | some message =>
    rw [ht] at hshut
    exact handling_of_error hshut rfl rfl

/-- A process that is made to end is waited for no longer than that takes. -/
theorem makingEnd_eq (c : Channel) :
    makingEnd c = (c.exited (some (-9)), [logged .warn "language server did not terminate; killing"
      [("pid", .int c.surroundings.childId)], .kill, .wait .afterKill], .ok ()) := rfl

/-- A process that is asked to end has ended after the wait, or is made to end. -/
theorem ending_eq {c : Channel} (hgoes : c.surroundings.exitCode = none) :
    terminate.andThen ((await .afterTerminate).handling (· = .expired) makingEnd) c =
      if c.surroundings.stubborn then
        (c.exited (some (-9)), [.terminate, .wait .afterTerminate,
          logged .warn "language server did not terminate; killing" [("pid", .int c.surroundings.childId)],
          .kill, .wait .afterKill], .ok ())
      else (c.exited (some (-15)), [.terminate, .wait .afterTerminate], .ok ()) := by
  cases hstubborn : c.surroundings.stubborn with
  | false =>
    have hasked : terminate c = (c.exited (some (-15)), [.terminate], .ok ()) := by
      unfold terminate
      rw [hstubborn]
      rfl
    have hwaited : await .afterTerminate (c.exited (some (-15))) =
      (c.exited (some (-15)), [.wait .afterTerminate], .ok ()) := rfl
    exact andThen_of_ok hasked (handling_of_ok hwaited)
  | true =>
    have hasked : terminate c = (c, [.terminate], .ok ()) := by
      unfold terminate
      rw [hstubborn]
      rfl
    have hvain : await .afterTerminate c = (c, [.wait .afterTerminate], .error .expired) := by
      unfold await
      rw [hgoes]
      rfl
    exact andThen_of_ok hasked (handling_of_error hvain rfl (makingEnd_eq c))

/-- Nothing that is raised in releasing gets out. -/
theorem releasing_eq (t : Troubles) (c : Channel) : releasing t c = (c.release.1, c.release.2, .ok ()) := by
  unfold releasing release
  cases c.peer with
  | streams => rfl
  | process command cwd env =>
    dsimp only
    by_cases hover : (!c.started || c.surroundings.exitCode.isSome) = true
    · rw [if_pos hover, if_pos hover]
      rfl
    · rw [if_neg hover, if_neg hover]
      have hgoes : c.surroundings.exitCode = none := by
        simp only [Bool.or_eq_true, not_or] at hover
        exact Option.not_isSome_iff_eq_none.mp hover.2
      rw [ending_eq hgoes]
      split <;> rfl
  | socket host port timeout =>
    dsimp only
    split
    · exact andThen_of_ok (shutSocket_handled t c) (effect_eq _ _)
    · rfl

/-- **Closing never raises**, whatever the streams, the process and the socket raise, and comes to what `close`
says. -/
theorem closing_eq (hwriter : c.writerOpen = true → c.started = true)
    (hreader : c.readerOpen = true → c.started = true)
    (hwriterFails : c.surroundings.writerCloseFails = t.writer.isSome)
    (hreaderFails : c.surroundings.readerCloseFails = t.reader.isSome) :
    closing t c = (c.close.1, c.close.2, .ok ()) := by
  unfold closing close
  split
  · rfl
  · have hfirst := closing_writer (c := { c with closed := true }) (t := t) hwriter hwriterFails
    have hthird := closing_reader (c := (closeWriter { c with closed := true }).1.release.1) (t := t)
      (by simpa using hreader) (by simpa using hreaderFails)
    rw [andThen_of_ok hfirst (andThen_of_ok (releasing_eq t _) hthird)]
    simp only [List.append_assoc]

end EditorServices.Channel
