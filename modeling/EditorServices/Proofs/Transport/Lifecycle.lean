import EditorServices.Proofs.Transport.Closing
import EditorServices.Transport.Endpoint

/-!
# `Proofs.Transport.Lifecycle` — the life of a channel

A channel is asked to start, to write and to close, in any order and any number of times, while the outside
behaves as it likes: it may refuse an opening, raise when a stream is closed, and have a process end by itself or
go on when it is asked to end. What the channel does then is settled by what it has done before.

## Contents
- **Requests.** `Circumstances`, `serve`, and `life`, what a channel does in answer to requests.
- **What was done.** `Mark`, the effects that matter here, and what a `Life` tells of its channel.
- **Lawful.** `Released` and `Lawful`, what can be relied on.
- **One request.** `Served`, what serving a request comes to, with one case for each way.
- **A life.** `Tracks`, kept by every request, and `lawful_life`.
-/

namespace EditorServices.Channel

open EditorServices.Transport (Endpoint)

/-! ## Requests -/

/-- What is asked of a channel. -/
inductive Request where
  | start
  | write (message : Json)
  | close

/-- How the outside behaves while a request is served. -/
structure Circumstances where
  /-- Why the channel cannot be opened. -/
  openError : Option String
  /-- The code with which the process has ended by itself. -/
  ended : Option Int
  /-- The process goes on when it is asked to end. -/
  stubborn : Bool
  troubles : Troubles

/-- A channel under the circumstances. A process that has ended stays so; before one is opened there is none
that could have. -/
def under (c : Channel) (o : Circumstances) : Channel :=
  { c with surroundings := { c.surroundings with
      openError := o.openError
      exitCode := if c.started then c.surroundings.exitCode <|> o.ended else none
      stubborn := o.stubborn
      writerCloseFails := o.troubles.writer.isSome
      readerCloseFails := o.troubles.reader.isSome } }

section

variable (c : Channel) (o : Circumstances)

@[simp] theorem started_under : (c.under o).started = c.started := rfl

@[simp] theorem closed_under : (c.under o).closed = c.closed := rfl

@[simp] theorem writerOpen_under : (c.under o).writerOpen = c.writerOpen := rfl

@[simp] theorem readerOpen_under : (c.under o).readerOpen = c.readerOpen := rfl

@[simp] theorem openError_under : (c.under o).surroundings.openError = o.openError := rfl

end

/-- What a request may raise. -/
inductive Raised where
  | failure (f : Failure)
  | trouble (t : Trouble)

/-- What was done to serve a request, and how the channel is after it. -/
structure Done where
  circumstances : Circumstances
  request : Request
  effects : List Effect
  result : Except Raised Unit
  channel : Channel

/-- Serves a request. -/
def serve (c : Channel) (o : Circumstances) : Request → Done
  | .start =>
    let s := (c.under o).start
    ⟨o, .start, s.effects, s.result.mapError .failure, s.channel⟩
  | .write m =>
    let s := (c.under o).write m
    ⟨o, .write m, s.effects, s.result.mapError .failure, s.channel⟩
  | .close =>
    let (after, effects, result) := closing o.troubles (c.under o)
    ⟨o, .close, effects, result.mapError .trouble, after⟩

/-- What a channel has done so far. -/
abbrev Life := List Done

/-- Serves requests in order. -/
def life (c : Channel) : List (Circumstances × Request) → Life
  | [] => []
  | (o, q) :: rest => c.serve o q :: (c.serve o q).channel.life rest

/-- The channel after some requests. -/
def outlived (c : Channel) : List (Circumstances × Request) → Channel
  | [] => c
  | (o, q) :: rest => (c.serve o q).channel.outlived rest

theorem life_append (c : Channel) (earlier later : List (Circumstances × Request)) :
    c.life (earlier ++ later) = c.life earlier ++ (c.outlived earlier).life later := by
  induction earlier generalizing c with
  | nil => rfl
  | cons x earlier ih =>
    obtain ⟨o, q⟩ := x
    rw [List.cons_append, life, life, outlived, ih, List.cons_append]

/-! ## What was done -/

/-- What an open channel holds until it is closed. -/
inductive Holding where
  | writer
  | reader
  | socket
deriving DecidableEq

/-- What a channel to an endpoint holds, in the order in which it is given back. A process is not asked to
close. -/
def holdings : Endpoint → List Holding
  | .stdio _ _ _ => [.writer, .reader]
  | .socket _ _ _ => [.writer, .socket, .reader]

/-- The effects that matter in the life of a channel. -/
inductive Mark where
  /-- It was tried to reach the other end. -/
  | attempted
  /-- Bytes went out. -/
  | sent (frame : List Char)
  /-- A stream or the socket was asked to close. -/
  | asked (x : Holding)
deriving DecidableEq

namespace Mark

/-- The mark that an effect leaves. -/
def of? : Effect → Option Mark
  | .openStreams | .spawn _ _ _ | .connect _ _ _ => some .attempted
  | .sent frame => some (.sent frame)
  | .closeWriter => some (.asked .writer)
  | .closeReader => some (.asked .reader)
  | .closeSocket => some (.asked .socket)
  | _ => none

def holding? : Mark → Option Holding
  | .asked x => some x
  | _ => none

end Mark

namespace Done

def marks (d : Done) : List Mark := d.effects.filterMap Mark.of?

/-- The other end was reached. -/
def opens (d : Done) : Bool := d.marks.contains .attempted && d.result.isOk

def closes (d : Done) : Bool :=
  match d.request with
  | .close => true
  | _ => false

end Done

namespace Life

/-- The channel was opened. -/
def opened (ds : Life) : Bool := ds.any Done.opens

/-- The channel was closed, whether it had been opened or not. -/
def closed (ds : Life) : Bool := ds.any Done.closes

/-- Everything that was asked to close, in order. -/
def asked (ds : Life) : List Holding := (ds.flatMap Done.marks).filterMap Mark.holding?

variable (ds : Life) (d : Done)

@[simp] theorem opened_concat : opened (ds ++ [d]) = (ds.opened || d.opens) := by
  simp [opened]

@[simp] theorem closed_concat : closed (ds ++ [d]) = (ds.closed || d.closes) := by
  simp [closed]

@[simp] theorem asked_concat : asked (ds ++ [d]) = ds.asked ++ d.marks.filterMap Mark.holding? := by
  simp [asked]

end Life

/-! ## Lawful -/

/-- The failure of a channel that was closed already. -/
def alreadyClosed : Failure := .channelClosed "transport already closed" none

/-- The failure of a channel to an endpoint that cannot be reached. -/
def unreachable : Endpoint → Failure
  | .stdio command _ _ => .channelClosed ("failed to spawn " ++ command.headD "") (some outsideFailure)
  | .socket host port _ =>
    .channelClosed ("cannot connect to " ++ host ++ ":" ++ portText port) (some outsideFailure)

/-- Nothing is held any more: the streams and the socket were asked to close, each of them once, and the process
has ended. -/
structure Released (endpoint : Endpoint) (ds : Life) (c : Channel) : Prop where
  asked : ds.asked = holdings endpoint
  exited : ∀ command cwd env, endpoint = .stdio command cwd env → c.surroundings.exitCode.isSome = true

/-- What was done to serve a request is as it should be after what was done before. -/
structure Lawful (endpoint : Endpoint) (before : Life) (d : Done) : Prop where
  /-- What the channel says of itself is true. -/
  started : d.channel.started = Life.opened (before ++ [d])
  closed : d.channel.closed = Life.closed (before ++ [d])
  /-- While the channel is open, a write sends its message, and that is all it does. -/
  written : ∀ m, d.request = .write m → before.opened = true → before.closed = false →
    d.effects = [.sent (Frame.ofMessage m)] ∧ d.result = .ok ()
  unwritten : ∀ m, d.request = .write m → before.opened = false ∨ before.closed = true →
    d.effects = [] ∧ d.result = .error (.failure notOpen)
  /-- Nothing else sends anything. -/
  silent : (∀ m, d.request ≠ .write m) → ∀ frame, .sent frame ∉ d.effects
  /-- The channel is not opened twice. -/
  once : before.opened = true → d.opens = false
  /-- However often it could not be opened before, a start opens the channel if that is possible now. -/
  opens : d.request = .start → before.opened = false → before.closed = false →
    d.circumstances.openError = none → d.opens = true
  refused : ∀ reason, d.request = .start → before.opened = false → before.closed = false →
    d.circumstances.openError = some reason → d.result = .error (.failure (unreachable endpoint))
  idle : d.request = .start → before.opened = true → before.closed = false →
    d.effects = [] ∧ d.result = .ok ()
  tooLate : d.request = .start → before.closed = true →
    d.effects = [] ∧ d.result = .error (.failure alreadyClosed)
  /-- No close raises. -/
  unraised : d.request = .close → d.result = .ok ()
  /-- A channel that was opened and then closed holds nothing. -/
  released : Life.opened (before ++ [d]) = true → Life.closed (before ++ [d]) = true →
    Released endpoint (before ++ [d]) d.channel

/-! ## One request -/

/-- The streams of a channel to an endpoint are open as long as the channel is. -/
structure Coherent (endpoint : Endpoint) (c : Channel) : Prop where
  peer : c.peer = .ofEndpoint endpoint
  writer : c.writerOpen = (c.started && !c.closed)
  reader : c.readerOpen = (c.started && !c.closed)

/-- How a request is served. -/
inductive Served (endpoint : Endpoint) (c : Channel) (o : Circumstances) : Done → Prop where
  | tooLate (shut : c.closed = true) :
    Served endpoint c o ⟨o, .start, [], .error (.failure alreadyClosed), c.under o⟩
  | idle (unshut : c.closed = false) (running : c.started = true) :
    Served endpoint c o ⟨o, .start, [], .ok (), c.under o⟩
  | refused (unshut : c.closed = false) (fresh : c.started = false) (reason : String)
    (why : o.openError = some reason) (effects : List Effect)
    (marks : effects.filterMap Mark.of? = [.attempted]) :
    Served endpoint c o ⟨o, .start, effects, .error (.failure (unreachable endpoint)), c.under o⟩
  | opened (unshut : c.closed = false) (fresh : c.started = false) (possible : o.openError = none)
    (effects : List Effect) (marks : effects.filterMap Mark.of? = [.attempted]) :
    Served endpoint c o ⟨o, .start, effects, .ok (),
      { c.under o with started := true, readerOpen := true, writerOpen := true }⟩
  | written (unshut : c.closed = false) (running : c.started = true) (m : Json) :
    Served endpoint c o ⟨o, .write m, [.sent (Frame.ofMessage m)], .ok (), c.under o⟩
  | unwritten (gone : c.started = false ∨ c.closed = true) (m : Json) :
    Served endpoint c o ⟨o, .write m, [], .error (.failure notOpen), c.under o⟩
  | closedBefore (shut : c.closed = true) : Served endpoint c o ⟨o, .close, [], .ok (), c.under o⟩
  | closed (unshut : c.closed = false) (after : Channel) (effects : List Effect)
    (marks : effects.filterMap Mark.of? = if c.started then (holdings endpoint).map .asked else [])
    (coherent : Coherent endpoint after) (started : after.started = c.started) (shut : after.closed = true)
    (exited : c.started = true → ∀ command cwd env, endpoint = .stdio command cwd env →
      after.surroundings.exitCode.isSome = true) :
    Served endpoint c o ⟨o, .close, effects, .ok (), after⟩

section

variable {endpoint : Endpoint} {c : Channel}

/-- Opening marks the attempt, and fails if the endpoint cannot be reached. -/
theorem opening_eq (hpeer : c.peer = .ofEndpoint endpoint) :
    c.opening.1.filterMap Mark.of? = [.attempted] ∧ c.opening.2 =
      match c.surroundings.openError with
      | none => .ok ()
      | some _ => .error (unreachable endpoint) := by
  unfold opening
  rw [hpeer]
  cases endpoint <;> cases c.surroundings.openError <;> exact ⟨rfl, rfl⟩

theorem marks_closeWriter (c : Channel) :
    c.closeWriter.2.filterMap Mark.of? = if c.writerOpen then [.asked .writer] else [] := by
  unfold closeWriter
  split
  · cases c.surroundings.writerCloseFails <;> rfl
  · rfl

theorem marks_closeReader (c : Channel) :
    c.closeReader.2.filterMap Mark.of? = if c.readerOpen then [.asked .reader] else [] := by
  unfold closeReader
  split
  · cases c.surroundings.readerCloseFails <;> rfl
  · rfl

/-- A socket is closed; a process is not asked to close. -/
theorem marks_release (hpeer : c.peer = .ofEndpoint endpoint) :
    c.release.2.filterMap Mark.of? =
      if c.started then ((holdings endpoint).filter (· = .socket)).map .asked else [] := by
  unfold release
  rw [hpeer]
  cases endpoint with
  | stdio command cwd env =>
    dsimp only [Peer.ofEndpoint]
    rw [show (holdings (.stdio command cwd env)).filter (· = .socket) = [] from rfl, List.map_nil, ite_self]
    split
    · rfl
    · split <;> rfl
  | socket host port timeout =>
    dsimp only [Peer.ofEndpoint]
    split <;> rfl

/-- An open channel asks for all it holds to be closed; one that was never opened asks for nothing. -/
theorem marks_close (h : Coherent endpoint c) (unshut : c.closed = false) :
    c.close.2.filterMap Mark.of? = if c.started then (holdings endpoint).map .asked else [] := by
  -- what is released is not the channel itself, but what closing has made of it by then
  have hrelease := marks_release (c := { c with closed := true, writerOpen := false }) h.peer
  have hwriter := h.writer
  have hreader := h.reader
  rw [unshut] at hwriter hreader
  unfold close
  rw [if_neg (ne_true_of_eq_false unshut)]
  simp only [List.filterMap_append, marks_closeWriter, marks_closeReader, channel_closeWriter, readerOpen_release,
    hrelease]
  rw [hwriter, hreader]
  cases c.started <;> cases endpoint <;> rfl

/-- A closed channel is still coherent. -/
theorem Coherent.close (h : Coherent endpoint c) (unshut : c.closed = false) : Coherent endpoint c.close.1 := by
  rw [channel_close unshut]
  refine ⟨?_, ?_, ?_⟩
  · rw [peer_release]
    exact h.peer
  · rw [writerOpen_release, closed_release]
    exact (Bool.and_false _).symm
  · rw [closed_release]
    exact (Bool.and_false _).symm

theorem exitCode_close {command : List String} {cwd : Option String} {env : Option Environment}
    (hpeer : c.peer = .ofEndpoint (.stdio command cwd env)) (unshut : c.closed = false)
    (running : c.started = true) : c.close.1.surroundings.exitCode.isSome = true := by
  rw [channel_close unshut]
  exact exitCode_release (c := { c with closed := true, writerOpen := false }) hpeer running

/-- The streams are the same under all circumstances. -/
theorem Coherent.under (h : Coherent endpoint c) (o : Circumstances) : Coherent endpoint (c.under o) :=
  ⟨h.peer, h.writer, h.reader⟩

variable (h : Coherent endpoint c) (o : Circumstances)
include h

theorem served_start : Served endpoint c o (c.serve o .start) := by
  unfold serve
  cases hshut : c.closed with
  | true =>
    rw [show (c.under o).start = ⟨c.under o, [], .error alreadyClosed⟩ from if_pos hshut]
    exact .tooLate hshut
  | false =>
    cases hstarted : c.started with
    | true =>
      rw [start_of_started (c := c.under o) hshut hstarted]
      exact .idle hshut hstarted
    | false =>
      obtain ⟨hmarks, hresult⟩ := opening_eq (h.under o).peer
      rw [start_of_unstarted (c := c.under o) hshut hstarted, hresult, openError_under]
      cases hwhy : o.openError with
      | none => exact .opened hshut hstarted hwhy _ hmarks
      | some reason => exact .refused hshut hstarted reason hwhy _ hmarks

theorem served_write (m : Json) : Served endpoint c o (c.serve o (.write m)) := by
  have hwriter := h.writer
  unfold serve write
  rw [closed_under, started_under, writerOpen_under, hwriter]
  cases hshut : c.closed with
  | true => exact .unwritten (.inr hshut) m
  | false =>
    cases hstarted : c.started with
    | true => exact .written hshut hstarted m
    | false => exact .unwritten (.inl hstarted) m

theorem served_close : Served endpoint c o (c.serve o .close) := by
  -- a stream is open on started channels only, so that closing it is never skipped
  have hwriter : (c.under o).writerOpen = true → (c.under o).started = true := by
    rw [writerOpen_under, started_under, h.writer, Bool.and_eq_true]
    exact And.left
  have hreader : (c.under o).readerOpen = true → (c.under o).started = true := by
    rw [readerOpen_under, started_under, h.reader, Bool.and_eq_true]
    exact And.left
  have hclosing := closing_eq (c := c.under o) (t := o.troubles) hwriter hreader rfl rfl
  unfold serve
  rw [hclosing]
  cases hshut : c.closed with
  | true =>
    rw [show (c.under o).close = (c.under o, []) from if_pos hshut]
    exact .closedBefore hshut
  | false =>
    exact .closed hshut _ _ (marks_close (h.under o) hshut) ((h.under o).close hshut) (started_close _)
      (closed_close _) fun running command cwd env hendpoint =>
        exitCode_close (hendpoint ▸ (h.under o).peer) hshut running

/-- **Every request is served in one of these ways.** -/
theorem served (q : Request) : Served endpoint c o (c.serve o q) := by
  cases q with
  | start => exact served_start h o
  | write m => exact served_write h o m
  | close => exact served_close h o

end

/-! ## A life -/

/-- The state of a channel is what its life says that it is. -/
structure Tracks (endpoint : Endpoint) (c : Channel) (ds : Life) : Prop extends Coherent endpoint c where
  started : c.started = ds.opened
  closed : c.closed = ds.closed
  asked : ds.asked = if ds.opened && ds.closed then holdings endpoint else []
  exited : ds.opened = true → ds.closed = true → ∀ command cwd env, endpoint = .stdio command cwd env →
    c.surroundings.exitCode.isSome = true

theorem tracks_new (endpoint : Endpoint) (surroundings : Surroundings) (inbound : Bytes) (limits : Frame.Limits) :
    Tracks endpoint (new (.ofEndpoint endpoint) surroundings inbound limits) [] :=
  ⟨⟨rfl, rfl, rfl⟩, rfl, rfl, rfl, fun h => by cases h⟩

theorem holdings_asked (xs : List Holding) : (xs.map Mark.asked).filterMap Mark.holding? = xs := by
  rw [List.filterMap_map]
  exact List.filterMap_some

/-- Closing does not try to reach anything. -/
theorem opens_of_closing {d : Done} {p : Prop} [Decidable p] {xs : List Holding}
    (h : d.marks = if p then xs.map .asked else []) : d.opens = false := by
  have hnone : Mark.attempted ∉ d.marks := by
    rw [h]
    split <;> simp
  rw [Done.opens, Bool.and_eq_false_iff]
  exact .inl (by rwa [← Bool.not_eq_true, List.contains_iff_mem])

namespace Tracks

variable {endpoint : Endpoint} {c : Channel} {ds : Life} {o : Circumstances} {d : Done}

/-- A process that has ended does not come back. -/
theorem under (h : Tracks endpoint c ds) (o : Circumstances) : Tracks endpoint (c.under o) ds where
  toCoherent := h.toCoherent.under o
  started := h.started
  closed := h.closed
  asked := h.asked
  exited opened closed command cwd env hendpoint := by
    have hexited := h.exited opened closed command cwd env hendpoint
    rw [← h.started] at opened
    unfold Channel.under
    simp [opened, hexited]

/-- What opens nothing, closes nothing that is open, and asks for nothing to be closed makes no difference. -/
theorem concat (h : Tracks endpoint c ds) (opens : d.opens = false) (closes : d.closes = true → ds.closed = true)
    (asked : d.marks.filterMap Mark.holding? = []) : Tracks endpoint c (ds ++ [d]) := by
  have hopened : Life.opened (ds ++ [d]) = ds.opened := by
    rw [Life.opened_concat, opens, Bool.or_false]
  have hclosed : Life.closed (ds ++ [d]) = ds.closed := by
    rw [Life.closed_concat]
    cases hc : d.closes with
    | true => rw [closes hc, Bool.or_true]
    | false => rw [Bool.or_false]
  refine ⟨h.toCoherent, ?_, ?_, ?_, ?_⟩
  · rw [hopened, h.started]
  · rw [hclosed, h.closed]
  · rw [hopened, hclosed, Life.asked_concat, asked, List.append_nil, h.asked]
  · rw [hopened, hclosed]
    exact h.exited

section

variable {after : Channel} (h : Tracks endpoint c ds) (unshut : c.closed = false)
include h unshut

theorem afterOpening (opens : d.opens = true) (closes : d.closes = false) (marks : d.marks = [.attempted])
    (coherent : Coherent endpoint after) (running : after.started = true) (still : after.closed = false) :
    Tracks endpoint after (ds ++ [d]) := by
  have hopened : Life.opened (ds ++ [d]) = true := by rw [Life.opened_concat, opens, Bool.or_true]
  have hclosed : Life.closed (ds ++ [d]) = false := by
    rw [Life.closed_concat, closes, Bool.or_false, ← h.closed, unshut]
  have hasked : ds.asked = [] := by rw [h.asked, ← h.closed, unshut, Bool.and_false, if_neg Bool.false_ne_true]
  refine ⟨coherent, ?_, ?_, ?_, fun _ hc => ?_⟩
  · rw [hopened, running]
  · rw [hclosed, still]
  · rw [hopened, hclosed, Life.asked_concat, hasked, marks]
    rfl
  · rw [hclosed] at hc
    cases hc

theorem afterClosing (closes : d.closes = true)
    (marks : d.marks = if c.started then (holdings endpoint).map .asked else [])
    (coherent : Coherent endpoint after) (started : after.started = c.started) (shut : after.closed = true)
    (exited : c.started = true → ∀ command cwd env, endpoint = .stdio command cwd env →
      after.surroundings.exitCode.isSome = true) : Tracks endpoint after (ds ++ [d]) := by
  have hopened : Life.opened (ds ++ [d]) = c.started := by
    rw [Life.opened_concat, opens_of_closing marks, Bool.or_false, h.started]
  have hclosed : Life.closed (ds ++ [d]) = true := by rw [Life.closed_concat, closes, Bool.or_true]
  have hasked : ds.asked = [] := by rw [h.asked, ← h.closed, unshut, Bool.and_false, if_neg Bool.false_ne_true]
  refine ⟨coherent, ?_, ?_, ?_, fun ho _ => ?_⟩
  · rw [hopened, started]
  · rw [hclosed, shut]
  · rw [hopened, hclosed, Life.asked_concat, hasked, marks, Bool.and_true, List.nil_append]
    split
    · exact holdings_asked _
    · rfl
  · rw [hopened] at ho
    exact exited ho

end

/-- **Every request keeps this.** -/
theorem step (h : Tracks endpoint c ds) (hd : Served endpoint c o d) : Tracks endpoint d.channel (ds ++ [d]) := by
  -- only an opening and the first close change what a life tells of its channel
  cases hd with
  | tooLate shut => exact (h.under o).concat rfl (fun hc => by cases hc) rfl
  | idle unshut running => exact (h.under o).concat rfl (fun hc => by cases hc) rfl
  | refused unshut fresh reason why effects marks =>
    refine (h.under o).concat (Bool.and_false _) (fun hc => by cases hc) ?_
    rw [Done.marks, marks]
    rfl
  | opened unshut fresh possible effects marks =>
    refine h.afterOpening unshut ?_ rfl marks ⟨h.peer, ?_, ?_⟩ rfl unshut
    · rw [Done.opens, Done.marks, marks]
      rfl
    · exact congrArg not unshut.symm
    · exact congrArg not unshut.symm
  | written unshut running m => exact (h.under o).concat rfl (fun hc => by cases hc) rfl
  | unwritten gone m => exact (h.under o).concat rfl (fun hc => by cases hc) rfl
  | closedBefore shut => exact (h.under o).concat rfl (fun _ => h.closed ▸ shut) rfl
  | closed unshut after effects marks coherent started shut exited =>
    exact h.afterClosing unshut rfl marks coherent started shut exited

/-- **A whole life keeps this.** -/
theorem life (h : Tracks endpoint c ds) (requests : List (Circumstances × Request)) :
    Tracks endpoint (c.outlived requests) (ds ++ c.life requests) := by
  -- what is done so far is carried along, since the invariant is about all of it
  induction requests generalizing c ds with
  | nil =>
    rw [Channel.life, List.append_nil]
    exact h
  | cons x rest ih =>
    obtain ⟨o, q⟩ := x
    have hserved := h.step (served h.toCoherent o q)
    rw [Channel.life, List.append_cons]
    exact ih hserved

/-- What is done to serve a request can be relied on. -/
theorem lawful (h : Tracks endpoint c ds) (hd : Served endpoint c o d) : Lawful endpoint ds d where
  started := (h.step hd).started
  closed := (h.step hd).closed
  written m hm ho hc := by
    rw [← h.started] at ho
    rw [← h.closed] at hc
    cases hd with
    | written => cases hm; exact ⟨rfl, rfl⟩
    | unwritten gone => simp [ho, hc] at gone
    | _ => cases hm
  unwritten m hm gone := by
    rw [← h.started, ← h.closed] at gone
    cases hd with
    | written unshut running => simp [unshut, running] at gone
    | unwritten => exact ⟨rfl, rfl⟩
    | _ => cases hm
  silent hm frame hsent := by
    have hmark : .sent frame ∈ d.marks := List.mem_filterMap.mpr ⟨_, hsent, rfl⟩
    unfold Done.marks at hmark
    cases hd with
    | tooLate | idle | closedBefore => cases hmark
    | refused _ _ _ _ effects marks | opened _ _ _ effects marks => simp [marks] at hmark
    | written _ _ m | unwritten _ m => exact hm m rfl
    | closed _ after effects marks =>
      rw [marks] at hmark
      split at hmark <;> simp at hmark
  once ho := by
    rw [← h.started] at ho
    cases hd with
    | refused _ fresh | opened _ fresh => cases ho.symm.trans fresh
    | closed _ after effects marks => exact opens_of_closing marks
    | _ => rfl
  opens hq ho hc possible := by
    rw [← h.started] at ho
    rw [← h.closed] at hc
    cases hd with
    | tooLate shut => cases hc.symm.trans shut
    | idle _ running => cases ho.symm.trans running
    | refused _ _ _ why => cases possible.symm.trans why
    | opened _ _ _ effects marks =>
      rw [Done.opens, Done.marks, marks]
      rfl
    | _ => cases hq
  refused reason hq ho hc why := by
    rw [← h.started] at ho
    rw [← h.closed] at hc
    cases hd with
    | tooLate shut => cases hc.symm.trans shut
    | idle _ running => cases ho.symm.trans running
    | refused => rfl
    | opened _ _ possible => cases possible.symm.trans why
    | _ => cases hq
  idle hq ho hc := by
    rw [← h.started] at ho
    rw [← h.closed] at hc
    cases hd with
    | tooLate shut => cases hc.symm.trans shut
    | idle => exact ⟨rfl, rfl⟩
    | refused _ fresh | opened _ fresh => cases ho.symm.trans fresh
    | _ => cases hq
  tooLate hq hc := by
    rw [← h.closed] at hc
    cases hd with
    | tooLate => exact ⟨rfl, rfl⟩
    | idle unshut | refused unshut | opened unshut => cases hc.symm.trans unshut
    | _ => cases hq
  unraised hq := by
    cases hd with
    | closedBefore | closed => rfl
    | _ => cases hq
  released ho hc := by
    refine ⟨?_, (h.step hd).exited ho hc⟩
    rw [(h.step hd).asked, ho, hc]
    rfl

end Tracks

/-- **The life of a channel.** Whatever is asked of a channel to an endpoint, in whatever order, and however the
outside behaves: every request is served, and what is done for it is as it should be after all that was done
before. -/
theorem lawful_life (endpoint : Endpoint) (surroundings : Surroundings) (inbound : Bytes) (limits : Frame.Limits)
    (earlier later : List (Circumstances × Request)) (o : Circumstances) (q : Request) :
    let c := new (.ofEndpoint endpoint) surroundings inbound limits
    ∃ d after, c.life (earlier ++ (o, q) :: later) = c.life earlier ++ d :: after ∧
      d.circumstances = o ∧ d.request = q ∧ Lawful endpoint (c.life earlier) d := by
  intro c
  have htracks : Tracks endpoint (c.outlived earlier) (c.life earlier) := by
    simpa using (tracks_new endpoint surroundings inbound limits).life earlier
  refine ⟨(c.outlived earlier).serve o q, _, life_append c earlier _, ?_, ?_, ?_⟩
  · cases q <;> rfl
  · cases q <;> rfl
  · exact htracks.lawful (served htracks.toCoherent o q)

/-- A server that is missing at first goes on when it is asked to end, and both streams raise. -/
example :
    let troubles : Troubles := ⟨some (.system "broken pipe"), some (.value "closed file"), none⟩
    let missing : Circumstances := ⟨some "no such file", none, true, troubles⟩
    let present : Circumstances := ⟨none, none, true, troubles⟩
    let surroundings : Surroundings := ⟨⟨"linux", some 1⟩, [], none, none, false, false, false, 7⟩
    let c := new (.ofEndpoint (.stdio ["server"] none none)) surroundings []
    (c.life [(missing, .start), (present, .start), (present, .write .null), (present, .close),
        (present, .close), (present, .start)]).flatMap Done.marks =
      [.attempted, .attempted, .sent (Frame.ofMessage .null), .asked .writer, .asked .reader] := by
  rfl

end EditorServices.Channel
