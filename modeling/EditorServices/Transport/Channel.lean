import EditorServices.Log.Line
import EditorServices.Transport.Endpoint
import EditorServices.Transport.Frame

/-!
# `Transport.Channel` — a duplex channel of messages to one server

A channel is opened once, written to while it is open, listened to until its inbound stream ends,
and closed once. What it does to the outside is a list of effects.

## Contents
- **The outside.** `Surroundings`, how the outside behaves, and `Effect`, what is done to it.
- **The channel.** `Channel` and its state.
- **Opening and closing.** `start`, `close`; resources are released between the two streams.
- **Writing.** `write`, one frame per message.
- **Listening.** `listen` hands each message to a consumer, who may close the channel or fail.
-/

namespace EditorServices

namespace Channel

/-! ## The outside -/

/-- What is at the other end of a channel. -/
inductive Peer where
  /-- A pair of streams that are opened and released as one. -/
  | streams
  | process (command : List String) (cwd : Option String) (env : Option Environment)
  /-- A socket, with the time that connecting to it may take. -/
  | socket (host : String) (port : Int) (timeout : Json)
deriving DecidableEq

/-- The other end of a channel to an endpoint. -/
def Peer.ofEndpoint : Transport.Endpoint → Peer
  | .stdio command cwd env => .process command cwd env
  | .socket host port timeout => .socket host port timeout

/-- How the outside behaves. -/
structure Surroundings where
  host : Host
  environment : Environment
  /-- Why a process or a connection cannot be opened. -/
  openError : Option String
  /-- The code with which a process has ended when it is first looked at. -/
  exitCode : Option Int
  /-- The process goes on when it is asked to end. -/
  stubborn : Bool
  writerCloseFails : Bool
  readerCloseFails : Bool
  /-- The id of a process that is opened. -/
  childId : Int
deriving DecidableEq

/-- How long the end of a process is waited for. -/
inductive Wait where
  | afterTerminate
  | afterKill
deriving DecidableEq, Repr

/-- What is done to the outside, and what is noticed of it. -/
inductive Effect where
  | openStreams
  | releaseStreams
  | spawn (command : List String) (cwd : Option String) (env : Option Environment)
  | terminate
  | wait (w : Wait)
  | kill
  | connect (host : String) (port : Int) (timeout : Json)
  | unlimitedTime
  | openReader
  | openWriter
  | shutDown
  | closeSocket
  | sent (frame : List Char)
  | closeWriter
  | closeReader
  | message (m : Json)
  /-- A frame's head cannot be used. -/
  | unreadableHead
  /-- A body holds no message, or the consumer refused the message. -/
  | refusedBody
  | log (e : Log.Entry)

end Channel

/-! ## The channel -/

/-- A channel to one server. -/
structure Channel where
  peer : Channel.Peer
  surroundings : Channel.Surroundings
  started : Bool
  closed : Bool
  readerOpen : Bool
  writerOpen : Bool
  /-- The bytes that the server has sent and that were not read yet. -/
  inbound : Bytes
  /-- What the reader takes. -/
  limits : Frame.Limits

namespace Channel

/-- A channel that is not open yet, to a server that will have sent some bytes. -/
def new (peer : Peer) (surroundings : Surroundings) (inbound : Bytes)
    (limits : Frame.Limits := .usual) : Channel :=
  ⟨peer, surroundings, false, false, false, false, inbound, limits⟩

/-- What a step of a channel leads to. -/
structure Stepped (α : Type) where
  channel : Channel
  effects : List Effect
  result : Except Failure α

def ok (c : Channel) (effects : List Effect) : Stepped Unit := ⟨c, effects, .ok ()⟩

/-- The service under which channels report. -/
def service : String := "lsp.transport"

def logged (level : Log.Level) (message : String) (extra : Members) : Effect :=
  .log ⟨level, service, message, extra⟩

/-- The failure of a channel that is not open. -/
def notOpen : Failure := .channelClosed "transport is not open" none

/-- The kind of failure that the outside gives when a channel cannot be opened. -/
def outsideFailure : String := Failure.kindName (.system "")

/-- A process id as it is announced to servers. -/
def processId (c : Channel) : Int := c.surroundings.host.processId

def portText (port : Int) : String := String.ofList (intDigits port)

def strings (xs : List String) : Json := .arr (xs.map .str)

/-! ## Opening and closing -/

/-- The environment of a process: that of this program with the given one laid over it, or none if
nothing is given. -/
def spawnEnvironment (s : Surroundings) (env : Option Environment) : Option Environment :=
  match env with
  | some (p :: rest) => some (Named.overlay s.environment (p :: rest))
  | _ => none

/-- What opening does, and whether it succeeds. -/
def opening (c : Channel) : List Effect × Except Failure Unit :=
  match c.peer with
  | .streams => ([.openStreams], .ok ())
  | .process command cwd env =>
    let attempt := Effect.spawn command cwd (spawnEnvironment c.surroundings env)
    match c.surroundings.openError with
    | some reason =>
      ([attempt, logged .error "failed to spawn language server"
          [("cmd", strings command), ("error", .str reason)]],
        .error (.channelClosed ("failed to spawn " ++ command.headD "") (some outsideFailure)))
    | none =>
      ([attempt, logged .info "spawned language server"
          [("cmd", strings command), ("pid", .int c.surroundings.childId)]], .ok ())
  | .socket host port timeout =>
    let attempt := Effect.connect host port timeout
    match c.surroundings.openError with
    | some reason =>
      ([attempt, logged .error "failed to connect to language server"
          [("host", .str host), ("port", .int port), ("error", .str reason)]],
        .error (.channelClosed ("cannot connect to " ++ host ++ ":" ++ portText port)
          (some outsideFailure)))
    | none =>
      ([attempt, .unlimitedTime, logged .info "connected to language server"
          [("host", .str host), ("port", .int port)], .openReader, .openWriter], .ok ())

/-- Opens the channel unless it is open. -/
def start (c : Channel) : Stepped Unit :=
  if c.closed then ⟨c, [], .error (.channelClosed "transport already closed" none)⟩
  else if c.started then ok c []
  else match c.opening with
    | (effects, .ok ()) =>
      ok { c with started := true, readerOpen := true, writerOpen := true } effects
    | (effects, .error f) => ⟨c, effects, .error f⟩

/-- Closes the writing stream unless it is closed. -/
def closeWriter (c : Channel) : Channel × List Effect :=
  if c.writerOpen then
    ({ c with writerOpen := false }, [.closeWriter] ++
      if c.surroundings.writerCloseFails then [logged .debug "failed to close writer" []] else [])
  else (c, [])

/-- Closes the reading stream unless it is closed. -/
def closeReader (c : Channel) : Channel × List Effect :=
  if c.readerOpen then
    ({ c with readerOpen := false }, [.closeReader] ++
      if c.surroundings.readerCloseFails then [logged .debug "failed to close reader" []] else [])
  else (c, [])

/-- Sets the code with which the process has ended, if it has. -/
def exited (c : Channel) (code : Option Int) : Channel :=
  { c with surroundings := { c.surroundings with exitCode := code } }

/-- Releases what an open channel holds. A process that goes on is asked to end, and then made
to. -/
def release (c : Channel) : Channel × List Effect :=
  match c.peer with
  | .streams => (c, [.releaseStreams])
  | .socket _ _ _ => if c.started then (c, [.shutDown, .closeSocket]) else (c, [])
  | .process _ _ _ =>
    if !c.started || c.surroundings.exitCode.isSome then (c, [])
    else if c.surroundings.stubborn then
      (c.exited (some (-9)), [.terminate, .wait .afterTerminate,
        logged .warn "language server did not terminate; killing"
          [("pid", .int c.surroundings.childId)],
        .kill, .wait .afterKill])
    else (c.exited (some (-15)), [.terminate, .wait .afterTerminate])

/-- Closes the channel unless it is closed: the writer, then what it holds, then the reader. -/
def close (c : Channel) : Channel × List Effect :=
  if c.closed then (c, [])
  else
    let (c, first) := closeWriter { c with closed := true }
    let (c, second) := c.release
    let (c, third) := c.closeReader
    (c, first ++ second ++ third)

/-- Why the inbound stream has ended. -/
def exitReason (c : Channel) : String :=
  match c.peer with
  | .streams => "transport closed"
  | .socket host port _ => "connection to " ++ host ++ ":" ++ portText port ++ " closed"
  | .process _ _ _ =>
    match c.started, c.surroundings.exitCode with
    | true, some code => "language server exited with code " ++ String.ofList (intDigits code)
    | _, _ => "language server closed its output"

/-! ## Writing -/

/-- Writes one message; nothing if the stream behind the channel is closed. -/
def write (c : Channel) (message : Json) : Stepped Unit :=
  if c.closed || !c.started then ⟨c, [], .error notOpen⟩
  else if c.writerOpen then ok c [.sent (Frame.ofMessage message)]
  else ok c []

/-! ## Listening -/

/-- What a consumer does with a message. -/
inductive Consumption where
  | accept
  /-- The message is not of the kind that was expected. -/
  | refuse
  | fail (f : Failure)
deriving Inhabited

/-- What a consumer does with the message of a number, counted from one. -/
structure Consumer where
  closes : Nat → Bool
  reaction : Nat → Consumption

/-- A consumer that takes every message. -/
def Consumer.accepting : Consumer := ⟨fun _ => false, fun _ => .accept⟩

/-- Hands a body to a consumer who has had `count` messages. -/
def deliver (consumer : Consumer) (c : Channel) (count : Nat) (body : Bytes) :
    Nat × Stepped Unit :=
  match Frame.messageOf? c.limits body with
  | none => (count, ok c [.refusedBody])
  | some m =>
    let n := count + 1
    let (c, effects) := if consumer.closes n then c.close else (c, [])
    let effects := .message m :: effects
    match consumer.reaction n with
    | .accept => (n, ok c effects)
    | .refuse => (n, ok c (effects ++ [.refusedBody]))
    | .fail f => (n, ⟨c, effects, .error f⟩)

/-- Listens for at most `fuel` frames. After a head that cannot be used, the body before it is
delivered again. -/
def listenFor (consumer : Consumer) : Nat → Channel → Nat → Option Bytes → Stepped Unit
  | 0, c, _, _ => ok c []
  | fuel + 1, c, count, previous =>
    if !c.readerOpen then ok c []
    else
      let goOn (c : Channel) (body : Bytes) (before : List Effect) : Stepped Unit :=
        match deliver consumer c count body with
        | (_, ⟨c, effects, .error f⟩) => ⟨c, before ++ effects, .error f⟩
        | (n, ⟨c, effects, .ok ()⟩) =>
          let rest := listenFor consumer fuel c n (some body)
          { rest with effects := before ++ effects ++ rest.effects }
      match Frame.takeBody c.limits c.inbound with
      | .ended => ok { c with inbound := [] } []
      | .body bytes rest => goOn { c with inbound := rest } bytes []
      | .tooLong rest => ⟨{ c with inbound := rest }, [], .error .overflow⟩
      | .noRoom rest => ⟨{ c with inbound := rest }, [], .error .noRoom⟩
      | .unreadable rest =>
        let c := { c with inbound := rest }
        match previous with
        | some body => goOn c body [.unreadableHead]
        | none => ⟨c, [.unreadableHead], .error .noBody⟩

/-- Hands each message to a consumer until the stream ends. -/
def listen (consumer : Consumer) (c : Channel) : Stepped Unit :=
  if !c.started then ⟨c, [], .error notOpen⟩
  else listenFor consumer (c.inbound.length + 1) c 0 none

end Channel

end EditorServices
