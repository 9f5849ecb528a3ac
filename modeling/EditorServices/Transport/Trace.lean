import EditorServices.Transport.Channel

/-!
# `Transport.Trace` — the structured form of what a channel does

Effects on the outside become lists that start with the name of what was done.

## Contents
- `Effect.toJson?`, in which log entries have no part, and `Effect.entry?`, which has only them.
-/

namespace EditorServices.Channel

open Json (ofTexts ofText?)

namespace Effect

/-- How a process gets its three streams. -/
def streams : List String := ["PIPE", "PIPE", "DEVNULL"]

/-- The structured form of an effect; none for a log entry. -/
def toJson? : Effect → Option Json
  | .openStreams => some (ofTexts ["open"])
  | .releaseStreams => some (ofTexts ["release"])
  | .spawn command cwd env => some (.arr [.str "spawn", ofTexts command, ofTexts streams,
      ofText? cwd, (env.map Environment.toJson).getD .null])
  | .terminate => some (ofTexts ["terminate"])
  | .wait .afterTerminate => some (.arr [.str "wait", .float (Binary64.ofInt 5)])
  | .wait .afterKill => some (.arr [.str "wait", .int 1])
  | .kill => some (ofTexts ["kill"])
  | .connect host port timeout =>
    some (.arr [.str "connect", .arr [.str host, .int port], timeout])
  | .unlimitedTime => some (.arr [.str "settimeout", .null])
  | .openReader => some (ofTexts ["makefile", "rb"])
  | .openWriter => some (ofTexts ["makefile", "wb"])
  | .shutDown => some (ofTexts ["shutdown", "RDWR"])
  | .closeSocket => some (ofTexts ["close_socket"])
  | .sent frame => some (.arr [.str "write", .str (String.ofList frame)])
  | .closeWriter => some (ofTexts ["close_writer"])
  | .closeReader => some (ofTexts ["close_reader"])
  | .message m => some (.arr [.str "message", m])
  | .unreadableHead => some (ofTexts ["problem", "Failed to read from rfile"])
  | .refusedBody => some (ofTexts ["problem", "Failed to parse JSON message"])
  | .log _ => none

/-- The log entry that an effect is. -/
def entry? : Effect → Option Log.Entry
  | .log e => some e
  | _ => none

end Effect

end EditorServices.Channel
