import EditorServices.Config.Settings
import EditorServices.Host

/-!
# `Transport.Endpoint` — how a server is reached

A server is a child process spoken to over its standard streams, or a socket.
-/

namespace EditorServices.Transport

/-- How a server is reached. -/
inductive Endpoint where
  /-- A child process; `env` is laid over the environment of this process. -/
  | stdio (command : List String) (cwd : Option String) (env : Option Environment)
  /-- A socket; `timeout` is the number of seconds that connecting to it may take, or null if there
  is no limit. -/
  | socket (host : String) (port : Int) (timeout : Json)
deriving DecidableEq

namespace Endpoint

/-- Seconds that a connection may take to open. -/
def defaultTimeout : Json := .float (Binary64.ofInt 10)

/-- What a host without processes answers. -/
def noProcesses : String :=
  "stdio language servers need process support; use SocketTransport instead"

/-- A child process, on a host that has processes. -/
def stdio? (host : Host) (command : List String) (cwd : Option String) (env : Option Environment) :
    Except Failure Endpoint :=
  if !host.spawnsProcesses then .error (.unsupported noProcesses)
  else if command.isEmpty then .error (.value "command must not be empty")
  else .ok (.stdio command cwd env)

/-- The endpoint that a configuration section names: its socket, or else its command. -/
def ofConfig (host : Host) (config : LspConfig) (cwd : Option String) : Except Failure Endpoint :=
  if config.hasSocket then
    config.socketAddress.map fun (name, port) => .socket name port defaultTimeout
  else if config.hasCommand then
    stdio? host (config.command.getD []) cwd (if config.env.isEmpty then none else some config.env)
  else .error (.value "LSP config needs either 'command' or 'socket'")

/-- The structured form of an endpoint. -/
def toJson : Endpoint → Json
  | .stdio command cwd env =>
    .obj [("kind", .str "stdio"), ("command", .ofTexts command), ("cwd", .ofText? cwd),
      ("env", (env.map Environment.toJson).getD .null)]
  | .socket host port timeout =>
    .obj [("kind", .str "socket"), ("host", .str host), ("port", .int port),
      ("timeout", timeout)]

end Endpoint

end EditorServices.Transport
