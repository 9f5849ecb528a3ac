import EditorServices.Environment
import EditorServices.Path

/-!
# `Host` — what the host offers

## Contents
- **Processes.** `Host`, the process id announced to servers, whether servers can be spawned.
- **Directories.** Where data, logs and configuration of a user are kept.
-/

namespace EditorServices

/-! ## Processes -/

/-- The host that the program runs on. -/
structure Host where
  platform : String
  /-- The id of this process, if the host tells it. -/
  pid : Option Int
deriving DecidableEq, Inhabited

namespace Host

/-- The id announced where processes have none. -/
def noProcessId : Int := -1

/-- Platforms without processes. -/
def processless : List String := ["emscripten", "wasi"]

/-- The process id announced to a server. -/
def processId (h : Host) : Int :=
  if processless.contains h.platform then noProcessId else h.pid.getD noProcessId

/-- Whether servers can be spawned as child processes. -/
def spawnsProcesses (h : Host) : Bool :=
  !processless.contains h.platform && h.processId != noProcessId

end Host

/-! ## Directories -/

namespace UserDirectory

/-- The name of the program in paths. -/
def appName : String := "glint"

/-- The directory that a variable names, if it is an absolute one. -/
def named? (env : Environment) (name : String) : Option String :=
  (env.get? name).filter fun v => v.toList.head? = some '/'

/-- The home directory in the list of users. -/
def listedHome : String := "/root"

/-- A path below the home directory. -/
def underHome (env : Environment) (path : String) : String :=
  let home := ((named? env "HOME").getD listedHome).toList
  String.ofList ((home.reverse.dropWhile (· = '/')).reverse ++ '/' :: path.toList)

/-- The base directory that a variable names, or else one below the home directory. -/
def base (env : Environment) (name otherwise : String) : String :=
  (named? env name).getD (underHome env otherwise)

/-- The directory of the program's data. -/
def data (env : Environment) : String :=
  Path.child (base env "XDG_DATA_HOME" ".local/share") appName

/-- The directory of the program's log files. -/
def log (env : Environment) : String :=
  Path.child (String.ofList (Path.tidy (data env).toList)) "log"

/-- The directory of the user's configuration files. -/
def config (env : Environment) : String :=
  (env.nonEmpty? "GLINT_CONFIG_DIR").getD
    (Path.child (base env "XDG_CONFIG_HOME" ".config") appName)

end UserDirectory

end EditorServices
