import EditorServices.Text.Blank
import EditorServices.Text.LowerCase

/-!
# `Log.Level` — severities and line formats

## Contents
- `Level` with its rank and names, `Format` with its names.
- `Level.parse?` and `Format.parse?`, which look past case and surrounding blanks.
-/

namespace EditorServices.Log

/-! ## Severities -/

inductive Level where
  | debug
  | info
  | warn
  | error
deriving DecidableEq, Repr, Inhabited

namespace Level

/-- Lines below the configured rank are dropped. -/
def rank : Level → Nat
  | .debug => 0
  | .info => 1
  | .warn => 2
  | .error => 3

/-- The name in lines. -/
def lower : Level → String
  | .debug => "debug"
  | .info => "info"
  | .warn => "warn"
  | .error => "error"

/-- The name in capitals. -/
def upper : Level → String
  | .debug => "DEBUG"
  | .info => "INFO"
  | .warn => "WARN"
  | .error => "ERROR"

/-- The severity of a name in lines. -/
def called? (name : String) : Option Level :=
  [debug, info, warn, error].find? fun level => level.lower = name

/-- The severity that a text names. -/
def parse? (s : String) : Option Level :=
  let word := String.ofList (lowerText (strip s.toList))
  if word = "warn" ∨ word = "warning" then some .warn
  else if word = "debug" then some .debug
  else if word = "info" then some .info
  else if word = "error" then some .error
  else none

end Level

/-! ## Line formats -/

inductive Format where
  | kv
  | json
  | pretty
deriving DecidableEq, Repr, Inhabited

namespace Format

def name : Format → String
  | .kv => "kv"
  | .json => "json"
  | .pretty => "pretty"

/-- The format that a text names. -/
def parse? (s : String) : Option Format :=
  let word := String.ofList (lowerText (strip s.toList))
  if word = "kv" then some .kv
  else if word = "json" then some .json
  else if word = "pretty" then some .pretty
  else none

end Format

end EditorServices.Log
