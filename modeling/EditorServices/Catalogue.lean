import EditorServices.Failure

/-!
# `Catalogue` — what can be looked up by name

The program's parts and components go by their names; some names stand for texts. What has no name
of its own cannot be shown.

## Contents
- **Entries.** `Entry`, and the tables of all that can be looked up.
- **Looking up.** `find?` and `lookUp`.
-/

namespace EditorServices.Catalogue

/-! ## Entries -/

/-- What a name stands for. -/
inductive Entry where
  /-- A text. -/
  | text (s : String)
  /-- Something with a name of its own. -/
  | named (name : String)
  /-- Something of a kind whose members have no names. -/
  | unnamed (kind : String)
deriving DecidableEq, Repr

/-- The name of the program. -/
def programName : String := "glint"

/-- The version of the program. -/
def version : String := "0.1.0"

/-- What the program is. -/
def description : String :=
  "Glint - language intelligence for editors.\n\n" ++
  "An LSP session client for a single open document plus an incremental\n" ++
  "syntax highlight cache for large buffers.\n"

/-- The names of the public components. -/
def components : List String :=
  ["Bus", "BusEvent", "GlobalPath", "LSPSession", "StdioTransport", "SocketTransport", "Transport",
   "HighlightCache", "Span", "Tokenizer", "Log"]

/-- The names of the parts that components belong to. -/
def parts : List String := ["core", "lsp", "highlight", "util", "cli"]

/-- The names of operations that everything with parts has. -/
def operations : List String :=
  ["__getattr__", "__init__", "__new__", "__repr__", "__str__", "__hash__", "__eq__", "__ne__",
   "__lt__", "__le__", "__gt__", "__ge__", "__dir__", "__format__", "__sizeof__", "__reduce__",
   "__reduce_ex__", "__getstate__", "__getattribute__", "__setattr__", "__delattr__",
   "__init_subclass__", "__subclasshook__"]

/-- Names that stand for texts. -/
def texts : List (String × String) :=
  [("__version__", version), ("__doc__", description), ("__name__", programName),
   ("__package__", programName)]

/-- Names that stand for things without names of their own, each with its kind. -/
def unnamed : List (String × String) :=
  [("__all__", "list"), ("__path__", "list"), ("__dict__", "dict"), ("__builtins__", "dict"),
   ("__annotations__", "dict"), ("__spec__", "ModuleSpec"), ("__loader__", "SourceFileLoader")]

/-! ## Looking up -/

/-- What a name stands for; none for a name that is not known. -/
def find? (name : String) : Option Entry :=
  if components.contains name || operations.contains name then some (.named name)
  else if parts.contains name then some (.named (programName ++ "." ++ name))
  else if name = "__class__" then some (.named "module")
  else ((texts.lookup name).map .text).or ((unnamed.lookup name).map .unnamed)

/-- What is shown for a name. -/
def lookUp (name : String) : Except Failure String :=
  match find? name with
  | some (.text s) => .ok s
  | some (.named n) => .ok n
  | some (.unnamed kind) =>
    .error (.unknownAttribute ("'" ++ kind ++ "' object has no attribute '__name__'"))
  | none => .error (.unknownAttribute ("module " ++ String.ofList (quoted programName.toList) ++
      " has no attribute " ++ String.ofList (quoted name.toList)))

end EditorServices.Catalogue
