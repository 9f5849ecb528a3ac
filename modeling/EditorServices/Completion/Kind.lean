import EditorServices.Json.Basic

/-!
# `Completion.Kind` — kinds of completion items

## Contents
- `Kind` with its protocol number `code` and its name, and the reader `ofCode?`.
- `classify`: the kind that a server's value stands for.
-/

namespace EditorServices.Completion

/-- What a completion item is. -/
inductive Kind where
  | text | method | function | constructor | field | variable | classType | interface | module
  | property | unit | value | enum | keyword | snippet | color | file | reference | folder
  | enumMember | constant | struct | event | operator | typeParameter
deriving DecidableEq, Repr

namespace Kind

/-- All kinds in the order of their numbers. -/
def all : List Kind :=
  [.text, .method, .function, .constructor, .field, .variable, .classType, .interface, .module,
   .property, .unit, .value, .enum, .keyword, .snippet, .color, .file, .reference, .folder,
   .enumMember, .constant, .struct, .event, .operator, .typeParameter]

/-- The protocol number, from one on. -/
def code (k : Kind) : Nat := all.idxOf k + 1

/-- The name in capitals. -/
def name : Kind → String
  | .text => "TEXT" | .method => "METHOD" | .function => "FUNCTION"
  | .constructor => "CONSTRUCTOR" | .field => "FIELD" | .variable => "VARIABLE"
  | .classType => "CLASS" | .interface => "INTERFACE" | .module => "MODULE"
  | .property => "PROPERTY" | .unit => "UNIT" | .value => "VALUE" | .enum => "ENUM"
  | .keyword => "KEYWORD" | .snippet => "SNIPPET" | .color => "COLOR" | .file => "FILE"
  | .reference => "REFERENCE" | .folder => "FOLDER" | .enumMember => "ENUM_MEMBER"
  | .constant => "CONSTANT" | .struct => "STRUCT" | .event => "EVENT"
  | .operator => "OPERATOR" | .typeParameter => "TYPE_PARAMETER"

/-- The kind with a protocol number. -/
def ofCode? (n : Int) : Option Kind := all.find? fun k => (k.code : Int) = n

/-- The kind that a server's value stands for; text for anything but a known integer. -/
def classify : Json → Kind
  | .int n => (ofCode? n).getD .text
  | _ => .text

end Kind

end EditorServices.Completion
