import EditorServices.Json.Fields
import EditorServices.Json.Printer

/-!
# `Schema.Issue` — what is wrong with a value, and where

## Contents
- **Places.** `Step` and `Place`, the path from the checked value to the faulty part.
- **Issues.** `IssueKind` with its `code` and `message`; `Issue` joins a kind to a place
  and the value there.
-/

namespace EditorServices.Schema

/-! ## Places -/

/-- One step into a value. -/
inductive Step where
  | key (name : String)
  | index (n : Nat)
deriving DecidableEq, Repr

/-- The steps from a value to a part of it. -/
abbrev Place := List Step

namespace Step

def toJson : Step → Json
  | .key name => .str name
  | .index n => .int n

end Step

/-! ## Issues -/

/-- What can be wrong with a value. -/
inductive IssueKind where
  | missing
  | stringType
  | intType
  | intParsing
  | intFromFloat
  | intTooLarge
  | finiteNumber
  | atLeast (n : Int)
  | boolType
  | boolParsing
  | listType
  | dictType
  | modelType (name : String)
  | literal (choices : List String)
  | enum (choices : List Int)
  | rule (text : String)
  | extra
  /-- A record is nested in records of its kind too deeply. -/
  | tooDeep
deriving DecidableEq, Repr

/-- Texts in a row, the last one joined by `or`. -/
def orList : List String → String
  | [] => ""
  | [x] => x
  | [x, y] => x ++ " or " ++ y
  | x :: rest => x ++ ", " ++ orList rest

namespace IssueKind

/-- The short name of a kind. -/
def code : IssueKind → String
  | .missing => "missing"
  | .stringType => "string_type"
  | .intType => "int_type"
  | .intParsing => "int_parsing"
  | .intFromFloat => "int_from_float"
  | .intTooLarge => "int_parsing_size"
  | .finiteNumber => "finite_number"
  | .atLeast _ => "greater_than_equal"
  | .boolType => "bool_type"
  | .boolParsing => "bool_parsing"
  | .listType => "list_type"
  | .dictType => "dict_type"
  | .modelType _ => "model_type"
  | .literal _ => "literal_error"
  | .enum _ => "enum"
  | .rule _ => "value_error"
  | .extra => "extra_forbidden"
  | .tooDeep => "recursion_loop"

/-- The wording of a kind. -/
def message : IssueKind → String
  | .missing => "Field required"
  | .stringType => "Input should be a valid string"
  | .intType => "Input should be a valid integer"
  | .intParsing => "Input should be a valid integer, unable to parse string as an integer"
  | .intFromFloat => "Input should be a valid integer, got a number with a fractional part"
  | .intTooLarge => "Unable to parse input string as an integer, exceeded maximum size"
  | .finiteNumber => "Input should be a finite number"
  | .atLeast n =>
    "Input should be greater than or equal to " ++ String.ofList (intDigits n)
  | .boolType => "Input should be a valid boolean"
  | .boolParsing => "Input should be a valid boolean, unable to interpret input"
  | .listType => "Input should be a valid list"
  | .dictType => "Input should be a valid dictionary"
  | .modelType name => "Input should be a valid dictionary or instance of " ++ name
  | .literal choices => "Input should be " ++ orList (choices.map fun c => "'" ++ c ++ "'")
  | .enum choices => "Input should be " ++ orList (choices.map fun n => String.ofList (intDigits n))
  | .rule text => "Value error, " ++ text
  | .extra => "Extra inputs are not permitted"
  | .tooDeep => "Recursion error - cyclic reference detected"

end IssueKind

/-- A fault at a place, with the value that is at fault. -/
structure Issue where
  place : Place
  kind : IssueKind
  value : Json
deriving DecidableEq

/-- The structured form of a fault. -/
def Issue.toJson (i : Issue) : Json :=
  .obj [("loc", .arr (i.place.map Step.toJson)), ("type", .str i.kind.code),
    ("msg", .str i.kind.message)]

/-- The same fault seen from one step further out. -/
def Issue.under (s : Step) (i : Issue) : Issue := { i with place := s :: i.place }

end EditorServices.Schema
