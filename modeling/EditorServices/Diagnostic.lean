import EditorServices.Schema.Checked

/-!
# `Diagnostic` — what a server reports about a document
-/

namespace EditorServices

open Schema

/-- A problem that a server reports. -/
structure Diagnostic where
  range : Members
  message : String
  /-- One for an error, two for a warning, three for information, four for a hint. -/
  severity : Int
  source : Option String
  code : Json
deriving DecidableEq

namespace Diagnostic

def errorSeverity : Int := 1
def warningSeverity : Int := 2

def rangeField : FieldName := .plain "range"
def messageField : FieldName := .plain "message"
def severityField : FieldName := .plain "severity"
def sourceField : FieldName := .plain "source"
def codeField : FieldName := .plain "code"

def checkMembers (ms : Members) : Checked Diagnostic :=
  Diagnostic.mk
    <$> required ms rangeField dict
    <*> required ms messageField string
    <*> optional ms severityField errorSeverity integer
    <*> optional ms sourceField none (nullable string)
    <*> optional ms codeField .null .valid

/-- A diagnostic as a server sends it; names that are not known are left out. -/
def check : Json → Checked Diagnostic := record "LSPDiagnostic" checkMembers

def toJson (d : Diagnostic) : Json :=
  .obj [("range", .obj d.range), ("message", .str d.message), ("severity", .int d.severity),
    ("source", .ofText? d.source), ("code", d.code)]

end Diagnostic

end EditorServices
