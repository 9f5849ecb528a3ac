import EditorServices.Json.Fields

/-!
# `Environment` — environment variables

## Contents
- `Environment`: the variables of a process.
- `substitute`: the values of variables put in place of their references in a text.
-/

namespace EditorServices

/-- The variables of a process, by name. -/
abbrev Environment := Named String

namespace Environment

/-- The variables as an object. -/
def toJson (env : Environment) : Json := .obj (env.map fun (k, v) => (k, .str v))

/-- The variables that an object lists. -/
def ofJson (j : Json) : Environment := j.asMembers.map fun (k, v) => (k, v.asText)

/-- The value of a variable unless it is unset or empty. -/
def nonEmpty? (env : Environment) (name : String) : Option String :=
  (env.get? name).filter fun v => !v.isEmpty

/-- What opens a reference to a variable. -/
def opener : List Char := ['{', 'e', 'n', 'v', ':']

/-- The reference at the start of a text: the name of its variable and the text after it. A name has
at least one character and ends at the first closing brace. -/
def reference? (s : List Char) : Option (List Char × List Char) :=
  if opener.isPrefixOf s then
    let r := s.drop opener.length
    let name := r.takeWhile (· ≠ '}')
    match r.dropWhile (· ≠ '}') with
    | _ :: rest => if name = [] then none else some (name, rest)
    | [] => none
  else none

theorem reference?_length {s name rest : List Char} (h : reference? s = some (name, rest)) :
    rest.length < s.length := by
  unfold reference? at h
  dsimp only at h
  split at h
  · split at h
    · next heq =>
      split at h
      · simp at h
      · simp only [Option.some.injEq, Prod.mk.injEq] at h
        have h1 := (List.dropWhile_sublist (l := s.drop opener.length) (· ≠ '}')).length_le
        have h2 := congrArg List.length heq
        simp only [List.length_cons, List.length_drop] at h1 h2
        rw [← h.2]
        omega
    · simp at h
  · simp at h

/-- The text with each reference replaced by the value of its variable, the empty text if unset.
Values are not searched for references again. -/
def substitute (env : Environment) (s : List Char) : List Char :=
  match s with
  | [] => []
  | c :: r =>
    match _h : reference? (c :: r) with
    | some (name, rest) => ((env.get? (String.ofList name)).getD "").toList ++ substitute env rest
    | none => c :: substitute env r
termination_by s.length
decreasing_by
  · exact reference?_length ‹_›
  · simp

end Environment

end EditorServices
