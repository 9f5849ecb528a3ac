import EditorServices.Failure

/-!
# `Config.Merge` — one configuration laid over another

Objects are merged member by member at every depth; any other value replaces what it covers.
-/

namespace EditorServices.Config

mutual

/-- `override` laid over `base`. A name of `base` keeps its place. -/
def merge (base : Members) : (override : List (String × Json)) → Members
  | [] => base
  | (name, value) :: rest => merge (base.put name (mergeValue (base.get? name) value)) rest

/-- A value laid over the value that stood there, if any. -/
def mergeValue (old : Option Json) : Json → Json
  | .obj override =>
    match old with
    | some (.obj base) => .obj (merge base override)
    | _ => .obj override
  | value => value

end

/-- A value of any kind laid over another. Both have to be objects, but a list stays as it is when
an object without members is laid over it. -/
def mergeAny (base override : Json) : Except Failure Json :=
  match base, override with
  | .arr items, .obj [] => .ok (.arr items)
  | _, _ => do
    let base ← Failure.membersOf base
    let override ← Failure.membersOf override
    return .obj (merge base override)

end EditorServices.Config
