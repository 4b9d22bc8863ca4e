import CoqConsole.Failure

/-!
# Merging objects

* `Json.mergeMembers` : members laid over others: objects are merged, all else is replaced;
* `Json.merge` : the same on values, where only an object can be laid over and under.
-/

namespace CoqConsole.Json

mutual

/-- Lay members over others, one after the other. -/
def mergeMembers (base : List (String × Json)) : List (String × Json) → List (String × Json)
  | [] => base
  | (k, v) :: rest => mergeMembers (Keyed.put k (mergeValue (Keyed.get? k base) v) base) rest

def mergeValue (old : Option Json) : Json → Json
  | object patch =>
    match old with
    | some (object base) => object (mergeMembers base patch)
    | _ => object patch
  | v => v

end

def merge : Json → Json → Except Failure Json
  | object base, object patch => .ok (object (mergeMembers base patch))
  | base, object [] => .ok base
  | base, object ((_, object _) :: _) => .error (.noOperation base.kind "get")
  | _, object _ => .error .wrongKind
  | _, patch => .error (.noOperation patch.kind "items")

end CoqConsole.Json
