import CoqConsole.Markup.Layout

/-!
# Search hits and query answers

* `SearchHit` : one result of a search: the search's ticket, a name and a statement;
* `SearchHit.ofJson`, `SearchHit.render`;
* `renderAnswer` : the lines of the answer to a query, none for null.
-/

namespace CoqConsole

open Markup (Doc Room)

/-- One result of a search. -/
structure SearchHit where
  id : Int
  name : Doc
  statement : Doc
  deriving Repr, Inhabited

namespace SearchHit

def ofJson (params : Json) : Except Failure SearchHit := do
  let id ← (← params.member "id").toInt
  let name ← Doc.ofJson (← params.member "name")
  let statement ← Doc.ofJson (← params.member "statement")
  return ⟨id, name, statement⟩

def closeWithColon : List String → List String
  | [] => []
  | [line] => [line ++ ":"]
  | line :: rest => line :: closeWithColon rest

/-- The name, the statement indented by two, and an empty line. -/
def render (hit : SearchHit) (room : Room := .ample) : Except Failure (List String) := do
  let name ← hit.name.render room
  let statement ← hit.statement.render room
  return closeWithColon name ++ statement.map ("  " ++ ·) ++ [""]

end SearchHit

def renderAnswer (wire : Json) (room : Room := .ample) : Except Failure (List String) :=
  match wire with
  | .null => .ok []
  | wire => Doc.ofJson wire >>= fun d => d.render room

end CoqConsole
