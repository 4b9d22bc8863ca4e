import CoqConsole.Markup.Layout

/-!
# Goals of a proof

* `Goal`, `Proof` : goals with their hypotheses, in the three states they can be in;
* `Goal.ofJson`, `Proof.ofJson` : reading them;
* `Goal.render`, `renderGoals` : their lines.
-/

namespace CoqConsole

open Markup (Doc Room)

/-- A goal: what is to be shown from the hypotheses. -/
structure Goal where
  id : Json
  hypotheses : List Doc
  conclusion : Doc
  deriving Repr, Inhabited

/-- The goals of a proof: open, shelved and given up. -/
structure Proof where
  goals : List Goal
  shelved : List Goal
  givenUp : List Goal
  deriving Repr, Inhabited

/-- The elements under a key of an object: none if the key is missing. -/
def listUnder (key : String) (v : Json) : Except Failure (List Json) := do
  match ← v.find key with
  | none => return []
  | some list => list.elements

def Goal.ofJson (v : Json) : Except Failure Goal := do
  let id ← v.member "id"
  let hypotheses ← (← listUnder "hypotheses" v).mapM Doc.ofJson
  let conclusion ← Doc.ofJson (← v.member "goal")
  return ⟨id, hypotheses, conclusion⟩

def Proof.ofJson (v : Json) : Except Failure Proof := do
  let goals ← (← listUnder "goals" v).mapM Goal.ofJson
  let shelved ← (← listUnder "shelvedGoals" v).mapM Goal.ofJson
  let givenUp ← (← listUnder "givenUpGoals" v).mapM Goal.ofJson
  return ⟨goals, shelved, givenUp⟩

/-- The line between hypotheses and conclusion. -/
def goalRule : String := String.ofList (List.replicate 40 '=')

/-- The line between two goals. -/
def goalSeparator : String := String.ofList (List.replicate 60 '─')

/-- The lines of a goal, labelled with its place and the number of goals. -/
def Goal.labelled (place count : String) (g : Goal) (room : Room := .ample) : Except Failure (List String) := do
  let hypotheses ← g.hypotheses.mapM fun d => d.render room
  let conclusion ← g.conclusion.render room
  return s!"Goal {g.id.shown} ({place} / {count})" ::
    hypotheses.flatten ++ ["", goalRule, ""] ++ conclusion

/-- The lines of the `i`-th of `n` goals. -/
def Goal.render (i n : Int) (g : Goal) (room : Room := .ample) : Except Failure (List String) :=
  g.labelled (toString i) (toString n) room

/-- The lines of goals from the `i`-th of `n` on, with separators before all but the first. -/
def renderGoalsFrom (room : Room) (n : Int) : Int → List Goal → Except Failure (List String)
  | _, [] => .ok []
  | i, g :: rest => do
    let before := if 1 < i then ["", "", goalSeparator, ""] else []
    let lines ← g.render i n room
    let more ← renderGoalsFrom room n (i + 1) rest
    return before ++ lines ++ more

def renderGoals (goals : List Goal) (room : Room := .ample) : Except Failure (List String) :=
  renderGoalsFrom room goals.length 1 goals

end CoqConsole
