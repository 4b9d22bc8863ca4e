import CoqConsole.ProofView.Goals

/-!
# Proof views

* `ProofView` : the goals of a proof, if there is one, and messages with their severities;
* `ProofView.ofJson` : reading one; the messages are read first;
* `ProofView.render` : goals, then the sections that are not empty.
-/

namespace CoqConsole

open Markup (Doc Room)

/-- What the server shows of a proof. -/
structure ProofView where
  proof : Option Proof
  messages : List (Int × Doc)
  deriving Repr, Inhabited

namespace ProofView

/-- Read one message: a severity and a tree. -/
def messageOfJson (v : Json) : Except Failure (Int × Doc) := do
  let (severity, wire) ← v.pair
  let severity ← severity.toInt
  return (severity, ← Doc.ofJson wire)

/-- Whether a failure while messages are read is about their shape rather than about a tree. -/
def isShapeFailure : Failure → Bool
  | .noElements _ | .wrongCount | .noNumber _ | .badNumeral _ | .longNumeral _ | .undefinedNumber => true
  | _ => false

def messagesOfJson (messages : Json) : Except Failure (List (Int × Doc)) :=
  match messages.elements >>= (·.mapM messageOfJson) with
  | .ok list => .ok list
  | .error cause => .error (if isShapeFailure cause then .malformedMessages messages else cause)

def ofJson (params : Json) : Except Failure ProofView := do
  let proof ← params.find "proof"
  let messages ← messagesOfJson ((← params.find "messages").getD (.array []))
  match proof with
  | some p => if p.truthy then return ⟨some (← Proof.ofJson p), messages⟩ else return ⟨none, messages⟩
  | none => return ⟨none, messages⟩

/-- The names of severities from one on. -/
def severityNames : List String := ["Error", "Warning", "Information"]

def severityName (severity : Int) : String :=
  if 1 ≤ severity then (severityNames[severity.toNat - 1]?).getD s!"Unknown {severity}"
  else s!"Unknown {severity}"

/-- The name of a number in the place of a severity; a number between two names has none. -/
def severityNameOf : Scalar → Except Failure String
  | .whole n => .ok (severityName n)
  | x =>
    if Scalar.le 1 x && x.le (.whole severityNames.length) then
      match x.index? with
      | some n => .ok (severityName n)
      | none => .error .wrongKind
    else .ok s!"Unknown {(Json.ofScalar x).shown}"

/-- The lines of messages, each under its severity. -/
def renderMessages (room : Room) : List (Int × Doc) → Except Failure (List String)
  | [] => .ok []
  | (severity, d) :: rest => do
    let lines ← d.render room
    let more ← renderMessages room rest
    return s!"{severityName severity}:" :: lines ++ more

/-- The width of a section's header. -/
def sectionWidth : Nat := 68

def sectionHeader (label : String) : List String :=
  let title := label.toList ++ [' ']
  ["", "", String.ofList (title ++ List.replicate (sectionWidth - title.length) '━'), ""]

/-- A section: nothing if there is nothing to show. -/
def renderSection {α : Type} (label : String) (render : List α → Except Failure (List String)) :
    List α → Except Failure (List String)
  | [] => .ok []
  | items => (render items).map (sectionHeader label ++ ·)

def render (view : ProofView) (room : Room := .ample) : Except Failure (List String) := do
  let goals ← renderGoals (view.proof.map Proof.goals |>.getD []) room
  let messages ← renderSection "Messages" (renderMessages room) view.messages
  let shelved ← renderSection "Shelved" (renderGoals · room) (view.proof.map Proof.shelved |>.getD [])
  let givenUp ← renderSection "Given Up" (renderGoals · room) (view.proof.map Proof.givenUp |>.getD [])
  return goals ++ messages ++ shelved ++ givenUp

end ProofView
end CoqConsole
