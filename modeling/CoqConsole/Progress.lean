import CoqConsole.Buffer.Basic

/-!
# Progress

The server tells which ranges it has checked and which it was sent. They become marks of one
namespace, all replaced at each update.

* `Status` : its name, style and rank;
* `Progress.ofNotification` : the ranges of a notification, by status;
* `Progress.regions` : the ranges in the text as it is now;
* `Progress.marks`, `Progress.apply`.
-/

namespace CoqConsole

/-- How far a region has come. -/
inductive Status
  | checked
  | sent
  deriving DecidableEq, Repr

namespace Status

def name : Status → String
  | checked => "checked"
  | sent => "sent"

def style : Status → String
  | checked => "CoqtailChecked"
  | sent => "CoqtailSent"

/-- Of two marks the one of higher rank is shown. -/
def rank : Status → Int
  | checked => 1
  | sent => 0

def named (name : String) : Except Failure Status :=
  match [checked, sent].find? fun s => s.name == name with
  | some s => .ok s
  | none => .error (.unknownStatus name)

end Status

namespace Progress

/-- The priority of marks of rank zero. -/
def basePriority : Int := 200

/-- The namespace where none is given. -/
def defaultNamespace : String := "vscoq-progress"

/-- A list under a key: empty if it is missing or counts as nothing. -/
def rangesUnder (key : String) (params : Json) : Except Failure Json := do
  match ← params.find key with
  | none => return .array []
  | some v => if v.truthy then return .array (← v.elements) else return .array []

/-- The ranges of a notification, by status. -/
def ofNotification (params : Json) : Except Failure (List (String × Json)) := do
  let checked ← rangesUnder "processedRange" params
  let sent ← rangesUnder "parsedRange" params
  return [(Status.checked.name, checked), (Status.sent.name, sent)]

/-- A range of a status. -/
structure Region where
  span : Span
  status : Status
  deriving DecidableEq, Repr

def regionsOf (lines : List String) (encoding : Json) (entry : String × Json) :
    Except Failure (List Region) := do
  let status ← Status.named entry.1
  (← entry.2.elements).mapM fun range => do return ⟨← Span.ofWire lines range encoding, status⟩

/-- The ranges in the text, status by status. -/
def regions (lines : List String) (encoding : Json) (highlights : List (String × Json)) :
    Except Failure (List Region) := do
  return (← highlights.mapM (regionsOf lines encoding)).flatten

/-- By start, then by end, then by rank. -/
def Region.le (a b : Region) : Bool :=
  if !a.span.start.eqv b.span.start then a.span.start.le b.span.start
  else if !a.span.stop.eqv b.span.stop then a.span.stop.le b.span.stop
  else decide (a.status.rank ≤ b.status.rank)

def Region.mark (r : Region) : Mark :=
  ⟨r.span.start, r.span.stop, r.status.style, basePriority + r.status.rank⟩

/-- The marks of regions, sorted. -/
def marks (rs : List Region) : List Mark := (rs.mergeSort Region.le).map Region.mark

/-- Replace the marks of a namespace by those of the given ranges. -/
def apply {κ : Type} (b : Buffer κ Mark) (ns : String) (highlights : List (String × Json))
    (encoding : Json) : Except Failure (Buffer κ Mark) := do
  return b.setMarks ns (marks (← regions b.lines encoding highlights))

end Progress
end CoqConsole
