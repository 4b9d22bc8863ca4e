import CoqConsole.Session.Basic
import CoqConsole.Text.Blank
import CoqConsole.Time

/-!
# What the tools say

* `Wording.truncate` : the head of an output that has not enough room;
* `Wording.proofView`, `Wording.lateView`, `Wording.results` : panes as answers;
* `Wording.lastNotice` : why a request failed;
* `Wording.region` : a mark in one line;
* `Wording.sessionHeader`, `Wording.sessionRow` : the table of sessions.
-/

namespace CoqConsole.Wording

/-- The head of an output that has not enough room. -/
def truncate (output : String) (room : Json) : Except Failure String := do
  let size ← room.toScalar
  if size.lt 1 then return s!"ERROR: max_output must be positive (got {room.shown})"
  if size.lt (.whole output.length) then
    match size.index? with
    | some n =>
      return String.ofList (output.toList.take n.toNat) ++
        s!"\n\n[TRUNCATED: {output.length} chars, showing first {room.shown}]"
    | none => throw .unevenPlace
  return output

/-- A text, or something else where it is blank. -/
def orElse (text other : String) : String := if (Text.trim text.toList).isEmpty then other else text

def proofView (s : Session) : String := orElse s.proofPane.text "No goals"

/-- The proof view where no new one came in time. -/
def lateView (timeout : Json) (s : Session) : String :=
  s!"(no proof view from server within {timeout.shown}s)\n\n{proofView s}"

def results (s : Session) : String := orElse s.queryPane.text "No results"

/-- Why a request failed: the last notice. -/
def lastNotice (s : Session) : String :=
  match s.notices.getLast? with
  | some n => "ERROR: " ++ n.text
  | none => "ERROR: request failed"

/-- A number of places before, in place of a place counted from one. -/
def ordinal (n : Scalar) : String := (Json.ofScalar (n.add 1)).shown

/-- A position, counted from one. -/
def place (p : Position) : String := s!"{ordinal p.row}:{ordinal p.col}"

def region (m : Mark) : String := s!"{place m.start}-{place m.stop} {m.style}"

/-- A text filled up with blanks on the right. -/
def pad (width : Nat) (s : String) : String :=
  s ++ String.ofList (List.replicate (width - s.length) ' ')

/-- The width that a directory has room for. -/
def directoryWidth : Nat := 40

/-- A directory, its beginning left out if it is long. -/
def directory (path : String) : String :=
  if directoryWidth < path.length then
    "..." ++ String.ofList (path.toList.drop (path.length - (directoryWidth - 3)))
  else path

def row (name workdir age status mode files : String) : String :=
  String.intercalate " " [pad 12 name, pad 42 workdir, pad 7 age, pad 8 status, pad 11 mode, files]

/-- The head of the table of sessions. -/
def sessionHeader : List String :=
  [row "SESSION" "WORKDIR" "AGE" "STATUS" "MODE" "FILES", String.ofList (List.replicate 100 '-')]

/-- A name in the table: a truth value is shown as a number, and null cannot be shown. -/
def nameCell : Json → Except Failure String
  | .null => .error .wrongKind
  | .bool b => .ok (toString (Scalar.unitOf b))
  | name => .ok name.shown

def sessionRow (name workdir : String) (age : Int) (running : Bool) (mode : ProofMode)
    (files : List String) : String :=
  row name (directory workdir) (Time.ageText age) (if running then "running" else "dead") mode.name
    (if files.isEmpty then "(none)" else String.intercalate ", " files)

end CoqConsole.Wording
