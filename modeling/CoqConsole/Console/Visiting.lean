import CoqConsole.Console.State
import CoqConsole.Console.Wording
import CoqConsole.Session.Attachment
import CoqConsole.Session.Hearing
import CoqConsole.Session.Tuning

/-!
# What a tool does with an open file

* `Console.awaitView` : wait for the next proof view;
* `Console.send`, `Console.answered` : a request is sent, and answered;
* `Console.perform` : a task.
-/

namespace CoqConsole.Console

/-- Wait for a write to the proof pane after a revision. -/
def paneWait (k revision : Nat) (limit : Limit) (purpose : Purpose) : Turn :=
  .awaits ⟨k, .pane revision limit, purpose⟩

def awaitView (k : Nat) (timeout room : Json) : Op Turn := do
  let c ← get
  let limit ← (Limit.after c.host.now timeout : Except Failure Limit)
  return paneWait k (c.seatAt k).session.proofPane.revision limit (.viewing timeout room)

/-- Say as much of an output as there is room for. -/
def say (output : String) (room : Json) : Op Turn :=
  return .said (← (Wording.truncate output room : Except Failure String))

def showResults (k : Nat) (room : Json) : Op Turn := do say (Wording.results (← session k)) room

def follow (k : Nat) : Sequel → Op Turn
  | .collect wait room => do
    let pause ← (wait.toScalar : Except Failure Scalar)
    if Scalar.lt 0 pause then
      return .awaits ⟨k, .sleep ((← get).host.now + Time.ticks pause), .collecting room⟩
    else showResults k room
  | .show room => do say (← session k).queryPane.text room
  | .confirm uri => return .said s!"Reset {uri}"

def answered (k : Nat) (query : Query) (sequel : Sequel) (answer : Except Failure Json) : Op Turn := do
  if ← withDesk k (Desk.finish query answer) then follow k sequel
  else return .said (Wording.lastNotice (← session k))

def pursue (k : Nat) (query : Query) (sequel : Sequel) (r : Except Failure Standing) : Op Turn :=
  match r with
  | .ok (.waiting call) => return .awaits ⟨k, .line call, .asking query sequel⟩
  | .ok (.finished value) => answered k query sequel (.ok value)
  | .error cause => answered k query sequel (.error cause)

def send (k n : Nat) (request : Request) (timeout : Json) (sequel : Sequel) : Op Turn := do
  let query ← withDesk k (Desk.begin lineCarrier n timeout request)
  pursue k query sequel (← attempt (withLine k (Line.ask (.text query.method) query.params query.timeout)))

def proofMode (k : Nat) : Op ProofMode := withDesk k Desk.proofMode

def perform (k n : Nat) : Task → Op Turn
  | .report => do
    let mode ← proofMode k
    let b := ((← get).desk k).bufferAt n
    return .said s!"Opened {b.uri} ({b.lines.length} lines, {mode.name} mode)"
  | .moveTo line col timeout room => do
    withDesk k (Desk.moveCursor lineCarrier n (← (Tool.position line col : Except Failure Position)))
    if (← proofMode k) = .continuous then awaitView k timeout room
    else
      let cursor := (((← get).desk k).bufferAt n).cursor
      return .said s!"Cursor at {Wording.place cursor} (manual mode, use coq_interpret_to_point)"
  | .interpret line col timeout room => do
    withDesk k (Desk.interpretTo lineCarrier n (← (Tool.place line col : Except Failure Place)))
    awaitView k timeout room
  | .step direction timeout room => do
    withDesk k (Desk.step lineCarrier n direction)
    awaitView k timeout room
  | .search pattern line col wait timeout room => do
    let place ← (Tool.place line col : Except Failure Place)
    send k n (.search pattern place) timeout (.collect wait room)
  | .question kind pattern line col timeout room => do
    let place ← (Tool.place line col : Except Failure Place)
    send k n (.question kind pattern place) timeout (.show room)
  | .reset timeout => do
    send k n .reset timeout (.confirm (((← get).desk k).bufferAt n).uri)

end CoqConsole.Console
