import CoqConsole.Json.Key
import CoqConsole.Line.Basic

/-!
# Requests on a line

* `Line.post` : write a request; it is pending until the call that made it goes on;
* `Line.cancel` : ask the server to drop a request;
* `Line.collect` : the result of a request whose wait is over;
* `Line.settle`, `Line.failPending` : answers come, or cannot come any more.
-/

namespace CoqConsole.Line

def request (id : Nat) (method params : Json) : Json :=
  .object [("jsonrpc", .text "2.0"), ("id", .int id), ("method", method), ("params", params)]

/-- A request is pending no more, and an answer to it is not kept. -/
def forget (id : Nat) : Op Unit :=
  edit fun l => { l with pending := l.pending.erase id, settled := Keyed.erase id l.settled }

/-- Write a request; what is waited for is its answer, once the request has got through. -/
def transmit (id : Nat) (method params timeout : Json) : Op Wait := do
  let message := request id method params
  write message
  let w ← get
  if (w.line.process.map fun p => w.host.breaks p message).getD false then throw .brokenPipe
  match w.stalled? with
  | some (p, cleared) => return .flush id p cleared timeout
  | none => return .answer id (← (Limit.after w.host.now timeout : Except Failure Limit))

/-- Write a request. Its number is used up even if it cannot be waited for. -/
def post (method params timeout : Json) : Op (Nat × Wait) := do
  let id := (← get).line.nextId
  edit fun l => { l with nextId := id + 1, pending := l.pending ++ [id] }
  match ← attempt (transmit id method params timeout) with
  | .ok wait => return (id, wait)
  | .error cause =>
    forget id
    throw cause

/-- The number that a value names as a key. -/
def keyOf (v : Json) : Except Failure (Option Nat) :=
  v.key.map fun
    | .whole n => if 0 ≤ n then some n.toNat else none
    | _ => none

/-- Ask the server to drop a request, whether one of that number is pending or not. An answer that still
comes is of no use. Nothing is looked for where nothing is pending. -/
def cancel (id : Json) : Op Unit := do
  unless (← get).line.pending.isEmpty do
    match ← (keyOf id : Except Failure (Option Nat)) with
    | some n => edit fun l => { l with pending := l.pending.erase n }
    | none => pure ()
  if (← get).isRunning then notify "$/cancelRequest" (.object [("id", id)])

def resultOf (method params answer : Json) : Except Failure Json :=
  match answer.get? "error" with
  | some .null => .ok ((answer.get? "result").getD .null)
  | some error => .error (.ofRefusal method params error)
  | none => .ok ((answer.get? "result").getD .null)

/-- The result of a request whose wait is over. -/
def collect (id : Nat) (method params : Json) : Ending → Op Json
  | .late => do
    cancel (.int id)
    forget id
    throw .timedOut
  | .failed cause => do
    forget id
    throw cause
  | .met => do
    let answer := Keyed.get? id (← get).line.settled
    forget id
    match answer with
    | some (.ok message) => (resultOf method params message : Except Failure Json)
    | some (.error cause) => throw cause
    | none => throw .lostConnection

/-- The first answer to a pending request is kept. -/
def settle (id : Nat) (answer : Except Failure Json) (l : Line) : Line :=
  if l.pending.contains id && !Keyed.has id l.settled then
    { l with settled := l.settled ++ [(id, answer)] }
  else l

def failPending (cause : Failure) (l : Line) : Line :=
  { l.pending.foldl (fun l id => l.settle id (.error cause)) l with pending := [] }

end CoqConsole.Line
