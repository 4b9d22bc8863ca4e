import CoqConsole.Position
import CoqConsole.Rota
import CoqConsole.Server.Host

/-!
# A line to a server

A line writes to one server process at a time and reads what it writes. Requests are numbered; one is
pending until it is answered, given up or lost.

* `Line` : the state; `Wired` : a line and the host its processes run on;
* `Wait`, `Plan`, `Suspended`, `Standing` : how far a call has come, as data;
* `Line.Op` : operations, which keep what they did before a failure;
* `Line.write`, `Line.notify`.
-/

namespace CoqConsole

/-- A line to a server. -/
structure Line where
  /-- The server's directory as it was given. -/
  workdir : String
  command : List String
  /-- What the server finds in its environment beside the client's own. It is looked at when a process is
  spawned. -/
  environment : Json
  /-- The encodings offered to the server. -/
  offered : List Json
  encoding : Json
  serverInfo : Json
  capabilities : Json
  process : Option Nat
  /-- Whether the output of the process is still read. -/
  reading : Bool
  /-- Whether the streams of the process are about to be let go. -/
  closing : Bool
  /-- The processes whose error streams are listened to. -/
  listening : List Nat
  nextId : Nat
  pending : List Nat
  /-- Answers that wait to be collected, in the order in which they came. -/
  settled : List (Nat × Except Failure Json)

/-- A line and the host that its processes run on. -/
structure Wired where
  host : Host
  line : Line

/-- What a call waits for. -/
inductive Wait
  /-- A request gets through to a process whose pipe was cleared so often; its answer is then waited for. -/
  | flush (id process cleared : Nat) (timeout : Json)
  | answer (id : Nat) (limit : Limit)
  | exit (process : Nat) (limit : Limit)
  /-- The streams of a process are read no more. -/
  | quiet (process : Nat)
  deriving Repr

namespace Wait

def limit : Wait → Limit
  | flush .. => .never
  | answer _ limit => limit
  | exit _ limit => limit
  | quiet _ => .never

def pace : Wait → Pace
  | flush .. => .ofLimit .never
  | answer _ limit => .ofLimit limit
  | exit _ limit => .watched limit
  | quiet _ => ⟨false, 1, 0⟩

end Wait

/-- What a call does once its wait is over. -/
inductive Plan
  /-- Return the result of a request. -/
  | request (id : Nat) (method params : Json)
  /-- Go on with the handshake; a brief call then stops the server. -/
  | greeting (id : Nat) (params : Json) (brief : Bool)
  /-- The server agreed to shut down: tell it to exit. -/
  | parting (id : Nat) (result : Json)
  /-- The server was told to exit. -/
  | leaving (result : Json)
  /-- The server was asked to terminate. -/
  | terminating (result : Json)
  /-- The streams were let go. -/
  | closing (result : Json)
  deriving Repr

structure Suspended where
  wait : Wait
  plan : Plan
  deriving Repr

inductive Ending
  | met
  | late
  /-- A request could not be sent, or its answer not be waited for. -/
  | failed (cause : Failure)

/-- A wait that ended in time or too late. -/
def Ending.ofLate (late : Bool) : Ending := if late then .late else .met

/-- How far a call has come. -/
inductive Standing
  | finished (value : Json)
  | waiting (call : Suspended)

namespace Line

def fresh (workdir : String) (command : List String) (environment : Json) (offered : List Json) : Line :=
  ⟨Path.tidy workdir, command, environment, offered, Encoding.defaultName, .null, .object [], none, false,
    false, [], 1, [], []⟩

/-- Operations on a line, which keep what they did before a failure. -/
abbrev Op := ExceptT Failure (StateM Wired)

def edit (f : Line → Line) : Op Unit := modify fun w => { w with line := f w.line }

def editHost (f : Host → Host) : Op Unit := modify fun w => { w with host := f w.host }

def attempt {α : Type} (op : Op α) : Op (Except Failure α) :=
  tryCatch (op >>= fun a => return .ok a) fun cause => return .error cause

end Line

namespace Wired

/-- The process to write to: it is there, has not ended, and its output is read. -/
def running? (w : Wired) : Option Nat :=
  match w.line.process with
  | some p => if w.host.isAlive p && w.line.reading then some p else none
  | none => none

def isRunning (w : Wired) : Bool := w.running?.isSome

/-- The process, if what is written to it is held back, and how often that got through. -/
def stalled? (w : Wired) : Option (Nat × Nat) := do
  let p ← w.line.process
  let (state, cleared) := w.host.intake p
  if state = .stalls then some (p, cleared) else none

end Wired

namespace Line

def write (message : Json) : Op Unit := do
  match (← get).running? with
  | some p => editHost (·.deliver p message)
  | none => throw .notRunning

def notification (method params : Json) : Json :=
  .object [("jsonrpc", .text "2.0"), ("method", method), ("params", params)]

def notify (method params : Json) : Op Unit := write (notification method params)

end Line
end CoqConsole
