import CoqConsole.Notice
import CoqConsole.Path
import CoqConsole.Server.Basic

/-!
# The host

The host runs processes, numbered as they were spawned, and keeps a chronicle of what the client wrote
to them, of what was done to them, and of what was logged.

* `Record` : a line of the log;
* `Deed` : what was done to a process;
* `Host`, `Host.spawn`, `Host.deliver`, `Host.terminate`, `Host.kill`, `Host.record`.
-/

namespace CoqConsole

/-- A line of the log. -/
inductive Record
  /-- A line of a server's error stream. -/
  | heard (line : String)
  /-- A server's output ended inside a message. -/
  | cutShort
  /-- A server's output cannot be read any further. -/
  | unreadable (cause : Failure)
  /-- A notification could not be handled. -/
  | unhandled (method : String) (cause : Failure)
  /-- A request failed. -/
  | notice (n : Notice)
  deriving Repr

namespace Record

def text : Record → String
  | heard line => "vscoqtop: " ++ line
  | cutShort => "vscoqtop closed stdout mid-message"
  | unreadable _ => "Unreadable message from vscoqtop"
  | unhandled method _ => s!"Error handling {method}"
  | notice n => n.text

def cause? : Record → Option Failure
  | unreadable cause => some cause
  | unhandled _ cause => some cause
  | _ => none

/-- Whether a record tells of an error rather than warns. -/
def isError (r : Record) : Bool := r.cause?.isSome

end Record

/-- What was done to a process. -/
inductive Deed
  | spawned (command : List String) (cwd : String) (environment : List (String × Json))
  | terminated
  | killed
  deriving Repr

/-- A machine that runs processes. -/
structure Host where
  now : Int
  cwd : Path
  environment : List (String × Json)
  /-- The number of the client's own process. -/
  clientPid : Nat
  /-- The number of the first process spawned. -/
  basePid : Nat
  /-- What each process spawned runs. -/
  programs : Nat → Behaviour
  processes : List Server
  wire : List (Nat × Json)
  deeds : List (Nat × Deed)
  records : List Record

namespace Host

def process? (h : Host) (p : Nat) : Option Server := h.processes[p]?

def isAlive (h : Host) (p : Nat) : Bool := ((h.process? p).map Server.isAlive).getD false

def edit (h : Host) (p : Nat) (f : Server → Server) : Host :=
  { h with processes := h.processes.modify p f }

def record (h : Host) (r : Record) : Host := { h with records := h.records ++ [r] }

def note (h : Host) (p : Nat) (d : Deed) : Host := { h with deeds := h.deeds ++ [(p, d)] }

/-- Spawn a process; the result is its number, if there was a program to run. -/
def spawn (h : Host) (command : List String) (cwd : String) (environment : List (String × Json)) :
    Option Nat × Host :=
  let p := h.processes.length
  let b := h.programs p
  let h := h.note p (.spawned command cwd environment)
  if b.exists? then (some p, { h with processes := h.processes ++ [.fresh b] })
  else (none, { h with processes := h.processes ++ [.unborn b] })

def deliver (h : Host) (p : Nat) (message : Json) : Host :=
  ({ h with wire := h.wire ++ [(p, message)] }).edit p (Server.take h.now message)

/-- Let a process do something of its own accord. -/
def command (h : Host) (p : Nat) (acts : List Act) : Host := h.edit p (Server.perform h.now acts)

/-- Whether a process takes what is written to it, and how often what was held back got through. -/
def intake (h : Host) (p : Nat) : Intake × Nat := ((h.process? p).map fun q => (q.intake, q.cleared)).getD (.closed, 0)

/-- Whether the pipe to a process breaks when a message is flushed. -/
def breaks (h : Host) (p : Nat) (message : Json) : Bool :=
  ((h.process? p).map fun q => q.behaviour.breaksOn message || q.intake = .closed).getD false

/-- The return code of a process that a signal ended. -/
def signalCode (signal : Int) : Int := -signal

def terminate (h : Host) (p : Nat) : Host :=
  (h.note p .terminated).edit p fun q =>
    if q.behaviour.onTerm = .ends then q.finish (signalCode 15) else q

/-- Whether killing a process is refused. One that has ended is sent nothing. -/
def refusesKill (h : Host) (p : Nat) : Bool :=
  ((h.process? p).map fun q => q.isAlive && q.behaviour.withstandsKill).getD false

/-- Kill a process, unless that is refused. -/
def kill (h : Host) (p : Nat) : Host :=
  (h.note p .killed).edit p fun q => if q.behaviour.withstandsKill then q else q.finish (signalCode 9)

def due? (h : Host) : Option Int :=
  (h.processes.filterMap Server.due?).foldl
    (fun best t => some (match best with | some b => min b t | none => t)) none

/-- The process that is the first with something to do now. -/
def stirring? (h : Host) : Option Nat :=
  match h.due? with
  | some t => if t ≤ h.now then h.processes.findIdx? fun p => p.due? == some t else none
  | none => none

/-- Let a process do the first thing that is due. -/
def wake (h : Host) (p : Nat) : Host := h.edit p (Server.wake h.now)

end Host
end CoqConsole
