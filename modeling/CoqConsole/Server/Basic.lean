import CoqConsole.Json.Value
import CoqConsole.Frame

/-!
# Server processes

A process is known by what it does: a reaction to each message that it gets, and to signals. What it
writes stays in its streams until someone reads it.

* `Act` : what a process does in a row;
* `Behaviour` : how it reacts;
* `Server`, `Server.perform`, `Server.finish`.
-/

namespace CoqConsole

/-- Whether what is written to a process gets through to it. -/
inductive Intake
  | flows
  /-- The pipe is full: what is written is held back until it flows again. -/
  | stalls
  /-- The process takes nothing any more. -/
  | closed
  deriving DecidableEq, Repr

inductive Act
  /-- Write to the output. -/
  | emit (octets : List UInt8)
  /-- Write to the error stream. -/
  | complain (octets : List UInt8)
  /-- End the output and go on. -/
  | closeOutput
  | exit (code : Int)
  /-- Take what is written to it from now on, or not. -/
  | intake (state : Intake)
  /-- Do the rest later, after so many ticks. -/
  | pause (duration : Int)
  deriving Repr

/-- What a process does when it is asked to terminate. -/
inductive TermResponse
  | ends
  | ignores
  /-- The signal cannot be sent. -/
  | fails
  deriving DecidableEq, Repr

structure Behaviour where
  /-- To a message, given those before it. -/
  react : List Json → Json → List Act
  /-- Whether there is a program to run. -/
  exists? : Bool
  onTerm : TermResponse
  /-- Whether the pipe breaks when the message is flushed. -/
  breaksOn : Json → Bool
  /-- Whether the client may not kill it. -/
  withstandsKill : Bool

structure Server where
  behaviour : Behaviour
  inbox : List Json
  /-- What it will do, and when. -/
  agenda : List (Int × List Act)
  output : List UInt8
  outputOpen : Bool
  errors : List UInt8
  errorsOpen : Bool
  returncode : Option Int
  intake : Intake
  /-- How often what was held back got through. -/
  cleared : Nat

namespace Server

def fresh (b : Behaviour) : Server := ⟨b, [], [], [], true, [], true, none, .flows, 0⟩

def unborn (b : Behaviour) : Server := ⟨b, [], [], [], false, [], false, some 127, .closed, 0⟩

def isAlive (p : Server) : Bool := p.returncode.isNone

/-- End a process: its streams end and nothing more is done. -/
def finish (p : Server) (code : Int) : Server :=
  if p.isAlive then
    { p with returncode := some code, outputOpen := false, errorsOpen := false, agenda := [] }
  else p

/-- Take what is written from now on, or not. A process that takes nothing any more does not begin again. -/
def turn (p : Server) (state : Intake) : Server :=
  match p.intake, state with
  | .closed, _ => p
  | .stalls, .flows => { p with intake := .flows, cleared := p.cleared + 1 }
  | _, state => { p with intake := state }

/-- Do what is given, at a time. A process that has ended does nothing. -/
def perform (now : Int) : List Act → Server → Server
  | [], p => p
  | act :: rest, p =>
    if p.isAlive then
      match act with
      | .emit octets =>
        perform now rest (if p.outputOpen then { p with output := p.output ++ octets } else p)
      | .complain octets =>
        perform now rest (if p.errorsOpen then { p with errors := p.errors ++ octets } else p)
      | .closeOutput => perform now rest { p with outputOpen := false }
      | .exit code => p.finish code
      | .intake state => perform now rest (p.turn state)
      | .pause duration => { p with agenda := p.agenda ++ [(now + duration, rest)] }
    else p

/-- Take a message: it is kept, and the process reacts unless it has ended. -/
def take (now : Int) (message : Json) (p : Server) : Server :=
  if p.isAlive then
    perform now (p.behaviour.react p.inbox message) { p with inbox := p.inbox ++ [message] }
  else p

def due? (p : Server) : Option Int :=
  (p.agenda.map (·.1)).foldl (fun best t => some (match best with | some b => min b t | none => t)) none

def wake (now : Int) (p : Server) : Server :=
  match p.agenda.find? fun (t, _) => decide (t ≤ now) with
  | none => p
  | some (t, acts) =>
    perform now acts { p with agenda := p.agenda.eraseP fun (u, _) => decide (u = t) }

end Server
end CoqConsole
