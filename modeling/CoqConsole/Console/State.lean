import CoqConsole.Console.Tool
import CoqConsole.Files
import CoqConsole.Line.Circuit

/-!
# The state of the console

* `Seat` : a session, its line to a server, and its open files;
* `Awaiting`, `Purpose`, `Errand` : how far a tool's call has come, as data;
* `Console` : seats by number, the names under which they are found, calls under way, files, host;
* `Console.Move` : what can happen;
* `Console.Op`, `Console.withLine`, `Console.withDesk` : operations, which keep what they did before a
  failure.
-/

namespace CoqConsole

/-- A session, its line to a server, and its open files. -/
structure Seat where
  line : Line
  session : Session
  buffers : List (Buffer Reaction Mark)
  /-- The numbers of the buffers of open files. -/
  documents : List (Path × Nat)
  started : Int
  workdir : Path

/-- What a call waits for. -/
inductive Awaiting
  /-- Something on the seat's line. -/
  | line (call : Suspended)
  /-- A write to the proof pane after a revision. -/
  | pane (revision : Nat) (limit : Limit)
  /-- The time. -/
  | sleep (until' : Int)
  deriving Repr

def Awaiting.pace : Awaiting → Pace
  | .line call => call.wait.pace
  | .pane _ limit => .watched limit
  | .sleep _ => .ofLimit .never

/-- What follows a request that succeeded. -/
inductive Sequel
  | collect (wait room : Json)
  | show (room : Json)
  | confirm (uri : String)
  deriving Repr

/-- What a call does once its wait is over. -/
inductive Purpose
  /-- A server is being started under a name, for a visit or for its own sake. -/
  | starting (name : Json) (next : Option Visit)
  /-- A server that could not be started is being stopped. -/
  | failing (cause : Failure)
  /-- The first proof view of a file that was just opened is due. -/
  | settling (visit : Visit) (buffer : Nat)
  | viewing (timeout room : Json)
  | asking (query : Query) (sequel : Sequel)
  | collecting (room : Json)
  | stopping (name : Json)
  deriving Repr

structure Errand where
  seat : Nat
  wait : Awaiting
  purpose : Purpose
  deriving Repr

/-- How far a call has come. -/
inductive Turn
  | said (text : String)
  | awaits (errand : Errand)

/-- A registered session: its name as it was given, and its seat. -/
structure Registration where
  name : Json
  seat : Nat
  deriving Repr

/-- What can happen at the console. -/
inductive Console.Move
  /-- A process does the first thing that is due. -/
  | wake (process : Nat)
  /-- A message is read on the line of a seat. -/
  | read (seat : Nat)
  /-- A line of an error stream is read. -/
  | listen (seat process : Nat)
  /-- A call goes on, in time or too late. -/
  | resume (call : Nat) (late : Bool)
  deriving DecidableEq, Repr

structure Console where
  host : Host
  files : Files
  seats : List Seat
  registry : List (Key × Registration)
  calls : List (Nat × Errand)
  made : Nat
  done : List (Nat × Except Failure Json)
  rota : Rota Console.Move

/-- A session's link to its server is its line. -/
def lineCarrier : Carrier Wired where
  send method params w :=
    match (Line.notify method params).run.run w with
    | (.ok (), w) => .ok w
    | (.error cause, _) => .error cause
  encoding w := w.line.encoding

namespace Console

/-- Operations on the console, which keep what they did before a failure. -/
abbrev Op := ExceptT Failure (StateM Console)

/-- A seat that does not exist. -/
def nobody : Seat :=
  ⟨.fresh "" [] .null [], ⟨.null, .named "", .named "", .none, "", [], [], none, none⟩, [], [], 0,
    ⟨[]⟩⟩

def seatAt (c : Console) (k : Nat) : Seat := (c.seats[k]?).getD nobody

def editSeat (c : Console) (k : Nat) (f : Seat → Seat) : Console := { c with seats := c.seats.modify k f }

def seat (k : Nat) : Op Seat := return (← get).seatAt k

def wired (c : Console) (k : Nat) : Wired := ⟨c.host, (c.seatAt k).line⟩

def rewire (c : Console) (k : Nat) (w : Wired) : Console :=
  { c.editSeat k fun s => { s with line := w.line } with host := w.host }

def withLine {α : Type} (k : Nat) (op : Line.Op α) : Op α := do
  let (r, w) := op.run.run ((← get).wired k)
  modify (·.rewire k w)
  (r : Except Failure α)

def desk (c : Console) (k : Nat) : Desk Wired := ⟨(c.seatAt k).session, (c.seatAt k).buffers, c.wired k⟩

/-- Put a desk back. New notices are logged. -/
def putDesk (c : Console) (k : Nat) (d : Desk Wired) : Console :=
  let notices := d.session.notices.drop (c.seatAt k).session.notices.length
  let host := notices.foldl (fun h n => h.record (.notice n)) d.link.host
  (c.editSeat k fun s => { s with session := d.session, buffers := d.buffers }).rewire k ⟨host, d.link.line⟩

def withDesk {α : Type} (k : Nat) (op : Desk.Op Wired α) : Op α := do
  let (r, d) := op.run.run ((← get).desk k)
  modify (·.putDesk k d)
  (r : Except Failure α)

def session (k : Nat) : Op Session := return (← seat k).session

def attempt {α : Type} (op : Op α) : Op (Except Failure α) :=
  tryCatch (op >>= fun a => return .ok a) fun cause => return .error cause

def find? (c : Console) (name : Json) : Except Failure (Option Nat) :=
  name.key.map fun key => (Keyed.get? key c.registry).map Registration.seat

/-- Register a session. A name that is there already keeps its form. -/
def enroll (c : Console) (name : Json) (k : Nat) : Console :=
  match name.key with
  | .ok key =>
    let first := ((Keyed.get? key c.registry).map Registration.name).getD name
    { c with registry := Keyed.put key ⟨first, k⟩ c.registry }
  | .error _ => c

def dismiss (c : Console) (name : Json) : Console :=
  match name.key with
  | .ok key => { c with registry := Keyed.erase key c.registry }
  | .error _ => c

def resolve (c : Console) : Json → Except Failure Path
  | .text file => .ok (Path.resolve c.host.cwd file)
  | _ => .error .wrongKind

/-- An open file of a session: its path, and its seat and buffer if it is open. -/
def opened (name file : Json) : Op (Path × Option (Nat × Nat)) := do
  let c ← get
  let k ← (c.find? name : Except Failure (Option Nat))
  let path ← (c.resolve file : Except Failure Path)
  return (path, do
    let k ← k
    let n ← Keyed.get? path (c.seatAt k).documents
    return (k, n))

end Console
end CoqConsole
