import CoqConsole.Console.Opening

/-!
# Running tools

* `Console.run` : a tool, up to its end or its first wait;
* `Console.resume` : a call whose wait is over.
-/

namespace CoqConsole.Console

def sessionTable : Op String := do
  let c ← get
  if c.registry.isEmpty then return "No active sessions."
  let rows ← c.registry.mapM fun (_, entry) => do
    let k := entry.seat
    let s := c.seatAt k
    let mode ← proofMode k
    let name ← (Wording.nameCell entry.name : Except Failure String)
    let age := Time.micros c.host.now - Time.micros s.started
    return Wording.sessionRow name s.workdir.text age (c.wired k).isRunning mode
      (s.documents.map fun (p, _) => p.name)
  return String.intercalate "\n" (Wording.sessionHeader ++ rows)

def stopped (k : Nat) (name : Json) : Standing → Turn
  | .waiting call => .awaits ⟨k, .line call, .stopping name⟩
  | .finished _ => .said s!"Session '{name.shown}' stopped."

/-- Stop a session; its name is free at once. Nothing is looked for where no session is registered. -/
def stop (name : Json) : Op Turn := do
  let c ← get
  let seat ← if c.registry.isEmpty then pure none else (c.find? name : Except Failure (Option Nat))
  match seat with
  | none => return .said s!"Session '{name.shown}' not found."
  | some k =>
    modify (·.dismiss name)
    withDesk k Desk.shutdown
    return stopped k name (← withLine k (Line.stop .null))

/-- What is said of a file that is not open. -/
def notOpen (file name : Json) : String :=
  s!"ERROR: {file.shown} is not open in session '{name.shown}'."

def close (file name : Json) : Op String := do
  match ← opened name file with
  | (_, none) => return notOpen file name
  | (path, some (k, n)) =>
    modify (·.editSeat k fun s => { s with documents := Keyed.erase path s.documents })
    withDesk k (Desk.closeBuffer lineCarrier n)
    let b := ((← get).desk k).bufferAt n
    return s!"Closed {b.uri}"

def reload (file name : Json) : Op String := do
  match ← opened name file with
  | (_, none) => return notOpen file name ++ " Use coq_open first."
  | (path, some (k, n)) =>
    let c ← get
    match c.files.readText path with
    | .error (.missingFile _) => return s!"ERROR: File not found: {file.shown}"
    | .error cause => throw cause
    | .ok text =>
      let b := (c.desk k).bufferAt n
      if Buffer.digest text = b.hash then return s!"Unchanged (version {b.version})"
      withDesk k (Desk.replaceText lineCarrier n text)
      let b := ((← get).desk k).bufferAt n
      return s!"Reloaded {path.name} (version {b.version}, {b.lines.length} lines)"

def highlights (file name : Json) : Op String := do
  match ← opened name file with
  | (_, none) => return notOpen file name
  | (_, some (k, n)) =>
    let c ← get
    let marks := ((c.desk k).bufferAt n).marksIn (c.seatAt k).session.ns
    if marks.isEmpty then return "No highlights."
    return String.intercalate "\n" (marks.map Wording.region)

def isSettingsFault : Failure → Bool
  | .absent _ | .noParts _ | .noElements _ | .noNumber _ | .wrongKind | .unevenPlace | .badNumeral _
  | .longNumeral _ | .undefinedNumber | .unknownMode _ => true
  | _ => false

/-- What is said of a session that is not there. -/
def noSession (name : Json) : String := s!"ERROR: Session '{name.shown}' not found."

def configure (update : Json) (toggle : Bool) (name : Json) : Op String := do
  match ← ((← get).find? name : Except Failure (Option Nat)) with
  | none => return noSession name
  | some k =>
    let r ←
      if update.truthy then attempt (withDesk k (Desk.updateSettings lineCarrier update)) else pure (.ok ())
    match r with
    | .error cause =>
      if isSettingsFault cause then return s!"ERROR: invalid settings: {cause.wording}" else throw cause
    | .ok () =>
      if toggle then discard (withDesk k (Desk.toggleMode lineCarrier))
      return s!"Proof mode: {(← proofMode k).name}"

def view (room name : Json) : Op String := do
  match ← ((← get).find? name : Except Failure (Option Nat)) with
  | none => return noSession name
  | some k => (Wording.truncate (Wording.proofView (← session k)) room : Except Failure String)

/-- Run a tool up to its end or its first wait. -/
def run : Tool → Op Turn
  | .start workdir name config environment => startSession workdir name config environment none
  | .sessions => return .said (← sessionTable)
  | .stop name => stop name
  | .visit v => visit v
  | .close file name => return .said (← close file name)
  | .reload file name => return .said (← reload file name)
  | .view room name => return .said (← view room name)
  | .highlights file name => return .said (← highlights file name)
  | .configure update toggle name => return .said (← configure update toggle name)
  | .refuse text => return .said text

def onLine (k : Nat) (late : Bool) : Awaiting → Op Standing
  | .line call => withLine k (Line.resume late call)
  | _ => throw .lostConnection

/-- Go on with a call whose wait is over, in time or too late. -/
def resume (late : Bool) (e : Errand) : Op Turn := do
  match e.purpose with
  | .starting name next => started e.seat name next (← attempt (onLine e.seat late e.wait))
  | .failing cause => return failed e.seat cause (← onLine e.seat late e.wait)
  | .settling v n => perform e.seat n v.task
  | .viewing timeout room =>
    let s ← session e.seat
    say (if late then Wording.lateView timeout s else Wording.proofView s) room
  | .asking query sequel => pursue e.seat query sequel (← attempt (onLine e.seat late e.wait))
  | .collecting room => showResults e.seat room
  | .stopping name => return stopped e.seat name (← onLine e.seat late e.wait)

end CoqConsole.Console
