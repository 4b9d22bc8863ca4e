import CoqConsole.Console.Visiting

/-!
# Starting sessions and opening files

A session is registered once its server has shaken hands. A file is opened in a session whose server
runs; where there is none, one is started in the file's directory.

* `Console.startSession`, `Console.started` : a server is started, and has been;
* `Console.visit` : find or open a file, starting a session if needed, and do something with it.
-/

namespace CoqConsole.Console

/-- Seconds to wait for the first proof view of a file that was just opened. -/
def firstViewTimeout : Scalar := Tool.defaultWait

/-- The program that is run. -/
def serverCommand : List String := ["vscoqtop"]

/-- Take an open file and do something with it. In continuous mode the server checks a file when it is
opened; the view that follows is not the answer to a command. -/
def enter (k : Nat) (v : Visit) : Op Turn := do
  let c ← get
  let path ← (c.resolve v.file : Except Failure Path)
  match Keyed.get? path (c.seatAt k).documents with
  | some n => perform k n v.task
  | none =>
    let text ← (c.files.readText path : Except Failure String)
    let n := (c.seatAt k).buffers.length
    modify (·.editSeat k fun s => { s with
      buffers := s.buffers ++ [.ofText path.uri text Buffer.defaultLanguage]
      documents := Keyed.put path n s.documents })
    let since := (← session k).proofPane.revision
    withDesk k (Desk.adopt lineCarrier n)
    if (← proofMode k) = .continuous then
      return paneWait k since (.afterSeconds (← get).host.now firstViewTimeout) (.settling v n)
    else perform k n v.task

/-- Go on with a visit once its session runs. -/
def enterNamed (v : Visit) : Op Turn := do
  match ← ((← get).find? v.session : Except Failure (Option Nat)) with
  | some k => enter k v
  | none => throw (.nothingThere "documents")

/-- A session runs: say so, or go on with the visit it was started for. -/
def proceed (text : String) : Option Visit → Op Turn
  | none => return .said text
  | some v => enterNamed v

/-- What is said of a server that could not be started. -/
def startFailure (cause : Failure) : String := s!"ERROR starting vscoqtop: {cause.wording}"

/-- See how far stopping a server has come that could not be started. -/
def failed (k : Nat) (cause : Failure) : Standing → Turn
  | .waiting call => .awaits ⟨k, .line call, .failing cause⟩
  | .finished _ => .said (startFailure cause)

def started (k : Nat) (name : Json) (next : Option Visit) (r : Except Failure Standing) : Op Turn := do
  match r with
  | .ok (.waiting call) => return .awaits ⟨k, .line call, .starting name next⟩
  | .ok (.finished label) =>
    modify fun c => (c.editSeat k fun s => { s with started := c.host.now }).enroll name k
    let workdir := (← seat k).workdir
    proceed s!"Session '{name.shown}' started. {label.shown}\nWorkdir: {workdir.text}" next
  | .error cause => return failed k cause (← withLine k (Line.stop .null))

/-- Start a session under a name. A session of that name whose server runs is kept; a dead one is
forgotten. -/
def startSession (workdir name config environment : Json) (next : Option Visit) : Op Turn := do
  let c ← get
  let seat ← (c.find? name : Except Failure (Option Nat))
  if (seat.map fun k => (c.wired k).isRunning).getD false then
    proceed s!"Session '{name.shown}' already running." next
  else
    modify (·.dismiss name)
    let path ← (c.resolve workdir : Except Failure Path)
    if !c.files.exists? path then
      return .said s!"ERROR: Working directory does not exist: {workdir.shown}"
    let session ← (Session.create config Progress.defaultNamespace : Except Failure Session)
    let line := Line.fresh path.text serverCommand environment [Encoding.defaultName]
    let k := c.seats.length
    modify fun c => { c with seats := c.seats ++ [⟨line, session, [], [], c.host.now, path⟩] }
    started k name next (← attempt (withLine k (Line.start session.settings Line.startTimeout false)))

/-- Find or open a file and do something with it. -/
def visit (v : Visit) : Op Turn := do
  let c ← get
  let path ← (c.resolve v.file : Except Failure Path)
  if !c.files.exists? path then return .said s!"ERROR: File not found: {v.file.shown}"
  let workdir := if v.workdir.truthy then v.workdir else .text path.parent.text
  match ← (c.find? v.session : Except Failure (Option Nat)) with
  | some k =>
    if (c.wired k).isRunning then enter k v else startSession workdir v.session .null .null (some v)
  | none => startSession workdir v.session .null .null (some v)

end CoqConsole.Console
