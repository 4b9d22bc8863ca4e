import CoqConsole.Json.Entries
import CoqConsole.Line.Reading

/-!
# Starting and stopping a server

* `Line.start` : spawn a process and shake hands;
* `Line.stop` : shut down politely, then terminate, then kill;
* `Line.resume` : go on with a call whose wait is over.
-/

namespace CoqConsole.Line

/-- Seconds to wait for the handshake, where nothing else is said. -/
def startTimeout : Json := .int 30

/-- Seconds to wait in each step of stopping. -/
def stopSeconds : Scalar := 5

def greetingParams (w : Wired) (options : Json) : Json :=
  let home := Path.resolve w.host.cwd w.line.workdir
  .object [
    ("processId", .int w.host.clientPid),
    ("clientInfo", .object [("name", .text "vscoq-mcp")]),
    ("rootUri", .text home.uri),
    ("workspaceFolders", .array [.object [("uri", .text home.uri), ("name", .text home.name)]]),
    ("capabilities", .object [
      ("general", .object [("positionEncodings", .array w.line.offered)]),
      ("textDocument", .object [("publishDiagnostics", .object [])]),
      ("window", .object [("workDoneProgress", .bool false)])]),
    ("initializationOptions", if options.truthy then options else .object [])]

/-- The method of the handshake. -/
def greetingMethod : String := "initialize"

/-- Failures that do not keep a server from being stopped. -/
def isForgiven : Failure → Bool
  | .timedOut | .refused .. | .notRunning | .lostConnection | .stopped | .unsupportedChoice _
  | .unreachable _ | .brokenPipe => true
  | _ => false

/-! ## Stopping -/

def clear (result : Json) : Op Standing := do
  edit fun l => { l.failPending .stopped with closing := false, process := none }
  return .finished result

def close (result : Json) : Op Standing := do
  match (← get).line.process with
  | none => clear result
  | some p =>
    edit fun l => { l with closing := true }
    return .waiting ⟨.quiet p, .closing result⟩

def awaitExit (p : Nat) (limit : Limit) (plan : Plan) : Standing := .waiting ⟨.exit p limit, plan⟩

def stopLimit (w : Wired) : Limit := .afterSeconds w.host.now stopSeconds

def terminate (result : Json) : Op Standing := do
  let w ← get
  match w.line.process with
  | none => close result
  | some p =>
    if w.host.isAlive p then
      editHost (·.terminate p)
      return awaitExit p (stopLimit w) (.terminating result)
    else close result

/-- Stop the server; `result` is what the call returns. -/
def stop (result : Json) : Op Standing := do
  if (← get).isRunning then
    match ← attempt (post "shutdown" .null (.ofScalar stopSeconds)) with
    | .ok (id, wait) => return .waiting ⟨wait, .parting id result⟩
    | .error cause => if isForgiven cause then terminate result else throw cause
  else terminate result

/-- The server agreed to shut down: tell it to exit and wait. -/
def leave (result : Json) : Op Standing := do
  notify "exit" .null
  let w ← get
  match w.line.process with
  | some p => return awaitExit p (stopLimit w) (.leaving result)
  | none => throw (.nothingThere "wait")

/-! ## Starting -/

/-- The value under a key of an object that may be missing. -/
def detail (key : String) (v : Json) : Except Failure Json :=
  if v.truthy then return (← v.find key).getD .null else .ok .null

/-- Take what the server says of itself; the result is its label. -/
def learn (answer : Json) : Op String := do
  let capabilities ←
    if answer.truthy then (do return (← answer.find "capabilities").getD (.object []) : Except Failure Json)
    else pure (.object [])
  edit fun l => { l with capabilities }
  let info ← (detail "serverInfo" answer : Except Failure Json)
  edit fun l => { l with serverInfo := info }
  let chosen := (← (capabilities.find "positionEncoding" : Except Failure (Option Json))).getD .null
  let encoding := if chosen.truthy then chosen else Encoding.defaultName
  match Encoding.ofJson encoding with
  | .error _ => throw (.unsupportedChoice encoding)
  | .ok _ => edit fun l => { l with encoding }
  notify "initialized" (.object [])
  let info := if info.truthy then info else .object []
  let name := (← (info.find "name" : Except Failure (Option Json))).getD (.text "vscoqtop")
  let version := (← (info.find "version" : Except Failure (Option Json))).getD .null
  let label := if version.truthy then s!"{name.shown} {version.shown}" else name.shown
  let w ← get
  match w.line.process with
  | some p => return s!"{label} started (PID {w.host.basePid + p}, {encoding.shown})"
  | none => throw (.nothingThere "pid")

/-- After the handshake: return the label, or stop again if the call was for a scope only. -/
def greeted (label : String) (brief : Bool) : Op Standing := do
  if brief then stop (.bool (← get).isRunning) else return .finished (.text label)

/-- What is laid over the environment of the client. -/
def entries (l : Line) : Except Failure (List (String × Json)) :=
  if l.environment.truthy then l.environment.entries else .ok []

def spawn : Op Unit := do
  let w ← get
  let entries ← (w.line.entries : Except Failure (List (String × Json)))
  let environment := entries.foldl (fun e (k, v) => Keyed.put k v e) w.host.environment
  let (p, host) := w.host.spawn w.line.command w.line.workdir environment
  editHost fun _ => host
  match p with
  | none => throw (.missingProgram (w.line.command.headD ""))
  | some p =>
    edit fun l => { l with process := some p, reading := true, listening := l.listening ++ [p] }

/-- Start the server, unless it runs. -/
def start (options timeout : Json) (brief : Bool) : Op Standing := do
  if (← get).isRunning then greeted "vscoqtop already running" brief
  else
    spawn
    let params := greetingParams (← get) options
    let (id, wait) ← post greetingMethod params timeout
    return .waiting ⟨wait, .greeting id params brief⟩

/-! ## Going on -/

def ask (method params timeout : Json) : Op Standing := do
  let (id, wait) ← post method params timeout
  return .waiting ⟨wait, .request id method params⟩

/-- Kill the process, which did not end when it was asked to. -/
def kill (result : Json) : Op Standing := do
  let w ← get
  match w.line.process with
  | none => throw (.nothingThere "kill")
  | some p =>
    editHost (·.kill p)
    if w.host.refusesKill p then throw .notPermitted
    close result

/-- Go on with what was planned for after a wait. -/
def conclude (ending : Ending) : Plan → Op Standing
  | .request id method params => do return .finished (← collect id method params ending)
  | .greeting id params brief => do
    let answer ← collect id greetingMethod params ending
    greeted (← learn answer) brief
  | .parting id result => do
    match ← attempt (collect id "shutdown" .null ending >>= fun _ => leave result) with
    | .ok standing => return standing
    | .error cause => if isForgiven cause then terminate result else throw cause
  | .leaving result => terminate result
  | .terminating result =>
    match ending with
    | .late => kill result
    | _ => close result
  | .closing result => clear result

/-- A request got through, or the pipe broke: its answer is waited for from now on, unless it is there. -/
def flushed (id : Nat) (timeout : Json) (broken : Bool) (plan : Plan) : Op Standing := do
  if broken then conclude (.failed .brokenPipe) plan
  else
    let w ← get
    match Limit.after w.host.now timeout with
    | .error cause => conclude (.failed cause) plan
    | .ok limit =>
      if Keyed.has id w.line.settled && limit.due?.isNone then conclude .met plan
      else return .waiting ⟨.answer id limit, plan⟩

/-- Go on with a call whose wait is over, in time or too late. -/
def resume (late : Bool) (s : Suspended) : Op Standing :=
  match s.wait with
  | .flush id _ _ timeout => flushed id timeout late s.plan
  | _ => conclude (.ofLate late) s.plan

end CoqConsole.Line

namespace CoqConsole.Wired

/-- Whether a wait is over because of what was waited for. -/
def isMet (w : Wired) : Wait → Bool
  | .flush _ p cleared _ => decide (cleared < (w.host.intake p).2)
  | .answer id limit => limit != .passed && Keyed.has id w.line.settled
  | .exit p _ => !w.host.isAlive p
  | .quiet p => !(w.line.reading && w.line.process == some p) && !w.line.listening.contains p

/-- Whether a wait is over because of its limit, or because what is waited for cannot come any more. -/
def isLate (w : Wired) : Wait → Bool
  | .flush _ p cleared _ =>
    !decide (cleared < (w.host.intake p).2) && (!w.host.isAlive p || (w.host.intake p).1 == .closed)
  | wait => wait.limit.isOver w.host.now

end CoqConsole.Wired
