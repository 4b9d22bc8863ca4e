import CoqConsole.Line.Requests

/-!
# Reading from a server

* `Line.dispatch` : what a message does: an answer is kept, a request of the server is answered at
  once, and a notification is handed on;
* `Wired.read` : read one message;
* `Wired.listen` : read one line of an error stream.
-/

namespace CoqConsole

namespace Line

/-- The requests of a server that are answered with null. -/
def housekeeping : List String :=
  ["window/workDoneProgress/create", "client/registerCapability", "client/unregisterCapability"]

/-- The request for settings. -/
def configurationMethod : String := "workspace/configuration"

/-- The code for a method that is not there. -/
def methodNotFound : Int := -32601

/-- The answer to a request of the server: what stands under `result` or `error`. -/
def answerFor (method message : Json) : Except Failure (String × Json) :=
  let named (s : String) : Bool := match method with
    | .text t => t == s
    | _ => false
  if housekeeping.any named then .ok ("result", .null)
  else if named configurationMethod then do
    let params := (message.get? "params").getD .null
    let params := if params.truthy then params else .object []
    let items ← ((← params.find "items").getD (.array [])).elements
    return ("result", .array (items.map fun _ => .null))
  else
    .ok ("error", .object [
      ("code", .int methodNotFound), ("message", .text s!"Unsupported method: {method.shown}")])

/-- What a message does. A notification that someone handles is handed on. -/
def dispatch (handles : String → Bool) (message : Json) : Op (Option (String × Json)) := do
  let method ← (message.find "method" : Except Failure (Option Json))
  let method := method.getD .null
  if method.isNull then
    match ← (keyOf ((message.get? "id").getD .null) : Except Failure (Option Nat)) with
    | some id => edit (settle id (.ok message))
    | none => pure ()
    return none
  match message.get? "id" with
  | some id =>
    let (key, value) ← (answerFor method message : Except Failure (String × Json))
    write (.object [("jsonrpc", .text "2.0"), ("id", id), (key, value)])
    return none
  | none =>
    match ← (method.key : Except Failure Key) with
    | .text name => return if handles name then some (name, (message.get? "params").getD .null) else none
    | _ => return none

def endReading (l : Line) : Line := failPending .lostConnection { l with reading := false }

end Line

namespace Wired

/-- The output is read no more, for a reason that is logged. -/
def endReading (w : Wired) (r : Option Record) : Wired :=
  ⟨match r with | some r => w.host.record r | none => w.host, w.line.endReading⟩

/-- Read one message, if the output holds one or has ended. Streams that are about to be let go are read
no more. -/
def read (handles : String → Bool) (w : Wired) : Option (Wired × Option (String × Json)) := do
  let p ← if w.line.reading then w.line.process else none
  if w.line.closing then return (w.endReading none, none)
  let q ← w.host.process? p
  match Frame.read (!q.outputOpen) q.output with
  | .starved => none
  | .ended => some (w.endReading none, none)
  | .failed .truncatedFrame => some (w.endReading (some .cutShort), none)
  | .failed cause => some (w.endReading (some (.unreadable cause)), none)
  | .found .null rest =>
    some ({ w with host := w.host.edit p fun q => { q with output := rest } }.endReading none, none)
  | .found message rest =>
    let w := { w with host := w.host.edit p fun q => { q with output := rest } }
    let (r, w) := (Line.dispatch handles message).run.run w
    match r with
    | .ok handed => some (w, handed)
    | .error cause => some (w.endReading (some (.unreadable cause)), none)

/-- Read one line of the error stream of a process that is listened to, if there is one or the stream has
ended. A process that was replaced is listened to for one more line. -/
def listen (w : Wired) (p : Nat) : Option Wired := do
  let q ← if w.line.listening.contains p then w.host.process? p else none
  let deaf := { w with line := { w.line with listening := w.line.listening.erase p } }
  if w.line.closing && w.line.process == some p then return deaf
  match Frame.line (!q.errorsOpen) q.errors with
  | .starved => none
  | .ended => some deaf
  | .failed _ => some deaf
  | .found octets rest =>
    let text := String.ofList (Text.trimEnd (Utf8.decodeLossy octets))
    let host := (w.host.edit p fun q => { q with errors := rest }).record (.heard text)
    some { (if w.line.process = some p then w else deaf) with host }

/-- The processes whose error streams have something to hear. -/
def audible (w : Wired) : List Nat := w.line.listening.filter fun p => (w.listen p).isSome

end Wired
end CoqConsole
