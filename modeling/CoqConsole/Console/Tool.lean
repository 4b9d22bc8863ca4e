import CoqConsole.Session.Checking
import CoqConsole.Session.Exchange

/-!
# Tools

* `Task` : what is done with an open file; `Visit` : a task with the file it is about;
* `Tool` : what the console offers;
* `Tool.ofCall` : a tool by its name and arguments.
-/

namespace CoqConsole

/-- What is done with an open file. Places, limits and the room for output are looked at when they are
needed. -/
inductive Task
  | report
  | moveTo (line col timeout room : Json)
  | interpret (line col timeout room : Json)
  | step (direction : Direction) (timeout room : Json)
  | search (pattern line col wait timeout room : Json)
  | question (kind pattern line col timeout room : Json)
  | reset (timeout : Json)
  deriving Repr

/-- A task, the file it is about, and the session in which the file is opened. -/
structure Visit where
  file : Json
  workdir : Json
  session : Json
  task : Task
  deriving Repr

inductive Tool
  | start (workdir name config environment : Json)
  | sessions
  | stop (session : Json)
  | visit (visit : Visit)
  | close (file session : Json)
  | reload (file session : Json)
  | view (room session : Json)
  | highlights (file session : Json)
  | configure (update : Json) (toggle : Bool) (session : Json)
  /-- Something else was asked for: say so. -/
  | refuse (text : String)
  deriving Repr

namespace Tool

/-! ## Defaults -/

/-- The session that is meant where none is named. -/
def defaultSession : String := "default"

/-- The characters of output that are shown where nothing else is said. -/
def defaultRoom : Json := .int 4096

def wholeSeconds (n : Nat) : Scalar := .real (.ofInt n)

/-- Seconds to wait for a proof view after a command. -/
def defaultWait : Scalar := wholeSeconds 5

/-- Seconds to wait for an answer. -/
def defaultTimeout : Scalar := wholeSeconds 10

/-- Seconds to go on collecting hits after a search was taken on. -/
def defaultCollection : Scalar := wholeSeconds 1

/-! ## Places -/

/-- A row or a column in place of one that is counted from one. -/
def fromOne (n : Scalar) : Scalar := (n.max 1).add (-1)

/-- The position of a line and a column that are counted from one. -/
def position (line col : Json) : Except Failure Position := do
  return ⟨fromOne (← line.toScalar), fromOne (← col.toScalar)⟩

/-- The place of a line and a column that are counted from one; the cursor where there is no line. -/
def place (line col : Json) : Except Failure Place :=
  if line.isNull then .ok .cursor else (position line col).map .ofPosition

/-! ## Arguments -/

abbrev Arguments := List (String × Json)

/-- Whether the arguments are allowed and none that is needed is missing. -/
def fits (needed optional : List String) (args : Arguments) : Bool :=
  args.all (fun (k, _) => needed.contains k || optional.contains k) &&
    needed.all fun k => Keyed.has k args

/-- An argument, or its default. -/
def arg (args : Arguments) (key : String) (default : Json) : Json := (Keyed.get? key args).getD default

def sessionArg (args : Arguments) : Json := arg args "session" (.text defaultSession)

def fileArg (args : Arguments) : Json := arg args "file" .null

def roomArg (args : Arguments) : Json := arg args "max_output" defaultRoom

def timeoutArg (args : Arguments) (default : Scalar) : Json := arg args "timeout" (.ofScalar default)

def lineArg (args : Arguments) : Json := arg args "line" .null

def colArg (args : Arguments) : Json := arg args "col" (.int 1)

/-- A task in the session that the arguments name. -/
def visiting (args : Arguments) (task : Task) : Tool :=
  .visit ⟨fileArg args, arg args "workdir" .null, sessionArg args, task⟩

/-- What is said where a word is none of those allowed. -/
def refusal (what : String) (known : List String) (got : String) : String :=
  s!"ERROR: {what} must be one of {Failure.choices known}, got " ++ s!"'{got}'"

/-! ## Calls -/

/-- The arguments that each tool needs, and those that it takes. -/
def parameters : List (String × List String × List String) :=
  [("coq_start", ["workdir"], ["name", "config", "env"]),
   ("coq_sessions", [], []),
   ("coq_stop", [], ["session"]),
   ("coq_open", ["file"], ["workdir", "session"]),
   ("coq_close", ["file"], ["session"]),
   ("coq_reload", ["file"], ["session"]),
   ("coq_goto", ["file", "line"], ["col", "timeout", "max_output", "session"]),
   ("coq_interpret_to_point", ["file"], ["line", "col", "timeout", "max_output", "session"]),
   ("coq_step", ["file"], ["direction", "timeout", "max_output", "session"]),
   ("coq_proof_view", [], ["max_output", "session"]),
   ("coq_search", ["file", "pattern"],
     ["line", "col", "wait", "timeout", "max_output", "session"]),
   ("coq_query", ["kind", "file", "pattern"], ["line", "col", "timeout", "max_output", "session"]),
   ("coq_reset", ["file"], ["timeout", "session"]),
   ("coq_highlights", ["file"], ["session"]),
   ("coq_config", [], ["update", "toggle_manual", "session"])]

/-- A step, if the direction is known. -/
def stepCall (args : Arguments) : Except Failure Tool := do
  let named := arg args "direction" (.text Direction.forward.name)
  let _ ← named.key
  match Direction.named? named with
  | none => return .refuse (refusal "direction" (Direction.all.map Direction.name) named.shown)
  | some direction => return visiting args (.step direction (timeoutArg args defaultWait) (roomArg args))

/-- A question, if its kind is known. -/
def questionCall (args : Arguments) : Tool :=
  let kind := arg args "kind" .null
  if isQuestion kind then
    visiting args (.question kind (arg args "pattern" .null) (lineArg args) (colArg args)
      (timeoutArg args defaultTimeout) (roomArg args))
  else .refuse (refusal "kind" questionKinds kind.shown)

/-- A tool by its name and arguments that fit it. -/
def ofArguments (name : String) (args : Arguments) : Except Failure Tool :=
  match name with
  | "coq_start" =>
    .ok (.start (arg args "workdir" .null) (arg args "name" (.text defaultSession)) (arg args "config" .null)
      (arg args "env" .null))
  | "coq_sessions" => .ok .sessions
  | "coq_stop" => .ok (.stop (sessionArg args))
  | "coq_open" => .ok (visiting args .report)
  | "coq_close" => .ok (.close (fileArg args) (sessionArg args))
  | "coq_reload" => .ok (.reload (fileArg args) (sessionArg args))
  | "coq_goto" =>
    .ok (visiting args (.moveTo (lineArg args) (colArg args) (timeoutArg args defaultWait) (roomArg args)))
  | "coq_interpret_to_point" =>
    .ok (visiting args (.interpret (lineArg args) (colArg args) (timeoutArg args defaultWait) (roomArg args)))
  | "coq_step" => stepCall args
  | "coq_proof_view" => .ok (.view (roomArg args) (sessionArg args))
  | "coq_search" =>
    .ok (visiting args (.search (arg args "pattern" .null) (lineArg args) (colArg args)
      (arg args "wait" (.ofScalar defaultCollection)) (timeoutArg args defaultTimeout) (roomArg args)))
  | "coq_query" => .ok (questionCall args)
  | "coq_reset" => .ok (visiting args (.reset (timeoutArg args defaultTimeout)))
  | "coq_highlights" => .ok (.highlights (fileArg args) (sessionArg args))
  | "coq_config" =>
    .ok (.configure (arg args "update" .null) (arg args "toggle_manual" (.bool false)).truthy
      (sessionArg args))
  | _ => .error .wrongKind

def ofCall (name : String) (args : Arguments) : Except Failure Tool :=
  match Keyed.get? name parameters with
  | some (needed, optional) =>
    if fits needed optional args then ofArguments name args else .error .wrongKind
  | none => .error .wrongKind

end Tool
end CoqConsole
