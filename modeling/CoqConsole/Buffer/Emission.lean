import CoqConsole.Buffer.Basic

/-!
# Emissions

An emission goes through the handles that were registered when it began and calls those that are
still active when their turn comes.

* `Buffer.emit` : the rule, in any monad where listeners run;
* `Script` : what a scripted listener does, edits of its own buffer among it;
* `Stage.perform` : one action, with the emissions it sets off. Listeners may set each other off, so
  the depth is bounded.
-/

namespace CoqConsole

/-- Call the handles that are still active when their turn comes. -/
def Buffer.emit {m : Type → Type} [Monad m] (isActive : Nat → m Bool) (call : Nat → m Unit) :
    List Nat → m Unit
  | [] => pure ()
  | handle :: rest => do
    if ← isActive handle then call handle
    Buffer.emit isActive call rest

/-- An operation on a buffer as data. A subscription carries what its listener will do. What it is given may
turn out to be no text or no number when its turn comes. -/
inductive Script (μ : Type)
  | line (row : Except Failure Scalar)
  | setText (text : Except Failure String)
  | setCursor (row col : Except Failure Scalar)
  | close
  | hash
  | describe
  | subscribe (id : String) (event : Json) (actions : List (Script μ))
  | cancel (id : String)
  | setMarks (ns : String) (marks : List μ)
  | clearMarks (ns : String)
  | marks (ns : String)
  deriving Inhabited

/-- The result of an operation. -/
inductive Reply (μ : Type)
  | done
  | text (s : Option String)
  | marks (marks : List μ)

/-- A scripted listener: its name and what it does. -/
structure Actor (μ : Type) where
  id : String
  actions : List (Script μ)

/-- A call of a listener: what it could see. -/
structure Call where
  id : String
  cursor : Position
  version : Nat
  deriving DecidableEq, Repr

/-- A buffer with scripted listeners, their handles by name, and the calls so far. -/
structure Stage (μ : Type) where
  buffer : Buffer (Actor μ) μ
  handles : List (String × Nat)
  calls : List Call

namespace Stage

variable {μ : Type}

/-- Operations that may fail and keep what happened before. -/
abbrev Act (μ : Type) := ExceptT Failure (StateM (Stage μ))

def edit (f : Buffer (Actor μ) μ → Buffer (Actor μ) μ) : Act μ Unit :=
  modify fun s => { s with buffer := f s.buffer }

def moveTo (p : Position) : Act μ Unit := do
  let buffer ← ((← get).buffer.moveTo p : Except Failure _)
  modify fun s => { s with buffer }

def subscribe (id : String) (event : Json) (actions : List (Script μ)) : Act μ Unit := do
  let e ← (BufferEvent.named event : Except Failure BufferEvent)
  modify fun s =>
    let (handle, buffer) := s.buffer.subscribe e ⟨id, actions⟩
    { s with buffer, handles := Keyed.put id handle s.handles }

def cancel (id : String) : Act μ Unit := do
  match Keyed.get? id (← get).handles with
  | some handle => edit (·.cancel handle)
  | none => throw (.absent id)

def emit (run : List (Script μ) → Act μ Unit) (e : BufferEvent) : Act μ Unit := do
  let call (handle : Nat) : Act μ Unit := do
    match (← get).buffer.listener? handle with
    | none => pure ()
    | some actor =>
      modify fun s =>
        { s with calls := s.calls ++ [⟨actor.id, s.buffer.cursor, s.buffer.version⟩] }
      run actor.actions
  Buffer.emit (fun handle => return (← get).buffer.isActive handle) call ((← get).buffer.roll e)

/-- One operation; emissions are followed to the given depth. -/
def perform : Nat → Script μ → Act μ (Reply μ)
  | 0, _ => throw .endless
  | depth + 1, action => do
    let run (actions : List (Script μ)) : Act μ Unit := actions.forM fun a => discard (perform depth a)
    match action with
    | .line row => do
      let row ← (row : Except Failure Scalar)
      return .text (← ((← get).buffer.line row : Except Failure (Option String)))
    | .setText text =>
      let text ← (text : Except Failure String)
      edit (·.replaceText text)
      emit run .changed
      return .done
    | .setCursor row col =>
      moveTo ⟨← (row : Except Failure Scalar), ← (col : Except Failure Scalar)⟩
      emit run .cursorMoved
      return .done
    | .close =>
      unless (← get).buffer.closed do
        edit fun b => { b with closed := true }
        emit run .closed
      return .done
    | .hash => return .text (some (← get).buffer.hash)
    | .describe => return .text (some (← get).buffer.describe)
    | .subscribe id event actions =>
      subscribe id event actions
      return .done
    | .cancel id =>
      cancel id
      return .done
    | .setMarks ns marks =>
      edit (·.setMarks ns marks)
      return .done
    | .clearMarks ns =>
      edit (·.clearMarks ns)
      return .done
    | .marks ns => return .marks ((← get).buffer.marksIn ns)

/-- The names of listeners whose last subscription is active, in the order of the first. -/
def active (s : Stage μ) : List String :=
  (s.handles.filter fun (_, handle) => s.buffer.isActive handle).map (·.1)

end Stage
end CoqConsole
