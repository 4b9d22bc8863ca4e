import CoqConsole.Clockwork
import CoqConsole.Line.Lifecycle

/-!
# A line and its callers

* `Circuit` : a line, its handlers, and the calls under way;
* `Circuit.Move`, `Circuit.apply` : what can happen, in any order;
* `Circuit.ready`, `Circuit.roster` : what can have a turn, and so the order in which it does;
* `Circuit.clockwork` : the machine with its clock.
-/

namespace CoqConsole

/-- What can happen on a line. -/
inductive Circuit.Move
  /-- A process does the first thing that is due. -/
  | wake (process : Nat)
  /-- A message is read. -/
  | read
  /-- A line of an error stream is read. -/
  | listen (process : Nat)
  /-- A call goes on, in time or too late. -/
  | resume (call : Nat) (late : Bool)
  deriving DecidableEq, Repr

/-- A line, its handlers, and the calls under way. -/
structure Circuit where
  wired : Wired
  /-- The notifications that are handled, and how handling them fails, if it does. -/
  handlers : List (String × Option Failure)
  received : List (String × Json)
  calls : List (Nat × Suspended)
  made : Nat
  done : List (Nat × Except Failure Json)
  rota : Rota Circuit.Move

namespace Circuit

def stand (c : Circuit) (call : Nat) (r : Except Failure Standing) : Circuit :=
  match r with
  | .ok (.waiting s) => { c with calls := c.calls ++ [(call, s)] }
  | .ok (.finished v) => { c with done := c.done ++ [(call, .ok v)] }
  | .error cause => { c with done := c.done ++ [(call, .error cause)] }

def run {α : Type} (c : Circuit) (op : Line.Op α) : Except Failure α × Circuit :=
  let (r, wired) := op.run.run c.wired
  (r, { c with wired })

/-- Make a call; the result is its number. -/
def call (c : Circuit) (op : Line.Op Standing) : Nat × Circuit :=
  let (r, c) := c.run op
  (c.made, { c with made := c.made + 1 }.stand c.made r)

def handle (c : Circuit) (method : String) (params : Json) : Circuit :=
  let c := { c with received := c.received ++ [(method, params)] }
  match Keyed.get? method c.handlers with
  | some (some cause) =>
    { c with wired := { c.wired with host := c.wired.host.record (.unhandled method cause) } }
  | _ => c

/-- What a move changes; one that cannot happen changes nothing. -/
def apply (c : Circuit) : Move → Circuit
  | .wake p => { c with wired := { c.wired with host := c.wired.host.wake p } }
  | .read =>
    match c.wired.read fun m => Keyed.has m c.handlers with
    | some (wired, handed) =>
      let c := { c with wired }
      match handed with
      | some (method, params) => c.handle method params
      | none => c
    | none => c
  | .listen p =>
    match c.wired.listen p with
    | some wired => { c with wired }
    | none => c
  | .resume n late =>
    match Keyed.get? n c.calls with
    | some s =>
      if (if late then c.wired.isLate s.wait else c.wired.isMet s.wait) then
        let (r, c) := { c with calls := Keyed.erase n c.calls }.run (Line.resume late s)
        c.stand n r
      else c
    | none => c

def callerOf (w : Wired) (n : Nat) (s : Suspended) : Caller :=
  ⟨n, s.wait.pace, w.isMet s.wait, w.isLate s.wait⟩

def caller? (c : Circuit) (n : Nat) : Option Caller := (Keyed.get? n c.calls).map (callerOf c.wired n)

def waitsFor (id : Nat) (s : Suspended) : Bool :=
  match s.wait with
  | .answer i _ => i == id
  | _ => false

/-- The calls in the order in which their answers came, then all. -/
def callers (w : Wired) (calls : List (Nat × Suspended)) : List Caller :=
  let answered := w.line.settled.filterMap fun (id, _) => calls.find? fun (_, s) => waitsFor id s
  (answered ++ calls).map fun (n, s) => callerOf w n s

def isReadable (c : Circuit) : Bool := (c.wired.read fun m => Keyed.has m c.handlers).isSome

def stirring (c : Circuit) : List Move :=
  (c.wired.host.stirring?.map Move.wake).toList ++ (if c.isReadable then [.read] else []) ++
    c.wired.audible.map .listen

def ready (c : Circuit) : List (Slot Move) :=
  c.stirring.map (fun m => ⟨none, some m, 0⟩) ++
    (callers c.wired c.calls).filterMap fun k => c.rota.slot? k (.resume k.call)

def repeats (c : Circuit) : Move → Bool
  | .read => c.isReadable
  | .listen p => (c.wired.listen p).isSome
  | _ => false

def roster : Roster Circuit Move where
  rota := Circuit.rota
  setRota rota c := { c with rota }
  ready := ready
  caller? := caller?
  apply := apply
  repeats := repeats

def due? (c : Circuit) : Option Int :=
  let limits := c.calls.filterMap fun (_, s) => s.wait.limit.due?
  (c.wired.host.due?.toList ++ limits).foldl
    (fun best t => some (match best with | some b => min b t | none => t)) none

def clockwork : Clockwork Circuit where
  step? := roster.step?
  now c := c.wired.host.now
  due? := due?
  setNow t c := { c with wired := { c.wired with host := { c.wired.host with now := t } } }

/-- How a call ended, if it has. -/
def outcome? (c : Circuit) (call : Nat) : Option (Except Failure Json) := Keyed.get? call c.done

end Circuit
end CoqConsole
