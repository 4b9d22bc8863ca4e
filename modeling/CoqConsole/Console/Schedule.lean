import CoqConsole.Console.Running

/-!
# The console at work

* `Console.apply` : what can happen, in any order;
* `Console.ready`, `Console.roster` : what can have a turn, and so the order in which it does;
* `Console.clockwork`, `Console.call` : the machine with its clock, and its calls.
-/

namespace CoqConsole.Console

def handles (method : String) : Bool := (Signal.ofMethod? method).isSome

def stand (c : Console) (call : Nat) (r : Except Failure Turn) : Console :=
  match r with
  | .ok (.awaits e) => { c with calls := c.calls ++ [(call, e)] }
  | .ok (.said text) => { c with done := c.done ++ [(call, .ok (.text text))] }
  | .error cause => { c with done := c.done ++ [(call, .error cause)] }

/-- Call a tool; the result is the number of the call. -/
def call (c : Console) (name : String) (args : Tool.Arguments) : Nat × Console :=
  match Tool.ofCall name args with
  | .error cause => (c.made, { c with made := c.made + 1 }.stand c.made (.error cause))
  | .ok tool =>
    let (r, c') := (run tool).run.run c
    (c.made, { c' with made := c.made + 1 }.stand c.made r)

def hear (c : Console) (k : Nat) (method : String) (params : Json) : Console :=
  match Signal.ofMethod? method with
  | none => c
  | some signal =>
    let (r, c) := (withDesk k (Desk.hear lineCarrier params signal)).run.run c
    match r with
    | .ok () => c
    | .error cause => { c with host := c.host.record (.unhandled method cause) }

/-- Whether a wait is over because of what was waited for. -/
def isMet (c : Console) (e : Errand) : Bool :=
  match e.wait with
  | .line call => (c.wired e.seat).isMet call.wait
  | .pane revision limit => limit != .passed && (c.seatAt e.seat).session.proofPane.revision != revision
  | .sleep time => decide (time ≤ c.host.now)

/-- Whether a wait is over because of its limit. -/
def isLate (c : Console) (e : Errand) : Bool :=
  match e.wait with
  | .line call => (c.wired e.seat).isLate call.wait
  | .pane _ limit => limit.isOver c.host.now
  | .sleep _ => false

/-- What a move changes; one that cannot happen changes nothing. -/
def apply (c : Console) : Move → Console
  | .wake p => { c with host := c.host.wake p }
  | .read k =>
    match (c.wired k).read handles with
    | some (w, some (method, params)) => (c.rewire k w).hear k method params
    | some (w, none) => c.rewire k w
    | none => c
  | .listen k p =>
    match (c.wired k).listen p with
    | some w => c.rewire k w
    | none => c
  | .resume n late =>
    match Keyed.get? n c.calls with
    | some e =>
      if (if late then c.isLate e else c.isMet e) then
        let (r, c) := (resume late e).run.run { c with calls := Keyed.erase n c.calls }
        c.stand n r
      else c
    | none => c

def callerOf (c : Console) (n : Nat) (e : Errand) : Caller :=
  ⟨n, e.wait.pace, c.isMet e, c.isLate e⟩

def caller? (c : Console) (n : Nat) : Option Caller := (Keyed.get? n c.calls).map (c.callerOf n)

/-- A call that waits for a write to a pane. -/
def isOnPane (e : Errand) : Bool :=
  match e.wait with
  | .pane .. => true
  | _ => false

/-- A call that waits for an answer on the line of a seat. -/
def waitsFor (k id : Nat) (e : Errand) : Bool :=
  match e.wait with
  | .line call => e.seat == k && Circuit.waitsFor id call
  | _ => false

def seatNumbers (c : Console) : List Nat := List.range c.seats.length

/-- The calls in the order in which their answers came, seat by seat, then all. -/
def callers (c : Console) : List Caller :=
  let answered := c.seatNumbers.flatMap fun k =>
    (c.seatAt k).line.settled.filterMap fun (id, _) => c.calls.find? fun (_, e) => waitsFor k id e
  (answered ++ c.calls).map fun (n, e) => c.callerOf n e

/-- The calls for which a pane was written to. -/
def noticed (c : Console) : List Caller :=
  ((c.calls.filter fun (_, e) => isOnPane e).map fun (n, e) => c.callerOf n e).filter Caller.met

/-- Whether a message can be read on the line of a seat. -/
def isReadable (c : Console) (k : Nat) : Bool := ((c.wired k).read handles).isSome

def stirring (c : Console) : List Move :=
  (c.host.stirring?.map Move.wake).toList ++ (c.seatNumbers.filter c.isReadable).map .read ++
    c.seatNumbers.flatMap fun k => (c.wired k).audible.map (.listen k)

def slot? (c : Console) (k : Caller) : Option (Slot Move) := c.rota.slot? k (.resume k.call)

/-- The turns that are possible now. Whoever watches a pane hears of a write before the streams are read;
who comes to watch one comes after them. -/
def ready (c : Console) : List (Slot Move) :=
  (c.noticed.filterMap c.slot?).filter (·.move.isSome) ++
    c.stirring.map (fun m => ⟨none, some m, 0⟩) ++ c.callers.filterMap c.slot?

def repeats (c : Console) : Move → Bool
  | .read k => c.isReadable k
  | .listen k p => ((c.wired k).listen p).isSome
  | _ => false

def roster : Roster Console Move where
  rota := Console.rota
  setRota rota c := { c with rota }
  ready := ready
  caller? := caller?
  apply := apply
  repeats := repeats

def limit? (e : Errand) : Option Int :=
  match e.wait with
  | .line call => call.wait.limit.due?
  | .pane _ limit => limit.due?
  | .sleep time => some time

def due? (c : Console) : Option Int :=
  (c.host.due?.toList ++ c.calls.filterMap fun (_, e) => limit? e).foldl
    (fun best t => some (match best with | some b => min b t | none => t)) none

def clockwork : Clockwork Console where
  step? := roster.step?
  now c := c.host.now
  due? := due?
  setNow t c := { c with host := { c.host with now := t } }

/-- How a call ended, if it has. -/
def outcome? (c : Console) (call : Nat) : Option (Except Failure Json) := Keyed.get? call c.done

end CoqConsole.Console
