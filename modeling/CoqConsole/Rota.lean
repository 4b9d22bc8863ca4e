import CoqConsole.Keyed
import CoqConsole.Time

/-!
# Taking turns

Streams and calls take turns in one queue. What can happen is queued when it becomes possible, behind
what is queued already. A call whose wait is over does not go on at once: there are as many turns between
as someone has to pass the word on, and a wait that is watched from beside begins with a turn of its own.

* `Pace` : the turns between the end of a wait and the call going on;
* `Caller`, `Slot`, `Rota` : a waiting call, a turn in the queue, the queue;
* `Rota.slot?` : the turn that a waiting call can have;
* `Rota.join`, `Roster.step?` : turns join the queue at its end and are taken from its front.
-/

namespace CoqConsole

/-- How often the turn of a waiting call is put off. -/
structure Pace where
  /-- The wait begins with a turn of its own. -/
  arrives : Bool
  /-- After what is waited for has come. -/
  met : Nat
  /-- After the limit. -/
  late : Nat
  deriving DecidableEq, Repr

namespace Pace

/-- A wait without limit hears of its end directly; the word of a limited one is passed on. -/
def ofLimit : Limit → Pace
  | .never => ⟨false, 0, 0⟩
  | .at _ => ⟨false, 1, 2⟩
  | .passed => ⟨false, 0, 1⟩

/-- The same for a limited wait that someone else watches. -/
def watched : Limit → Pace
  | .never => ⟨false, 0, 0⟩
  | .at _ => ⟨true, 2, 3⟩
  | .passed => ⟨false, 0, 2⟩

/-- The pace of a watched wait that is over before its first turn. -/
def early : Nat := 1

end Pace

/-- A waiting call, and whether its wait is over. -/
structure Caller where
  call : Nat
  pace : Pace
  met : Bool
  late : Bool
  deriving DecidableEq, Repr

/-- A turn: a move, or the beginning of a call's watch. -/
structure Slot (μ : Type) where
  /-- The call whose turn it is, if it is a call's. -/
  call : Option Nat
  move : Option μ
  /-- How often the turn is put off. -/
  delay : Nat

/-- The turns in order, and the calls that have begun to watch with the delay of their turns. -/
structure Rota (μ : Type) where
  queue : List (Slot μ)
  watching : List (Nat × Nat)

namespace Rota

variable {μ : Type}

def none : Rota μ := ⟨[], []⟩

def slot? (r : Rota μ) (c : Caller) (resume : Bool → μ) : Option (Slot μ) :=
  let goOn (delay : Nat) : Option (Slot μ) :=
    if c.met then some ⟨some c.call, some (resume false), delay⟩
    else if c.late then some ⟨some c.call, some (resume true), c.pace.late⟩
    else .none
  match Keyed.get? c.call r.watching with
  | some delay => goOn delay
  | .none => if c.pace.arrives then some ⟨some c.call, .none, 0⟩ else goOn c.pace.met

def watch (r : Rota μ) (c : Caller) : Rota μ :=
  { r with watching := Keyed.put c.call (if c.met then Pace.early else c.pace.met) r.watching }

def leave (r : Rota μ) : Option Nat → Rota μ
  | some n => { r with watching := Keyed.erase n r.watching }
  | .none => r

def push (r : Rota μ) (t : Slot μ) : Rota μ := { r with queue := r.queue ++ [t] }

def unshift (r : Rota μ) (t : Slot μ) : Rota μ := { r with queue := t :: r.queue }

variable [DecidableEq μ]

/-- Whether two turns are of one call, or one move. -/
def clash (t u : Slot μ) : Bool :=
  if t.call.isSome then decide (t.call = u.call) else decide (t.move = u.move)

def join (r : Rota μ) (ready : List (Slot μ)) : Rota μ :=
  ready.foldl (fun r t => if r.queue.any (clash t) then r else r.push t) r

end Rota

/-- A machine whose moves take turns. -/
structure Roster (σ μ : Type) where
  rota : σ → Rota μ
  setRota : Rota μ → σ → σ
  /-- The turns that are possible now, those that were possible first before others. -/
  ready : σ → List (Slot μ)
  /-- How the wait of a call stands. -/
  caller? : σ → Nat → Option Caller
  apply : σ → μ → σ
  /-- Whether a move is repeated before anything else has its turn. -/
  repeats : σ → μ → Bool

namespace Roster

variable {σ μ : Type}

/-- A call begins to watch, if it still waits. -/
def begin (r : Roster σ μ) (rota : Rota μ) (call : Option Nat) (s : σ) : σ :=
  match call.bind (r.caller? s) with
  | some c => r.setRota (rota.watch c) s
  | none => r.setRota rota s

/-- A move has its turn, and is queued in front if it is to be repeated. -/
def take (r : Roster σ μ) (rota : Rota μ) (t : Slot μ) (move : μ) (s : σ) : σ :=
  let s := r.apply (r.setRota (rota.leave t.call) s) move
  if r.repeats s move then r.setRota ((r.rota s).unshift t) s else s

/-- The next turn, if there is one. -/
def step? [DecidableEq μ] (r : Roster σ μ) (s : σ) : Option σ :=
  let rota := (r.rota s).join (r.ready s)
  match rota.queue with
  | [] => none
  | t :: rest =>
    let rota := { rota with queue := rest }
    match t.delay, t.move with
    | delay + 1, _ => some (r.setRota (rota.push { t with delay }) s)
    | 0, some move => some (r.take rota t move s)
    | 0, none => some (r.begin rota t.call s)

/-- A turn changes the queue, or makes a move. -/
theorem step?_cases [DecidableEq μ] (r : Roster σ μ) {s s' : σ} (h : r.step? s = some s') :
    ∃ rota, s' = r.setRota rota s ∨ ∃ move, s' = r.apply (r.setRota rota s) move ∨
      ∃ rota', s' = r.setRota rota' (r.apply (r.setRota rota s) move) := by
  unfold step? at h
  simp only at h
  split at h
  · cases h
  · next t rest _ =>
    split at h
    · cases h
      exact ⟨_, .inl rfl⟩
    · next move _ _ =>
      cases h
      unfold take
      simp only
      split
      · exact ⟨_, .inr ⟨move, .inr ⟨_, rfl⟩⟩⟩
      · exact ⟨_, .inr ⟨move, .inl rfl⟩⟩
    · cases h
      unfold begin
      split <;> exact ⟨_, .inl rfl⟩

end Roster
end CoqConsole
