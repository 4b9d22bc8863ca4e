/-!
# Clockwork

A machine moves by steps that take no time. When no step is left, the clock goes on to the next time
at which something is due.

* `Clockwork` : the steps and the clock of a machine;
* `Clockwork.settle` : steps until none is left;
* `Clockwork.advance` : until a time; `Clockwork.await` : until a condition holds.

Each takes a number of steps that it does not exceed.
-/

namespace CoqConsole

/-- The steps and the clock of a machine. -/
structure Clockwork (σ : Type) where
  step? : σ → Option σ
  now : σ → Int
  due? : σ → Option Int
  setNow : Int → σ → σ

namespace Clockwork

variable {σ : Type}

/-- Steps that one operation may take. -/
def patience : Nat := 100000

def settle (c : Clockwork σ) : Nat → σ → σ
  | 0, s => s
  | fuel + 1, s =>
    match c.step? s with
    | some s => settle c fuel s
    | none => s

/-- Let everything happen up to a time. The clock does not go back. -/
def advance (c : Clockwork σ) (time : Int) : Nat → σ → σ
  | 0, s => s
  | fuel + 1, s =>
    let s := c.settle patience s
    match c.due? s with
    | some t => if t ≤ time then advance c time fuel (c.setNow t s) else c.setNow (max time (c.now s)) s
    | none => c.setNow (max time (c.now s)) s

/-- Let everything happen until a condition holds, or nothing is due any more. -/
def await (c : Clockwork σ) (done : σ → Bool) : Nat → σ → σ
  | 0, s => s
  | fuel + 1, s =>
    let s := c.settle patience s
    if done s then s
    else match c.due? s with
      | some t => await c done fuel (c.setNow t s)
      | none => s

end Clockwork
end CoqConsole
