import CoqConsole.Number.Double

/-!
# Numbers of any kind

A number that comes from outside is whole, a truth value that counts as one or zero, or a double. They
are compared by their exact size, and an operation gives one of the numbers that it was given wherever
it can, so that `max` keeps its first argument among equals.

* `Size`, `Scalar.size` : where a number lies;
* `Scalar.lt`, `Scalar.le`, `Scalar.eqv`, `Scalar.max`, `Scalar.min`;
* `Scalar.index?` : a number that can count places in a list;
* `Scalar.add` : the sum with a whole number.
-/

namespace CoqConsole

/-- A number of any kind. -/
inductive Scalar
  | whole (n : Int)
  | truth (b : Bool)
  | real (x : Double)
  deriving DecidableEq, Repr

instance : Inhabited Scalar := ⟨.whole 0⟩

instance : Coe Int Scalar := ⟨.whole⟩

instance (n : Nat) : OfNat Scalar n := ⟨.whole n⟩

/-- Where a number lies: below all fractions, at one of them, above them, or nowhere. -/
inductive Size
  | low
  | at (numerator : Int) (denominator : Nat)
  | high
  | nowhere
  deriving DecidableEq, Repr

namespace Size

def lt : Size → Size → Bool
  | .at a b, .at c d => decide (a * d < c * b)
  | low, .at .. | low, high | .at .., high => true
  | _, _ => false

def eqv : Size → Size → Bool
  | .at a b, .at c d => a * d == c * b
  | low, low | high, high => true
  | _, _ => false

end Size

namespace Scalar

def unitOf (b : Bool) : Int := if b then 1 else 0

def size : Scalar → Size
  | whole n => .at n 1
  | truth b => .at (unitOf b) 1
  | real (.finite x) => .at x.numerator x.denominator
  | real (.infinite true) => .low
  | real (.infinite false) => .high
  | real .undefined => .nowhere

def lt (a b : Scalar) : Bool := a.size.lt b.size

def eqv (a b : Scalar) : Bool := a.size.eqv b.size

def le (a b : Scalar) : Bool := a.lt b || a.eqv b

/-- The greater of two numbers, the first among equals. -/
def max (a b : Scalar) : Scalar := if a.lt b then b else a

/-- The lesser of two numbers, the first among equals. -/
def min (a b : Scalar) : Scalar := if b.lt a then b else a

/-- A number that can count places in a list. -/
def index? : Scalar → Option Int
  | whole n => some n
  | truth b => some (unitOf b)
  | real _ => none

def add (n : Int) : Scalar → Scalar
  | whole m => whole (m + n)
  | truth b => whole (unitOf b + n)
  | real x => real (x.add n)

end Scalar
end CoqConsole
