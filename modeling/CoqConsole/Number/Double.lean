import CoqConsole.Number.Shortest

/-!
# Double-precision numbers

* `Double` : a finite number, an infinity, or no number at all;
* `Double.ofQuotient`, `Double.ofDecimal` : the nearest one, infinite beyond the largest;
* `Double.add` : the exact sum with a whole number, rounded once;
* `Double.text` : the written number.
-/

namespace CoqConsole

inductive Double
  | finite (x : Binary64)
  | infinite (negative : Bool)
  /-- The result of an operation that has none. -/
  | undefined
  deriving DecidableEq, Repr, Inhabited

namespace Double

/-- A rounded magnitude, or the infinity of its sign. -/
def ofRounded (negative : Bool) : Option Binary64 → Double
  | some x => .finite x
  | none => .infinite negative

/-- The double nearest to `± num / den`. -/
def ofQuotient (negative : Bool) (num den : Nat) : Double :=
  ofRounded negative (Binary64.ofQuotient negative num den)

/-- The double nearest to `± digits * 10 ^ e`. -/
def ofDecimal (negative : Bool) (digits : Nat) (e : Int) : Double :=
  ofRounded negative (Binary64.ofDecimal negative digits e)

def ofInt (n : Int) : Double := ofRounded (decide (n < 0)) (Binary64.ofInt n)

def isZero : Double → Bool
  | finite x => x.isZero
  | _ => false

def add (n : Int) : Double → Double
  | finite x =>
    let sum := x.numerator + n * x.denominator
    ofQuotient (decide (sum < 0)) sum.natAbs x.denominator
  | x => x

/-- The written number; an infinity and what is no number have names. -/
def text (infinity nothing : String) : Double → List Char
  | finite x => x.text
  | infinite false => infinity.toList
  | infinite true => '-' :: infinity.toList
  | undefined => nothing.toList

end Double
end CoqConsole
