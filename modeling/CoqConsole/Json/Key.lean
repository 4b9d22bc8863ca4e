import CoqConsole.Failure

/-!
# Values as keys

* `Key` : what a value is found under; equal numbers are one key;
* `Json.key` : the key of a value, which must not be compound.
-/

namespace CoqConsole

/-- What a value is found under. -/
inductive Key
  | null
  | whole (n : Int)
  | real (x : Double)
  | text (s : String)
  deriving DecidableEq, Repr

namespace Key

/-- The key of a double: that of the whole number it is equal to, if there is one. -/
def ofDouble : Double → Key
  | .finite x => if x.numerator % x.denominator = 0 then whole x.truncate else real (.finite x)
  | x => real x

end Key

def Json.key : Json → Except Failure Key
  | null => .ok .null
  | bool b => .ok (.whole (Scalar.unitOf b))
  | int n => .ok (.whole n)
  | real x => .ok (.ofDouble x)
  | text s => .ok (.text s)
  | v => .error (.noKey v.kind)

end CoqConsole
