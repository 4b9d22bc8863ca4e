/-!
# Finite double-precision numbers, kept exactly

* `Binary64` : a sign, a whole significand and a power of two, so a value is `± m * 2 ^ e`;
* `Binary64.ofQuotient` : the double nearest to a quotient of naturals, ties to the even one;
* `Binary64.ofDecimal` : the double nearest to `digits * 10 ^ e`;
* `Binary64.numerator`, `Binary64.denominator` : the value as a fraction;
* `Binary64.truncate`, `Binary64.ceiling`, `Binary64.roundEven` : the three ways to a whole number;
* `Binary64.times` : the product with a natural, rounded once.
-/

namespace CoqConsole

/-- A finite double: `significand * 2 ^ exponent`, negated if `negative`. -/
structure Binary64 where
  negative : Bool
  significand : Nat
  exponent : Int
  deriving DecidableEq, Repr, Inhabited

namespace Binary64

/-- The least exponent a double can have: that of the subnormal numbers. -/
def leastExponent : Int := -1074

/-- The greatest exponent a double can have. -/
def greatestExponent : Int := 971

/-- The number of bits of a natural: zero for zero. -/
def bitLength (n : Nat) : Nat := if n = 0 then 0 else n.log2 + 1

/-- A power; an exponent below zero counts as zero. -/
def power (base : Nat) (e : Int) : Nat := Nat.pow base e.toNat

/-- `num / den` rounded to a whole number, a half going to the even neighbour. -/
def divideEven (num den : Nat) : Nat :=
  let q := num / den
  let r := num % den
  if 2 * r < den then q else if den < 2 * r then q + 1 else if q % 2 = 0 then q else q + 1

/-- `num / den` in units of `2 ^ e`, rounded to even. -/
def scaleEven (num den : Nat) (e : Int) : Nat :=
  if 0 ≤ e then divideEven num (den * power 2 e) else divideEven (num * power 2 (-e)) den

/-- The exponent at which `num / den` has 53 significant bits, or the least exponent. The estimate
from the bit lengths is at most one too small, which rounding up to a fifty-fourth bit mends. -/
def unitExponent (num den : Nat) : Int :=
  let guess : Int := (bitLength num : Int) - (bitLength den : Int) - 53
  let tooSmall : Bool :=
    if 0 ≤ guess then decide (den * power 2 guess * power 2 53 ≤ num)
    else decide (den * power 2 53 ≤ num * power 2 (-guess))
  max leastExponent (if tooSmall then guess + 1 else guess)

/-- The double nearest to `num / den`, or `none` where it lies beyond the largest double. -/
def ofQuotient (negative : Bool) (num den : Nat) : Option Binary64 :=
  if num = 0 then some ⟨negative, 0, leastExponent⟩
  else
    let e := unitExponent num den
    let m := scaleEven num den e
    let (m, e) := if m = power 2 53 then (power 2 52, e + 1) else (m, e)
    if greatestExponent < e then none else some ⟨negative, m, e⟩

/-- Decimal exponents beyond which every number is zero or too large. -/
def decimalReach : Int := 400

/-- The double nearest to `digits * 10 ^ e`. -/
def ofDecimal (negative : Bool) (digits : Nat) (e : Int) : Option Binary64 :=
  let magnitude : Int := e + ((Nat.toDigits 10 digits).length : Int)
  if digits = 0 ∨ magnitude < -decimalReach then some ⟨negative, 0, leastExponent⟩
  else if decimalReach < magnitude then none
  else if 0 ≤ e then ofQuotient negative (digits * power 10 e) 1
  else ofQuotient negative digits (power 10 (-e))

/-- A whole number as a double, where one is near. -/
def ofInt (n : Int) : Option Binary64 := ofQuotient (decide (n < 0)) n.natAbs 1

/-- The value's numerator over `denominator`. -/
def numerator (x : Binary64) : Int :=
  let m : Int := if 0 ≤ x.exponent then (x.significand * power 2 x.exponent : Nat) else x.significand
  if x.negative then -m else m

/-- A power of two. -/
def denominator (x : Binary64) : Nat := if 0 ≤ x.exponent then 1 else power 2 (-x.exponent)

def isZero (x : Binary64) : Bool := x.significand == 0

/-- The whole part: the fraction is dropped, toward zero. -/
def truncate (x : Binary64) : Int := Int.tdiv x.numerator x.denominator

/-- The least whole number that is not below the value. -/
def ceiling (x : Binary64) : Int := -((-x.numerator) / (x.denominator : Int))

/-- A fraction rounded to a whole number, a half going to the even neighbour. -/
def quotientEven (num : Int) (den : Nat) : Int :=
  if num < 0 then -(divideEven num.natAbs den : Int) else (divideEven num.natAbs den : Int)

/-- The value times `scale`, rounded to a whole number, a half going to the even neighbour. -/
def roundEven (x : Binary64) (scale : Nat) : Int := quotientEven (x.numerator * scale) x.denominator

/-- The double nearest to the product with a natural; the number itself where there is none. -/
def times (x : Binary64) (n : Nat) : Binary64 :=
  (ofQuotient x.negative (x.numerator.natAbs * n) x.denominator).getD x

end Binary64
end CoqConsole
