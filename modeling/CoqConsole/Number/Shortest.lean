import CoqConsole.Number.Binary64

/-!
# The shortest decimal text of a double

Among the decimals that read back as the same double, the text is one with the fewest digits, and
of those the nearest to the value.

* `Binary64.readsBack` : whether `d * 10 ^ p` lies in the interval that rounds to the double;
* `Binary64.shortest` : the digits and their power of ten;
* `DecimalStyle` : where positional notation ends and how an exponent is written;
* `Binary64.text` : the written number.
-/

namespace CoqConsole

namespace Binary64

/-- Scale `num / den` by a power of ten, as a fraction of naturals. -/
def overPower (num den : Nat) (p : Int) : Nat × Nat :=
  if 0 ≤ p then (num, den * power 10 p) else (num * power 10 (-p), den)

/-- Four times the value and the two ends of the interval that rounds to it, over one denominator.
The lower end is nearer where the significand is the least of its binade. -/
def interval (x : Binary64) : Nat × Nat × Nat × Nat :=
  let low : Bool := x.significand == power 2 52 && x.exponent != leastExponent
  let below := if low then 1 else 2
  let scale (k : Nat) : Nat := if 0 ≤ x.exponent then k * power 2 x.exponent else k
  let den := if 0 ≤ x.exponent then 4 else 4 * power 2 (-x.exponent)
  (scale (4 * x.significand), scale (4 * x.significand - below), scale (4 * x.significand + 2), den)

/-- `d * 10 ^ p` rounds to `x`: the ends belong to the interval when the significand is even. -/
def readsBack (x : Binary64) (d : Nat) (p : Int) : Bool :=
  let (_, lo, hi, den) := x.interval
  let (lo, loDen) := overPower lo den p
  let (hi, hiDen) := overPower hi den p
  if x.significand % 2 = 0 then decide (lo ≤ d * loDen) && decide (d * hiDen ≤ hi)
  else decide (lo < d * loDen) && decide (d * hiDen < hi)

/-- The largest `p` with `10 ^ p ≤ num / den`, searched from an upper bound. -/
def leadingPower (num den : Nat) : Nat → Int → Int
  | 0, p => p
  | fuel + 1, p =>
    let (n, d) := overPower num den p
    if d ≤ n then p else leadingPower num den fuel (p - 1)

/-- The decimal with digits on the grid `10 ^ p` nearest to the value, if one reads back. A tie goes
to the even digit. -/
def onGrid (x : Binary64) (p : Int) : Option Nat :=
  let (v, _, _, den) := x.interval
  let (n, d) := overPower v den p
  let low := n / d
  let near := divideEven n d
  let far := if near = low then low + 1 else low
  if x.readsBack near p then some near else if x.readsBack far p then some far else none

/-- The first of the next `fuel` finer grids with a decimal that reads back. -/
def firstGrid (x : Binary64) : Nat → Int → Nat × Int
  | 0, p => ((x.onGrid p).getD 0, p)
  | fuel + 1, p =>
    match x.onGrid p with
    | some d => (d, p)
    | none => firstGrid x fuel (p - 1)

def trimZeros : Nat → Nat → Int → Nat × Int
  | 0, d, p => (d, p)
  | fuel + 1, d, p => if d % 10 = 0 ∧ d ≠ 0 then trimZeros fuel (d / 10) (p + 1) else (d, p)

/-- The shortest digits `d` and power `p` with `d * 10 ^ p` rounding to the magnitude. -/
def shortest (x : Binary64) : Nat × Int :=
  if x.isZero then (0, 0)
  else
    let (v, _, _, den) := x.interval
    let top := leadingPower v den 700 310
    let (d, p) := x.firstGrid 20 top
    trimZeros 20 d p

end Binary64

/-- Where positional notation ends and how an exponent is written. -/
structure DecimalStyle where
  /-- The least decimal exponent written without an exponent. -/
  firstPositional : Int
  /-- The first decimal exponent written with one again. -/
  firstScientific : Int
  /-- Digits that an exponent has at least. -/
  exponentWidth : Nat

/-- Numbers from `1e-4` up to `1e16` are positional; an exponent carries its sign and two digits. -/
def DecimalStyle.standard : DecimalStyle := ⟨-4, 16, 2⟩

namespace DecimalStyle

/-- A text filled up on the left with zeros. -/
def padZeros (width : Nat) (cs : List Char) : List Char :=
  List.replicate (width - cs.length) '0' ++ cs

/-- The magnitude `d * 10 ^ p`, where `d` has no trailing zero. -/
def magnitude (style : DecimalStyle) (d : Nat) (p : Int) : List Char :=
  let digits := Nat.toDigits 10 d
  let lead : Int := p + (digits.length : Int) - 1
  if style.firstPositional ≤ lead ∧ lead < style.firstScientific then
    if 0 ≤ p then digits ++ List.replicate p.toNat '0' ++ ".0".toList
    else if 0 ≤ lead then
      digits.take (lead.toNat + 1) ++ '.' :: digits.drop (lead.toNat + 1)
    else "0.".toList ++ List.replicate (-lead - 1).toNat '0' ++ digits
  else
    let mantissa := match digits with
      | [] => []
      | [c] => [c]
      | c :: rest => c :: '.' :: rest
    let sign := if lead < 0 then '-' else '+'
    mantissa ++ 'e' :: sign :: padZeros style.exponentWidth (Nat.toDigits 10 lead.natAbs)

end DecimalStyle

/-- The written number: the shortest text that reads back. -/
def Binary64.text (x : Binary64) : List Char :=
  let (d, p) := x.shortest
  let body := if x.isZero then "0.0".toList else DecimalStyle.standard.magnitude d p
  if x.negative then '-' :: body else body

end CoqConsole
