import CoqConsole.Json.Access

/-!
# Time

Times are whole ticks since the clock started, fine enough for every duration that is given as a double.

* `Time.ticks` : a number of seconds in ticks;
* `Limit` : until when something waits;
* `Time.millis`, `Time.micros` : whole milliseconds and microseconds, a half going to the even neighbour;
* `Time.ageText` : how long ago something was, in one word.
-/

namespace CoqConsole

namespace Time

/-- Ticks in a second. -/
def second : Nat := Nat.pow 10 21

def ticks : Scalar → Int
  | .whole n => n * second
  | .truth b => Scalar.unitOf b * second
  | .real (.finite x) => x.roundEven second
  | .real _ => 0

def seconds (t : Int) : Binary64 :=
  (Binary64.ofQuotient (decide (t < 0)) t.natAbs second).getD default

def millis (t : Int) : Int := ((seconds t).times 1000).roundEven 1

/-- Whole microseconds of a number of seconds. The fraction of a second is scaled by itself, so that it
does not lose digits to a large whole part. -/
def microsOf (x : Binary64) : Int :=
  let whole := x.truncate
  let rest := x.numerator - whole * x.denominator
  let fraction := (Binary64.ofQuotient x.negative rest.natAbs x.denominator).getD default
  whole * 1000000 + (fraction.times 1000000).roundEven 1

def micros (t : Int) : Int := microsOf (seconds t)

/-- Whole seconds of a number of microseconds; the rest is dropped. -/
def wholeSeconds (duration : Int) : Int :=
  match Binary64.ofQuotient (decide (duration < 0)) duration.natAbs 1000000 with
  | some x => x.truncate
  | none => Int.tdiv duration 1000000

def hoursText (seconds : Nat) : String :=
  let tenths := match Binary64.ofQuotient false seconds 3600 with
    | some hours => (hours.roundEven 10).toNat
    | none => seconds / 360
  s!"{tenths / 10}.{tenths % 10}h"

/-- How many microseconds ago something was: in seconds, in minutes from one on, in hours from one on. -/
def ageText (duration : Int) : String :=
  let seconds := wholeSeconds duration
  if seconds < 60 then s!"{seconds}s"
  else if seconds < 3600 then s!"{seconds / 60}m"
  else hoursText seconds.toNat

end Time

inductive Limit
  | never
  | at (time : Int)
  /-- No time at all: the wait is over before anything can end it. -/
  | passed
  deriving DecidableEq, Repr

namespace Limit

def afterSeconds (now : Int) (x : Scalar) : Limit :=
  if x.le 0 then passed
  else match x with
    | .real (.infinite _) | .real .undefined => never
    | x => .at (now + Time.ticks x)

/-- A number of seconds from now; null for no limit. -/
def after (now : Int) : Json → Except Failure Limit
  | .null => .ok never
  | v => v.toScalar.map (afterSeconds now)

def isOver (now : Int) : Limit → Bool
  | never => false
  | .at t => decide (t ≤ now)
  | passed => true

def due? : Limit → Option Int
  | .at t => some t
  | _ => none

end Limit
end CoqConsole
