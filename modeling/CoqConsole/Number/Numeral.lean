import CoqConsole.Text.Blank
import CoqConsole.Text.Digit

/-!
# Whole numbers in text

A numeral is a sign, if any, and digits of any script with single underscores between them; blanks
around it are ignored. The separators `U+001C` to `U+001F` are no such blanks.

* `Number.ofDigits` : the value of a list of digit values;
* `Number.numeral`, `Number.numeral?` : the number that a text writes; a numeral of too many digits is
  refused for a reason of its own.
-/

namespace CoqConsole.Number

/-- The value of decimal digits, the most significant first. -/
def ofDigits (ds : List Nat) : Nat := ds.foldl (fun n d => 10 * n + d) 0

def isMargin (c : Char) : Bool :=
  Text.isAsciiBlank c || (decide (0x7f ≤ c.toNat) && Text.isBlank c)

/-- The most digits that a numeral may have. -/
def digitLimit : Nat := 4300

inductive Numeral
  | value (n : Int)
  /-- More digits than a numeral may have. -/
  | excess (digits : Nat)
  | nothing
  deriving DecidableEq, Repr

/-- Digits with single underscores between them, up to a character that is neither, and the rest:
`fresh` says that a digit has to come next. -/
def digits? : Bool → List Char → Option (List Nat × List Char)
  | fresh, [] => if fresh then none else some ([], [])
  | fresh, c :: cs =>
    if c = '_' then if fresh then none else digits? true cs
    else match Text.digitValue? c with
      | some d => (digits? false cs).map fun (ds, rest) => (d :: ds, rest)
      | none => if fresh then none else some ([], c :: cs)

/-- A numeral without sign. A numeral that is too long is refused before what follows it is seen. -/
def magnitude (cs : List Char) : Numeral :=
  match digits? true cs with
  | none => .nothing
  | some (ds, rest) =>
    if digitLimit < ds.length then .excess ds.length
    else if rest.isEmpty then .value (ofDigits ds) else .nothing

def Numeral.negate : Numeral → Numeral
  | value n => value (-n)
  | v => v

def numeral (s : String) : Numeral :=
  match Text.dropEnd isMargin (s.toList.dropWhile isMargin) with
  | '-' :: cs => (magnitude cs).negate
  | '+' :: cs => magnitude cs
  | cs => magnitude cs

def numeral? (s : String) : Option Int :=
  match numeral s with
  | .value n => some n
  | _ => none

end CoqConsole.Number
