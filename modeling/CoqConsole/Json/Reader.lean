import CoqConsole.Failure

/-!
# Reading JSON

* `Json.textBody`, `Json.joinHalves` : the characters of a text up to its closing quote;
* `Json.plainAt` : a word or a number at the start of the rest;
* `Json.valueAt` : a value at the start of the rest; each call has less fuel, and no value needs more
  than its length;
* `Json.read` : the value of a whole text.
-/

namespace CoqConsole.Json

def isSpace (c : Char) : Bool := c == ' ' || c == '\t' || c == '\n' || c == '\r'

def skipSpace (cs : List Char) : List Char := cs.dropWhile isSpace

def hexValue? (c : Char) : Option Nat :=
  let n := c.toNat
  if 48 ≤ n ∧ n ≤ 57 then some (n - 48)
  else if 97 ≤ n ∧ n ≤ 102 then some (n - 87)
  else if 65 ≤ n ∧ n ≤ 70 then some (n - 55)
  else none

def unitValue? (a b c d : Char) : Option Nat := do
  return 0x1000 * (← hexValue? a) + 0x100 * (← hexValue? b) + 0x10 * (← hexValue? c) + (← hexValue? d)

/-- The character that a letter after a backslash stands for. -/
def escapeValue? (c : Char) : Option Char :=
  if c = '"' ∨ c = '\\' ∨ c = '/' then some c
  else if c = 'n' then some '\n'
  else if c = 'r' then some '\r'
  else if c = 't' then some '\t'
  else if c = 'f' then some '\x0c'
  else if c = 'b' then some '\x08'
  else none

def isHighHalf (n : Nat) : Bool := decide (0xd800 ≤ n) && decide (n ≤ 0xdbff)

def isLowHalf (n : Nat) : Bool := decide (0xdc00 ≤ n) && decide (n ≤ 0xdfff)

/-- The character of a code unit; a half of a pair that stands alone is replaced. -/
def unitChar (n : Nat) : Char := if isHighHalf n || isLowHalf n then '\ufffd' else Char.ofNat n

def pairChar (high low : Nat) : Char := Char.ofNat (0x10000 + (high - 0xd800) * 0x400 + (low - 0xdc00))

/-- The numbers of the characters of a text, halves of pairs apart, and what follows its closing quote. A
control character is refused. -/
def textBody : List Char → Option (List Nat × List Char)
  | [] => none
  | '"' :: cs => some ([], cs)
  | '\\' :: 'u' :: a :: b :: c :: d :: cs => do
    let n ← unitValue? a b c d
    let (body, rest) ← textBody cs
    return (n :: body, rest)
  | '\\' :: e :: cs => do
    let c ← escapeValue? e
    let (body, rest) ← textBody cs
    return (c.toNat :: body, rest)
  | c :: cs =>
    if c.toNat < 0x20 ∨ c = '\\' then none
    else do
      let (body, rest) ← textBody cs
      return (c.toNat :: body, rest)

def joinHalves : List Nat → List Char
  | [] => []
  | [n] => [unitChar n]
  | high :: low :: rest =>
    if isHighHalf high && isLowHalf low then pairChar high low :: joinHalves rest
    else unitChar high :: joinHalves (low :: rest)

/-- The digits at the start, and the rest. -/
def spanDigits (cs : List Char) : List Char × List Char :=
  cs.span fun c => (Text.asciiDigit? c).isSome

def digitsValue (cs : List Char) : Nat := Number.ofDigits (cs.filterMap Text.asciiDigit?)

/-- The digits after a point, if there are any. -/
def fractionAt (cs : List Char) : List Char × List Char :=
  match cs with
  | '.' :: rest =>
    match spanDigits rest with
    | ([], _) => ([], cs)
    | (ds, rest) => (ds, rest)
  | _ => ([], cs)

/-- The exponent, if one is written. -/
def exponentAt (cs : List Char) : Option Int × List Char :=
  match cs with
  | c :: rest =>
    if c = 'e' ∨ c = 'E' then
      let (negative, rest) := match rest with
        | '-' :: rest => (true, rest)
        | '+' :: rest => (false, rest)
        | _ => (false, rest)
      match spanDigits rest with
      | ([], _) => (none, cs)
      | (ds, rest) =>
        (some (if negative then -(digitsValue ds : Int) else (digitsValue ds : Int)), rest)
    else (none, cs)
  | [] => (none, [])

/-- The digits of the whole part: a zero, or digits that do not start with one. -/
def wholeAt (cs : List Char) : Option (List Char × List Char) :=
  match spanDigits cs with
  | ([], _) => none
  | ('0' :: more, rest) => some (['0'], more ++ rest)
  | (ds, rest) => some (ds, rest)

/-- A number without its sign. A whole number may not have too many digits. -/
def magnitudeAt (negative : Bool) (cs : List Char) : Except Failure (Json × List Char) :=
  match wholeAt cs with
  | none => .error .badJson
  | some (whole, rest) =>
    let (fraction, rest) := fractionAt rest
    let (exponent, rest) := exponentAt rest
    if fraction.isEmpty ∧ exponent.isNone then
      if Number.digitLimit < whole.length then .error (.longNumeral whole.length)
      else
        let n : Int := digitsValue whole
        .ok (int (if negative then -n else n), rest)
    else
      let digits := digitsValue (whole ++ fraction)
      .ok (real (.ofDecimal negative digits (exponent.getD 0 - (fraction.length : Int))), rest)

def wordAt? (word cs : List Char) : Option (List Char) :=
  if word.isPrefixOf cs then some (cs.drop word.length) else none

def words : List (String × Json) :=
  [("null", null), ("true", bool true), ("false", bool false), ("NaN", real .undefined),
   ("Infinity", real (.infinite false)), ("-Infinity", real (.infinite true))]

def plainAt (cs : List Char) : Except Failure (Json × List Char) :=
  match words.findSome? fun (word, v) => (wordAt? word.toList cs).map (v, ·) with
  | some found => .ok found
  | none =>
    match cs with
    | '-' :: cs => magnitudeAt true cs
    | cs => magnitudeAt false cs

def textAt (cs : List Char) : Except Failure (String × List Char) :=
  match textBody cs with
  | some (body, rest) => .ok (String.ofList (joinHalves body), rest)
  | none => .error .badJson

/-- How deep values may be nested. -/
def depthLimit : Nat := 975

mutual

/-- A value at the start of the rest; `depth` levels may still be opened. -/
def valueAt : Nat → Nat → List Char → Except Failure (Json × List Char)
  | 0, _, _ => .error .badJson
  | fuel + 1, depth, cs =>
    match cs with
    | '"' :: rest => do
      let (s, rest) ← textAt rest
      return (text s, rest)
    | '[' :: rest =>
      match depth with
      | 0 => .error .tooDeep
      | depth + 1 =>
        match skipSpace rest with
        | ']' :: rest => .ok (array [], rest)
        | rest => do
          let (items, rest) ← itemsAt fuel depth rest
          return (array items, rest)
    | '\x7b' :: rest =>
      match depth with
      | 0 => .error .tooDeep
      | depth + 1 =>
        match skipSpace rest with
        | '\x7d' :: rest => .ok (object [], rest)
        | rest => do
          let (members, rest) ← membersAt fuel depth rest
          return (ofMembers members, rest)
    | _ => plainAt cs

def itemsAt : Nat → Nat → List Char → Except Failure (List Json × List Char)
  | 0, _, _ => .error .badJson
  | fuel + 1, depth, cs => do
    let (v, rest) ← valueAt fuel depth cs
    match skipSpace rest with
    | ',' :: rest =>
      let (more, rest) ← itemsAt fuel depth (skipSpace rest)
      return (v :: more, rest)
    | ']' :: rest => return ([v], rest)
    | _ => throw .badJson

def membersAt : Nat → Nat → List Char → Except Failure (List (String × Json) × List Char)
  | 0, _, _ => .error .badJson
  | fuel + 1, depth, cs =>
    match cs with
    | '"' :: rest => do
      let (key, rest) ← textAt rest
      match skipSpace rest with
      | ':' :: rest =>
        let (v, rest) ← valueAt fuel depth (skipSpace rest)
        match skipSpace rest with
        | ',' :: rest =>
          let (more, rest) ← membersAt fuel depth (skipSpace rest)
          return ((key, v) :: more, rest)
        | '\x7d' :: rest => return ([(key, v)], rest)
        | _ => throw .badJson
      | _ => throw .badJson
    | _ => .error .badJson

end

/-- The value of a whole text, blanks around it aside. -/
def readChars (cs : List Char) : Except Failure Json := do
  let (v, rest) ← valueAt (cs.length + 1) depthLimit (skipSpace cs)
  if (skipSpace rest).isEmpty then return v else throw .badJson

def read (s : String) : Except Failure Json := readChars s.toList

end CoqConsole.Json
