import CoqConsole.Failure

/-!
# Taking values apart

* `Json.member` : the value under a key, which has to be there;
* `Json.find` : the value under a key of an object, if it is there;
* `Json.elements` : the items of a list, the characters of a text, the keys of an object;
* `Json.pair` : exactly two elements;
* `Json.toInt` : a whole number from a number, a truth value or a numeral;
* `Json.toScalar` : a number.
-/

namespace CoqConsole.Json

/-- The value under a key, which has to be there. -/
def member (key : String) : Json → Except Failure Json
  | object members =>
    match Keyed.get? key members with
    | some v => .ok v
    | none => .error (.absent key)
  | v => .error (.noParts v.kind)

/-- The value under a key of an object, if it is there. -/
def find (key : String) : Json → Except Failure (Option Json)
  | object members => .ok (Keyed.get? key members)
  | v => .error (.noOperation v.kind "get")

/-- The items of a list, the characters of a text, the keys of an object. -/
def elements : Json → Except Failure (List Json)
  | array items => .ok items
  | text s => .ok (s.toList.map fun c => text (String.singleton c))
  | object members => .ok (members.map fun (k, _) => text k)
  | v => .error (.noElements v.kind)

def pair (v : Json) : Except Failure (Json × Json) := do
  match ← v.elements with
  | [a, b] => return (a, b)
  | _ => throw .wrongCount

/-- A whole number from a number, whose fraction is dropped, a truth value or a numeral. -/
def toInt : Json → Except Failure Int
  | int n => .ok n
  | bool b => .ok (if b then 1 else 0)
  | real (.finite x) => .ok x.truncate
  | real (.infinite _) => .error .infiniteNumber
  | real .undefined => .error .undefinedNumber
  | text s =>
    match Number.numeral s with
    | .value n => .ok n
    | .excess digits => .error (.longNumeral digits)
    | .nothing => .error (.badNumeral s)
  | v => .error (.noNumber v.kind)

def toScalar (v : Json) : Except Failure Scalar :=
  match v.scalar? with
  | some x => .ok x
  | none => .error .wrongKind

end CoqConsole.Json
