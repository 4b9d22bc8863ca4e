import CoqConsole.Json.Key
import CoqConsole.Json.Access

/-!
# Entries

Keys and values are given as an object, or as a list of pairs in which a pair may be anything with two
elements.

* `Json.keyText` : a key as it is written;
* `Json.entries` : the keys and values in order.
-/

namespace CoqConsole.Json

/-- A key as it is written: a text as it is, the rest as JSON. -/
def keyText : Json → String
  | text s => s
  | v => v.write

/-- The key and the value at a place in a list. -/
def entryAt (place : Nat) (v : Json) : Except Failure (String × Json) :=
  match v.elements with
  | .ok [k, x] => k.key.map fun _ => (k.keyText, x)
  | .ok parts => .error (.noPair place parts.length)
  | .error _ => .error (.noEntry place)

/-- The entries from a place on; the first failure counts. -/
def entriesFrom : Nat → List Json → Except Failure (List (String × Json))
  | _, [] => .ok []
  | place, v :: rest => do
    let entry ← entryAt place v
    let entries ← entriesFrom (place + 1) rest
    return entry :: entries

def entries : Json → Except Failure (List (String × Json))
  | object members => .ok members
  | v => v.elements >>= entriesFrom 0

end CoqConsole.Json
