/-!
# Keyed lists

Lists of pairs that keep the order in which their keys first came.

* `Keyed.get?` : the value of the first pair with a key;
* `Keyed.put` : set a value, in its place if the key is there and at the end otherwise;
* `Keyed.erase` : the list without a key.
-/

namespace CoqConsole.Keyed

variable {κ α : Type} [DecidableEq κ]

/-- The value of the first pair with the key. -/
def get? (key : κ) : List (κ × α) → Option α
  | [] => none
  | (k, v) :: rest => if k = key then some v else get? key rest

def has (key : κ) (pairs : List (κ × α)) : Bool := (get? key pairs).isSome

/-- Set a value: in its place if the key is there, at the end otherwise. -/
def put (key : κ) (value : α) : List (κ × α) → List (κ × α)
  | [] => [(key, value)]
  | (k, v) :: rest => if k = key then (k, value) :: rest else (k, v) :: put key value rest

def erase (key : κ) (pairs : List (κ × α)) : List (κ × α) := pairs.filter fun p => !decide (p.1 = key)

def keys (pairs : List (κ × α)) : List κ := pairs.map (·.1)

end CoqConsole.Keyed
