import CoqConsole.Keyed
import CoqConsole.Number.Scalar

/-!
# JSON values

* `Json` : a value; whole numbers are unbounded and apart from doubles, and an object keeps its
  members in the order in which their keys first came;
* `Json.ofMembers` : an object of written members, where the last value of a key counts;
* `Json.get?` : the value under a key;
* `Json.truthy` : neither null, false, zero nor empty;
* `Json.ofScalar`, `Json.scalar?` : numbers among the values.
-/

namespace CoqConsole

inductive Json
  | null
  | bool (b : Bool)
  | int (n : Int)
  | real (x : Double)
  | text (s : String)
  | array (items : List Json)
  | object (members : List (String × Json))
  deriving Repr, Inhabited

namespace Json

/-- An object of members as written: a key stands where it first came and has its last value. -/
def ofMembers (written : List (String × Json)) : Json :=
  object (written.foldl (fun members (k, v) => Keyed.put k v members) [])

def get? (key : String) : Json → Option Json
  | object members => Keyed.get? key members
  | _ => none

/-- Neither null, false, zero nor empty. -/
def truthy : Json → Bool
  | null => false
  | bool b => b
  | int n => n != 0
  | real x => !x.isZero
  | text s => !s.isEmpty
  | array items => !items.isEmpty
  | object members => !members.isEmpty

def isNull : Json → Bool
  | null => true
  | _ => false

instance : Coe String Json := ⟨text⟩

def ofScalar : Scalar → Json
  | .whole n => int n
  | .truth b => bool b
  | .real x => real x

def scalar? : Json → Option Scalar
  | int n => some (.whole n)
  | bool b => some (.truth b)
  | real x => some (.real x)
  | _ => none

mutual

/-- Equality of values, members in order. -/
def same : Json → Json → Bool
  | null, null => true
  | bool a, bool b => a == b
  | int a, int b => a == b
  | real a, real b => a == b
  | text a, text b => a == b
  | array a, array b => sameItems a b
  | object a, object b => sameMembers a b
  | _, _ => false

def sameItems : List Json → List Json → Bool
  | [], [] => true
  | a :: as, b :: bs => same a b && sameItems as bs
  | _, _ => false

def sameMembers : List (String × Json) → List (String × Json) → Bool
  | [], [] => true
  | (k, a) :: as, (l, b) :: bs => k == l && same a b && sameMembers as bs
  | _, _ => false

end

instance : BEq Json := ⟨same⟩

end Json
end CoqConsole
