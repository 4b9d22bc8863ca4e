import CoqConsole.Session.Dialogue

/-!
# Overlapping requests

* `Request` : what can be asked of the server about a buffer;
* `Exchange` : a desk and its requests under way, numbered in the order in which they were sent;
* `Exchange.begin`, `Exchange.post`, `Exchange.settle` : a request is begun, sent, and answered, with
  anything in between.
-/

namespace CoqConsole

/-- What can be asked of the server about a buffer. -/
inductive Request
  | search (pattern : Json) (place : Place)
  | question (kind : Json) (pattern : Json) (place : Place)
  | reset
  deriving Repr

def Desk.begin {L : Type} (carrier : Carrier L) (n : Nat) (timeout : Json) : Request → Desk.Op L Query
  | .search pattern p => beginSearch carrier n pattern p timeout
  | .question kind pattern p => beginQuestion carrier kind n pattern p timeout
  | .reset => beginReset n timeout

/-- A desk and its requests under way. -/
structure Exchange (L : Type) where
  desk : Desk L
  underWay : List (Nat × Query)
  sent : Nat

namespace Exchange

variable {L : Type}

def perform {α : Type} (x : Exchange L) (op : Desk.Op L α) : Except Failure α × Exchange L :=
  let (r, desk) := op.run.run x.desk
  (r, { x with desk })

def begin (carrier : Carrier L) (n : Nat) (timeout : Json) (r : Request) (x : Exchange L) :
    Except Failure Query × Exchange L :=
  x.perform (Desk.begin carrier n timeout r)

/-- A begun request is sent: it waits for its answer under the next number. -/
def post (q : Query) (x : Exchange L) : Nat × Exchange L :=
  (x.sent, { x with underWay := x.underWay ++ [(x.sent, q)], sent := x.sent + 1 })

def refuse (q : Query) (cause : Failure) (x : Exchange L) : Except Failure Bool × Exchange L :=
  x.perform (Desk.finish q (.error cause))

/-- The answer to a request under way; others are dropped. -/
def settle (number : Nat) (answer : Except Failure Json) (x : Exchange L) :
    Option (Except Failure Bool) × Exchange L :=
  match Keyed.get? number x.underWay with
  | none => (none, x)
  | some q =>
    let x := { x with underWay := Keyed.erase number x.underWay }
    let (r, x) := x.perform (Desk.finish q answer)
    (some r, x)

end Exchange
end CoqConsole
