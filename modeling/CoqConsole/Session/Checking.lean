import CoqConsole.Session.Basic

/-!
# Asking the server to check

* `Desk.interpretTo` : check up to a place;
* `Direction`, `Desk.step` : one sentence forward or backward, or to the end.
-/

namespace CoqConsole

inductive Direction
  | forward
  | backward
  | toEnd
  deriving DecidableEq, Repr

namespace Direction

def name : Direction → String
  | forward => "forward"
  | backward => "backward"
  | toEnd => "end"

def method : Direction → String
  | forward => "vscoq/stepForward"
  | backward => "vscoq/stepBackward"
  | toEnd => "vscoq/interpretToEnd"

def all : List Direction := [forward, backward, toEnd]

/-- The direction of a name, if there is one. -/
def named? (name : Json) : Option Direction := all.find? fun d => Json.text d.name == name

def named (name : Json) : Except Failure Direction := do
  let _ ← name.key
  match named? name with
  | some d => return d
  | none => throw (.unknownDirection (all.map Direction.name) name)

end Direction

namespace Desk

variable {L : Type}

/-- How a buffer is named in messages: its address and the version of its text. -/
def versioned (b : Buffer Reaction Mark) : Json :=
  .object [("uri", .text b.uri), ("version", .int b.version)]

/-- A place in a buffer as the server counts. -/
def wirePlace (carrier : Carrier L) (n : Nat) (p : Place) : Op L Json := do
  let b ← buffer n
  let e ← encoding carrier
  (p.toWire b.lines b.cursor e : Except Failure Json)

/-- Ask the server to check up to a place. -/
def interpretTo (carrier : Carrier L) (n : Nat) (p : Place) : Op L Unit := do
  let place ← wirePlace carrier n p
  send carrier "vscoq/interpretToPoint"
    (.object [("textDocument", versioned (← buffer n)), ("position", place)])

def step (carrier : Carrier L) (n : Nat) (d : Direction) : Op L Unit := do
  send carrier d.method (.object [("textDocument", versioned (← buffer n))])

end Desk
end CoqConsole
