import CoqConsole.Keyed
import CoqConsole.Number.Scalar

/-!
# Tickets

Each request for an answer takes a ticket. One counter serves every channel; an answer is stale when
a later ticket was issued on its channel. A ticket may be answered many times.

* `Tickets.issue`, `Tickets.latest`, `Tickets.accept`;
* `Tickets.acceptNumber` : the same for a ticket that need not be whole.
-/

namespace CoqConsole

/-- The number of tickets issued and the last one of each channel. -/
structure Tickets (κ : Type) where
  issued : Nat
  last : List (κ × Nat)
  deriving DecidableEq, Repr

namespace Tickets

variable {κ : Type}

def none : Tickets κ := ⟨0, []⟩

variable [DecidableEq κ]

/-- The next ticket, for a channel. -/
def issue (t : Tickets κ) (channel : κ) : Nat × Tickets κ :=
  (t.issued + 1, ⟨t.issued + 1, Keyed.put channel (t.issued + 1) t.last⟩)

/-- The last ticket of a channel, zero if there is none. -/
def latest (t : Tickets κ) (channel : κ) : Nat := (Keyed.get? channel t.last).getD 0

/-- Whether an answer to a ticket is not stale. -/
def accept (t : Tickets κ) (channel : κ) (ticket : Int) : Bool :=
  decide ((t.latest channel : Int) ≤ ticket)

/-- Whether an answer to a ticket of any kind is not stale. -/
def acceptNumber (t : Tickets κ) (channel : κ) (ticket : Scalar) : Bool :=
  Scalar.le (.whole (t.latest channel)) ticket

end Tickets
end CoqConsole
