import CoqConsole.Pane.Basic
import CoqConsole.Time

/-!
# Waiting on a pane

A reader names a revision. If the pane is past it the wait is over; otherwise the next write ends
it, or its deadline does.

* `Waiter`, `Verdict` : a reader and how its wait ended;
* `Watch` : a pane, its readers, the time, and the writes that are due;
* `Watch.wait`, `Watch.write`, `Watch.expire` : the moves;
* `Watch.run` : time goes on until no reader waits.
-/

namespace CoqConsole

/-- How a wait ended, and when. -/
structure Verdict where
  changed : Bool
  time : Int
  deriving DecidableEq, Repr

/-- A reader: the revision it has seen, its deadline if it has one, and how its wait ended if it has. -/
structure Waiter where
  since : Scalar
  deadline : Option Int
  verdict : Option Verdict
  deriving DecidableEq, Repr

namespace Waiter

def settle (v : Verdict) (w : Waiter) : Waiter :=
  match w.verdict with
  | some _ => w
  | none => { w with verdict := some v }

def isWaiting (w : Waiter) : Bool := w.verdict.isNone

/-- End a wait whose deadline comes until `t`. -/
def expire (t : Int) (w : Waiter) : Waiter :=
  match w.deadline with
  | some deadline => if deadline ≤ t then w.settle ⟨false, deadline⟩ else w
  | none => w

end Waiter

/-- A pane, its readers, the time, and the writes that are due. -/
structure Watch where
  pane : Pane
  now : Int
  waiters : List Waiter
  due : List (Int × PaneWrite)
  deriving DecidableEq, Repr

namespace Watch

/-- How the wait of a reader begins. Past its revision, or without time to wait, it is over at once; only
a reader that has to wait needs a timeout that can be read. -/
def enter (w : Watch) (since : Scalar) (timeout : Json) : Except Failure Waiter :=
  if since.lt (.whole w.pane.revision) then .ok ⟨since, none, some ⟨true, w.now⟩⟩
  else (Limit.after w.now timeout).map fun
    | .passed => ⟨since, none, some ⟨false, w.now⟩⟩
    | limit => ⟨since, limit.due?, none⟩

def wait (w : Watch) (since : Scalar) (timeout : Json) : Except Failure Watch :=
  (w.enter since timeout).map fun r => { w with waiters := w.waiters ++ [r] }

def write (w : Watch) (change : PaneWrite) : Watch :=
  { w with
    pane := w.pane.write change
    waiters := w.waiters.map (Waiter.settle ⟨true, w.now⟩) }

/-- Let time pass up to `t`: waits whose deadline comes until then end. -/
def expire (w : Watch) (t : Int) : Watch :=
  { w with now := max w.now t, waiters := w.waiters.map (Waiter.expire t) }

def isWaiting (w : Watch) : Bool := w.waiters.any Waiter.isWaiting

def lastDeadline (w : Watch) : Int :=
  ((w.waiters.filter Waiter.isWaiting).filterMap Waiter.deadline).foldl max w.now

/-- Time goes on until no reader waits; writes that are not due by then stay due. -/
def runWith : List (Int × PaneWrite) → Watch → Watch
  | [], w => { w.expire w.lastDeadline with due := [] }
  | (t, change) :: rest, w =>
    if w.isWaiting then
      let w' := w.expire t
      if w'.isWaiting then runWith rest (w'.write change)
      else { w.expire w.lastDeadline with due := (t, change) :: rest }
    else { w with due := (t, change) :: rest }

def run (w : Watch) : Watch := runWith (w.due.mergeSort fun a b => decide (a.1 ≤ b.1)) w

end Watch
end CoqConsole
