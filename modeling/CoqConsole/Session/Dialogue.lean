import CoqConsole.ProofView.Answers
import CoqConsole.Session.Checking

/-!
# Requests of a session

A request is begun, which takes a ticket and fixes what is sent, and ended by its answer. Others may
begin and end in between. A failed request becomes a notice.

* `Query` : a request that was begun;
* `Desk.beginSearch`, `Desk.beginQuestion`, `Desk.beginReset`;
* `Desk.finish` : what an answer changes; false if the request failed or a later one overtook it.
-/

namespace CoqConsole

/-- The channel of searches. -/
def searchChannel : String := "search"

/-- The channel of questions. -/
def questionChannel : String := "query"

/-- The questions that can be asked about a name or term. -/
def questionKinds : List String := ["about", "check", "print", "locate"]

def isQuestion (kind : Json) : Bool := questionKinds.any fun k => Json.text k == kind

/-- What a request is for. -/
inductive Aim
  | search (ticket : Nat)
  | question (ticket : Nat)
  | reset
  deriving DecidableEq, Repr

/-- A request that was begun. -/
structure Query where
  aim : Aim
  method : String
  params : Json
  /-- The seconds to wait for an answer, null for no limit. -/
  timeout : Json
  deriving Repr

/-- The notice of a failed request; some failures are no matter of the request. -/
def Query.notice? (q : Query) : Failure → Option Notice
  | .refused method params _ message => some ⟨method, params, message⟩
  | .timedOut => some ⟨.text q.method, q.params, .text s!"no response within {q.timeout.shown}s"⟩
  | .notRunning => some ⟨.text q.method, q.params, .text Failure.notRunning.wording⟩
  | .lostConnection => some ⟨.text q.method, q.params, .text Failure.lostConnection.wording⟩
  | .stopped => some ⟨.text q.method, q.params, .text Failure.stopped.wording⟩
  | .unsupportedChoice encoding =>
    some ⟨.text q.method, q.params, .text (Failure.unsupportedChoice encoding).wording⟩
  | .unreachable reason => some ⟨.text q.method, q.params, .text reason⟩
  | _ => none

namespace Desk

variable {L : Type}

def issue (channel : String) : Op L Nat := do
  let (ticket, tickets) := (← get).session.tickets.issue channel
  editSession fun s => { s with tickets }
  return ticket

/-- Begin a search; its hits come by notification. -/
def beginSearch (carrier : Carrier L) (n : Nat) (pattern : Json) (p : Place) (timeout : Json) :
    Op L Query := do
  let ticket ← issue searchChannel
  let place ← wirePlace carrier n p
  let params := Json.object [
    ("id", .text (toString ticket)), ("textDocument", versioned (← buffer n)),
    ("position", place), ("pattern", pattern)]
  return ⟨.search ticket, "vscoq/search", params, timeout⟩

/-- Begin a question of one of the known kinds. -/
def beginQuestion (carrier : Carrier L) (kind : Json) (n : Nat) (pattern : Json) (p : Place)
    (timeout : Json) : Op L Query := do
  unless isQuestion kind do throw (.unknownKind questionKinds kind)
  let ticket ← issue questionChannel
  let place ← wirePlace carrier n p
  let params := Json.object [
    ("textDocument", versioned (← buffer n)), ("position", place), ("pattern", pattern)]
  return ⟨.question ticket, "vscoq/" ++ kind.shown, params, timeout⟩

/-- Begin to reset what the server knows of a buffer. -/
def beginReset (n : Nat) (timeout : Json) : Op L Query := do
  return ⟨.reset, "vscoq/resetCoq", .object [("textDocument", versioned (← buffer n))], timeout⟩

/-- Empty the query pane for a search, unless its hits are in it already. -/
def showSearch (ticket : Int) : Op L Unit :=
  editSession fun s =>
    if s.shownSearch = some ticket then s
    else { s with shownSearch := some ticket, queryPane := s.queryPane.write .clear }

/-- Whether an answer to a ticket is not stale. -/
def accepts (channel : String) (ticket : Int) : Op L Bool :=
  return (← get).session.tickets.accept channel ticket

def finish (q : Query) : Except Failure Json → Op L Bool
  | .ok value =>
    match q.aim with
    | .search ticket => do
      if ← accepts searchChannel ticket then showSearch ticket
      return true
    | .question ticket => do
      if ← accepts questionChannel ticket then
        let lines ← (renderAnswer value : Except Failure (List String))
        editSession fun s => { s with queryPane := s.queryPane.write (.replace lines) }
        return true
      else return false
    | .reset => return true
  | .error cause =>
    match q.notice? cause with
    | some notice => do
      editSession fun s => { s with notices := s.notices ++ [notice] }
      return false
    | none => throw cause

end Desk
end CoqConsole
