import CoqConsole.ProofView.View
import CoqConsole.Session.Attachment
import CoqConsole.Session.Dialogue

/-!
# Notifications from the server

* `Signal` : the notifications that a session hears;
* `Desk.hear` : what each of them changes.
-/

namespace CoqConsole

/-- The notifications that a session hears. -/
inductive Signal
  | progress
  | cursor
  | proofView
  | searchHit
  deriving DecidableEq, Repr

namespace Signal

def method : Signal → String
  | progress => "vscoq/updateHighlights"
  | cursor => "vscoq/moveCursor"
  | proofView => "vscoq/proofView"
  | searchHit => "vscoq/searchResult"

def ofMethod? (method : String) : Option Signal :=
  [progress, cursor, proofView, searchHit].find? fun s => s.method == method

end Signal

namespace Desk

variable {L : Type}

def subject (params : Json) : Op L (Option Nat) := do
  match ← (params.member "uri" >>= Json.key : Except Failure Key) with
  | .text uri => return (← get).attached? uri
  | _ => return none

def hearProgress (carrier : Carrier L) (params : Json) : Op L Unit := do
  match ← subject params with
  | none => pure ()
  | some n =>
    let highlights ← (Progress.ofNotification params : Except Failure _)
    let e ← encoding carrier
    let d ← get
    let b ← (Progress.apply (d.bufferAt n) d.session.ns highlights e : Except Failure _)
    editBuffer n fun _ => b

/-- The server moved the cursor; followed in manual mode if the cursor is sticky. -/
def hearCursor (carrier : Carrier L) (params : Json) : Op L Unit := do
  match ← subject params with
  | none => pure ()
  | some n =>
    if (← proofMode) = .manual then
      if ← (Settings.stickyCursor (← get).session.settings : Except Failure Bool) then
        let stop ← (params.member "range" >>= Json.member "end" : Except Failure Json)
        let e ← encoding carrier
        let p ← (Position.ofWire (← buffer n).lines stop e : Except Failure Position)
        moveCursor carrier n p

def hearProofView (params : Json) : Op L Unit := do
  let lines ← (ProofView.ofJson params >>= fun view => view.render : Except Failure (List String))
  editSession fun s => { s with proofPane := s.proofPane.write (.replace lines) }

/-- A hit of a search, unless a later search was begun. -/
def hearSearchHit (params : Json) : Op L Unit := do
  let hit ← (SearchHit.ofJson params : Except Failure SearchHit)
  if ← accepts searchChannel hit.id then
    showSearch hit.id
    let lines ← (hit.render : Except Failure (List String))
    editSession fun s => { s with queryPane := s.queryPane.write (.append lines) }

def hear (carrier : Carrier L) (params : Json) : Signal → Op L Unit
  | .progress => hearProgress carrier params
  | .cursor => hearCursor carrier params
  | .proofView => hearProofView params
  | .searchHit => hearSearchHit params

end Desk
end CoqConsole
