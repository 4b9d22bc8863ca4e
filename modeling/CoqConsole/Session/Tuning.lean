import CoqConsole.Session.Checking

/-!
# Changing the settings of a session

* `Desk.updateSettings` : lay values over the settings and send the whole tree; on the way from manual
  to continuous mode the server checks the active buffer up to its cursor;
* `Desk.toggleMode` : change between the two modes.
-/

namespace CoqConsole.Desk

variable {L : Type}

def updateSettings (carrier : Carrier L) (partialSettings : Json) : Op L Unit := do
  let previous ← proofMode
  let settings ← (Json.merge (← get).session.settings partialSettings : Except Failure Json)
  editSession fun s => { s with settings }
  send carrier "workspace/didChangeConfiguration" (.object [("settings", settings)])
  if previous = .manual then
    if (← proofMode) = .continuous then
      match (← get).active? with
      | some n => interpretTo carrier n .cursor
      | none => pure ()

def toggleMode (carrier : Carrier L) : Op L ProofMode := do
  let mode ← proofMode
  updateSettings carrier (Settings.modeUpdate mode.flip)
  proofMode

end CoqConsole.Desk
