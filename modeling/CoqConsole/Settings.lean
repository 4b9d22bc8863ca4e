import CoqConsole.Json.Access
import CoqConsole.Json.Merge

/-!
# Settings

The server has no defaults of its own: the whole tree is sent when it starts and again on every
change.

* `Settings.defaults`, `Settings.make` : the tree, with other values laid over it;
* `ProofMode`, `Settings.proofMode` : whether the server checks as the cursor moves;
* `Settings.stickyCursor` : whether the cursor follows the server in manual mode.
-/

namespace CoqConsole

/-- Whether the server checks up to the cursor as it moves. -/
inductive ProofMode
  | manual
  | continuous
  deriving DecidableEq, Repr

namespace ProofMode

/-- The number that stands for a mode in the settings. -/
def number : ProofMode → Int
  | manual => 0
  | continuous => 1

def ofInt (n : Int) : Except Failure ProofMode :=
  if n = 0 then .ok manual else if n = 1 then .ok continuous else .error (.unknownMode n)

def name : ProofMode → String
  | manual => "manual"
  | continuous => "continuous"

def flip : ProofMode → ProofMode
  | manual => continuous
  | continuous => manual

end ProofMode

namespace Settings

/-- The settings of a new session. -/
def defaults : Json :=
  .object [
    ("goals", .object [
      ("display", .text "List"),
      ("diff", .object [("mode", .text "off")]),
      ("messages", .object [("full", .bool false)])]),
    ("proof", .object [
      ("mode", .int ProofMode.continuous.number),
      ("cursor", .object [("sticky", .bool true)]),
      ("delegation", .text "None"),
      ("workers", .int 1)]),
    ("completion", .object [
      ("enable", .bool false),
      ("unificationLimit", .int 100),
      ("algorithm", .int 1)]),
    ("diagnostics", .object [("full", .bool false)])]

/-- The defaults with other values laid over them; a value that counts as nothing changes nothing. -/
def make (overrides : Json) : Except Failure Json :=
  Json.merge defaults (if overrides.truthy then overrides else .object [])

def proofMode (settings : Json) : Except Failure ProofMode := do
  let mode ← (← settings.member "proof").member "mode"
  ProofMode.ofInt (← mode.toInt)

/-- Whether the cursor follows the server in manual mode. -/
def stickyCursor (settings : Json) : Except Failure Bool := do
  let sticky ← (← (← settings.member "proof").member "cursor").member "sticky"
  return sticky.truthy

def modeUpdate (mode : ProofMode) : Json := .object [("proof", .object [("mode", .int mode.number)])]

end Settings
end CoqConsole
