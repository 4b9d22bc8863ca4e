import CoqConsole.Buffer.Emission
import CoqConsole.Json.Key
import CoqConsole.Notice
import CoqConsole.Pane.Basic
import CoqConsole.Progress
import CoqConsole.Settings
import CoqConsole.Tickets

/-!
# Proof sessions

A session is the client's side of one server: the buffers attached to it, two panes, tickets,
settings and notices. The panes belong to the session, not to a buffer, since a proof view does not
say which buffer it is about.

* `Session` : the state; `Session.create` makes a fresh one;
* `Desk` : a session with its buffers and its link to the server;
* `Carrier` : what a link can do;
* `Desk.Op` : operations, which keep what they did before a failure.
-/

namespace CoqConsole

/-- How a session reacts to what happens in a buffer. -/
inductive Reaction
  /-- Make the buffer the active one and let the server check up to its cursor. -/
  | follow
  /-- Send the new text. -/
  | report
  /-- Let the buffer go. -/
  | release
  deriving DecidableEq, Repr

/-- A buffer that the session holds: its number and its subscriptions. -/
structure Attachment where
  buffer : Nat
  handles : List Nat
  deriving DecidableEq, Repr

/-- The client's side of one server. -/
structure Session where
  settings : Json
  proofPane : Pane
  queryPane : Pane
  tickets : Tickets String
  ns : String
  notices : List Notice
  attachments : List (String × Attachment)
  active : Option String
  /-- The search whose hits fill the query pane. -/
  shownSearch : Option Int

/-- A fresh session with values laid over the default settings. -/
def Session.create (overrides : Json) (ns : String) : Except Failure Session := do
  let settings ← Settings.make overrides
  return ⟨settings, .named "coq-goals", .named "coq-infos", .none, ns, [], [], none, none⟩

/-- What a link to a server can do: take a notification, and say in which encoding the server
counts, null if it does not. -/
structure Carrier (L : Type) where
  send : String → Json → L → Except Failure L
  encoding : L → Json

/-- A session with its buffers, by number, and its link to the server. -/
structure Desk (L : Type) where
  session : Session
  buffers : List (Buffer Reaction Mark)
  link : L

namespace Desk

variable {L : Type}

/-- Operations on a desk, which keep what they did before a failure. -/
abbrev Op (L : Type) := ExceptT Failure (StateM (Desk L))

def bufferAt (d : Desk L) (n : Nat) : Buffer Reaction Mark := (d.buffers[n]?).getD (.ofText "" "" "")

/-- Put a buffer in the place of the one with its number. -/
def withBuffer (d : Desk L) (n : Nat) (b : Buffer Reaction Mark) : Desk L :=
  { d with buffers := d.buffers.set n b }

def buffer (n : Nat) : Op L (Buffer Reaction Mark) := return (← get).bufferAt n

def editBuffer (n : Nat) (f : Buffer Reaction Mark → Buffer Reaction Mark) : Op L Unit :=
  modify fun d => d.withBuffer n (f (d.bufferAt n))

def editSession (f : Session → Session) : Op L Unit := modify fun d => { d with session := f d.session }

def send (carrier : Carrier L) (method : String) (params : Json) : Op L Unit := do
  let link ← (carrier.send method params (← get).link : Except Failure L)
  modify fun d => { d with link := link }

def encoding (carrier : Carrier L) : Op L Json := do
  let named := carrier.encoding (← get).link
  return if named.truthy then named else Encoding.defaultName

/-- The proof mode, if the settings name one. -/
def proofMode : Op L ProofMode := do
  let settings := (← get).session.settings
  (Settings.proofMode settings : Except Failure ProofMode)

/-- Whether the session holds a buffer with the address. -/
def isAttached (d : Desk L) (uri : String) : Bool := Keyed.has uri d.session.attachments

/-- The number of the buffer that the session holds under an address. -/
def attached? (d : Desk L) (uri : String) : Option Nat :=
  (Keyed.get? uri d.session.attachments).map (·.buffer)

def active? (d : Desk L) : Option Nat := do
  let uri ← d.session.active
  if uri.isEmpty then none else d.attached? uri

end Desk
end CoqConsole
