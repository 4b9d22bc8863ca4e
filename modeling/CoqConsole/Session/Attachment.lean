import CoqConsole.Session.Checking

/-!
# Attaching buffers

The server hears of a buffer when it is opened, of every new text while it is attached, and when it
is closed.

* `Desk.attach`, `Desk.detach` : the session's own records, and its subscriptions;
* `Desk.adopt`, `Desk.release` : the same with what the server is told;
* `Desk.react` : what the subscriptions do;
* `Desk.moveCursor`, `Desk.replaceText`, `Desk.closeBuffer` : edits with their emissions;
* `Desk.shutdown` : let every buffer go and empty the panes.
-/

namespace CoqConsole.Desk

variable {L : Type}

/-- What the session wants to hear of an attached buffer. -/
def interests : List (BufferEvent × Reaction) :=
  [(.cursorMoved, .follow), (.changed, .report), (.closed, .release)]

/-- Subscribe to everything the session wants to hear of; the handles come first. -/
def subscribeAll (b : Buffer Reaction Mark) : List Nat × Buffer Reaction Mark :=
  interests.foldl (fun (handles, b) (e, r) =>
    let (handle, b) := b.subscribe e r
    (handles ++ [handle], b)) ([], b)

/-- Hold a buffer. In continuous mode the server checks up to its cursor. -/
def attach (carrier : Carrier L) (n : Nat) : Op L Unit := do
  let b ← buffer n
  if (← get).isAttached b.uri then throw (.alreadyAttached b.uri)
  let (handles, b) := subscribeAll b
  editBuffer n fun _ => b
  editSession fun s =>
    { s with attachments := Keyed.put b.uri ⟨n, handles⟩ s.attachments, active := some b.uri }
  if (← proofMode) = .continuous then interpretTo carrier n .cursor

/-- Let a buffer go: its marks and the subscriptions on it are dropped. -/
def detach (n : Nat) : Op L Unit := do
  let b ← buffer n
  match Keyed.get? b.uri (← get).session.attachments with
  | none => throw (.notAttached b.uri)
  | some attachment =>
    editSession fun s => { s with attachments := Keyed.erase b.uri s.attachments }
    let ns := (← get).session.ns
    editBuffer n (·.clearMarks ns)
    editBuffer attachment.buffer fun held => attachment.handles.foldl Buffer.cancel held
    editSession fun s => if s.active = some b.uri then { s with active := none } else s

/-- Tell the server of a buffer, then hold it. -/
def adopt (carrier : Carrier L) (n : Nat) : Op L Unit := do
  let b ← buffer n
  if (← get).isAttached b.uri then throw (.alreadyAttached b.uri)
  send carrier "textDocument/didOpen" (.object [("textDocument", .object [
    ("uri", .text b.uri), ("languageId", .text b.languageId), ("version", .int b.version),
    ("text", .text b.text)])])
  attach carrier n

/-- Let a buffer go, then tell the server. -/
def release (carrier : Carrier L) (n : Nat) : Op L Unit := do
  let b ← buffer n
  detach n
  send carrier "textDocument/didClose" (.object [("textDocument", .object [("uri", .text b.uri)])])

def react (carrier : Carrier L) (n : Nat) : Reaction → Op L Unit
  | .follow => do
    let b ← buffer n
    editSession fun s => { s with active := some b.uri }
    if (← proofMode) = .continuous then interpretTo carrier n .cursor
  | .report => do
    let b ← buffer n
    send carrier "textDocument/didChange" (.object [
      ("textDocument", versioned b),
      ("contentChanges", .array [.object [("text", .text b.text)]])])
  | .release => release carrier n

def emit (carrier : Carrier L) (n : Nat) (e : BufferEvent) : Op L Unit := do
  let call (handle : Nat) : Op L Unit := do
    match (← buffer n).listener? handle with
    | some reaction => react carrier n reaction
    | none => pure ()
  Buffer.emit (fun handle => return (← buffer n).isActive handle) call ((← buffer n).roll e)

def moveCursor (carrier : Carrier L) (n : Nat) (p : Position) : Op L Unit := do
  let b ← ((← buffer n).moveTo p : Except Failure (Buffer Reaction Mark))
  editBuffer n fun _ => b
  emit carrier n .cursorMoved

def replaceText (carrier : Carrier L) (n : Nat) (text : String) : Op L Unit := do
  editBuffer n (·.replaceText text)
  emit carrier n .changed

/-- Close a buffer; a second time nothing happens. -/
def closeBuffer (carrier : Carrier L) (n : Nat) : Op L Unit := do
  unless (← buffer n).closed do
    editBuffer n fun b => { b with closed := true }
    emit carrier n .closed

def shutdown : Op L Unit := do
  let held := (← get).session.attachments.map fun (_, a) => a.buffer
  held.forM detach
  editSession fun s =>
    { s with proofPane := s.proofPane.write .clear, queryPane := s.queryPane.write .clear }

end CoqConsole.Desk
