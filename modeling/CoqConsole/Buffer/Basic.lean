import CoqConsole.Digest.Sha256
import CoqConsole.Json.Key
import CoqConsole.Keyed
import CoqConsole.Position
import CoqConsole.Text.Lines
import CoqConsole.Text.Utf8

/-!
# Buffers

A buffer holds lines, a cursor, marks of some kind by namespace and subscriptions to its events. A
subscription is known by a handle; it stands in the roll of its event as long as it is active.

* `Buffer.ofText`, `Buffer.text`, `Buffer.line?`, `Buffer.hash`;
* `Buffer.nearest`, `Buffer.moveTo`, `Buffer.replaceText` : what an edit does before listeners hear of it;
* `Buffer.setMarks`, `Buffer.marksIn`;
* `Buffer.subscribe`, `Buffer.cancel`, `Buffer.isActive`, `Buffer.roll`.
-/

namespace CoqConsole

structure Mark where
  start : Position
  stop : Position
  style : String
  priority : Int
  deriving DecidableEq, Repr, Inhabited

/-- What listeners can hear of. -/
inductive BufferEvent
  | cursorMoved
  | changed
  | closed
  deriving DecidableEq, Repr

namespace BufferEvent

def name : BufferEvent → String
  | cursorMoved => "cursor_moved"
  | changed => "changed"
  | closed => "closed"

def named (name : Json) : Except Failure BufferEvent := do
  let _ ← name.key
  match [cursorMoved, changed, closed].find? fun e => Json.text e.name == name with
  | some e => return e
  | none => throw (.unknownEvent name)

end BufferEvent

/-- A listener registered for an event. -/
structure Subscription (κ : Type) where
  event : BufferEvent
  listener : κ
  active : Bool

/-- The handles in the order of subscription, event by event. -/
structure Rolls where
  cursorMoved : List Nat
  changed : List Nat
  closed : List Nat
  deriving DecidableEq, Repr

namespace Rolls

def of (r : Rolls) : BufferEvent → List Nat
  | .cursorMoved => r.cursorMoved
  | .changed => r.changed
  | .closed => r.closed

def update (r : Rolls) (e : BufferEvent) (f : List Nat → List Nat) : Rolls :=
  match e with
  | .cursorMoved => { r with cursorMoved := f r.cursorMoved }
  | .changed => { r with changed := f r.changed }
  | .closed => { r with closed := f r.closed }

end Rolls

/-- A text with a cursor, and with listeners and marks of some kind. -/
structure Buffer (κ : Type) (μ : Type) where
  uri : String
  languageId : String
  version : Nat
  lines : List String
  cursor : Position
  marks : List (String × List μ)
  subscriptions : List (Subscription κ)
  rolls : Rolls
  closed : Bool

namespace Buffer

variable {κ μ : Type}

/-! ## Text -/

/-- The language of a buffer for which none is given. -/
def defaultLanguage : String := "coq"

def ofText (uri text languageId : String) : Buffer κ μ :=
  ⟨uri, languageId, 0, Text.lines text, .zero, [], [], ⟨[], [], []⟩, false⟩

def text (b : Buffer κ μ) : String := Text.unlines b.lines

/-- The line of a row, if there is one. -/
def line? (b : Buffer κ μ) (row : Int) : Option String := lineAt? b.lines row

/-- The line of a row of any kind, if there is one. -/
def line (b : Buffer κ μ) (row : Scalar) : Except Failure (Option String) := lineAt b.lines row

/-- The digest of a text, whatever its line ends. -/
def digest (text : String) : String :=
  Sha256.hexDigest (Utf8.encode (Text.unlines (Text.lines text)).toList)

def hash (b : Buffer κ μ) : String := digest b.text

def describe (b : Buffer κ μ) : String :=
  s!"Document({(Json.text b.uri).quoted}, version={b.version})"

/-! ## Edits -/

/-- A number moved into the range from zero to `top`; one that lies in it is kept as it is. -/
def clampTo (top : Int) (n : Scalar) : Scalar := Scalar.max 0 (Scalar.min n (.whole top))

/-- The line of a row, empty where there is none. -/
def lineOr (b : Buffer κ μ) (row : Scalar) : String := (row.index?.bind fun n => b.line? n).getD ""

def nearest (b : Buffer κ μ) (p : Position) : Position :=
  let row := clampTo (b.lines.length - 1) p.row
  ⟨row, clampTo (b.lineOr row).length p.col⟩

/-- Move the cursor, no further than the text goes. A row between two lines is refused, and so is one
that is no whole number although a line has its size. -/
def moveTo (b : Buffer κ μ) (p : Position) : Except Failure (Buffer κ μ) :=
  let cursor := b.nearest p
  match cursor.row.index? with
  | some _ => .ok { b with cursor }
  | none => .error .wrongKind

/-- Replace the whole text; marks stay, and the cursor stays as far as the text allows. -/
def replaceText (b : Buffer κ μ) (text : String) : Buffer κ μ :=
  let b := { b with lines := Text.lines text, version := b.version + 1 }
  { b with cursor := b.nearest b.cursor }

/-! ## Marks -/

def marksIn (b : Buffer κ μ) (ns : String) : List μ := (Keyed.get? ns b.marks).getD []

def setMarks (b : Buffer κ μ) (ns : String) (marks : List μ) : Buffer κ μ :=
  { b with marks := if marks.isEmpty then Keyed.erase ns b.marks else Keyed.put ns marks b.marks }

def clearMarks (b : Buffer κ μ) (ns : String) : Buffer κ μ := { b with marks := Keyed.erase ns b.marks }

/-! ## Subscriptions -/

/-- The handles registered for an event, in order of subscription. -/
def roll (b : Buffer κ μ) (e : BufferEvent) : List Nat := b.rolls.of e

def isActive (b : Buffer κ μ) (handle : Nat) : Bool :=
  ((b.subscriptions[handle]?).map (·.active)).getD false

def listener? (b : Buffer κ μ) (handle : Nat) : Option κ := (b.subscriptions[handle]?).map (·.listener)

/-- Register a listener; the result starts with its handle. -/
def subscribe (b : Buffer κ μ) (e : BufferEvent) (listener : κ) : Nat × Buffer κ μ :=
  let handle := b.subscriptions.length
  (handle, { b with
    subscriptions := b.subscriptions ++ [⟨e, listener, true⟩]
    rolls := b.rolls.update e (· ++ [handle]) })

/-- Take a handle off its roll; a second time nothing happens. -/
def cancel (b : Buffer κ μ) (handle : Nat) : Buffer κ μ :=
  match b.subscriptions[handle]? with
  | some s =>
    if s.active then
      { b with
        subscriptions := b.subscriptions.set handle { s with active := false }
        rolls := b.rolls.update s.event (·.erase handle) }
    else b
  | none => b

end Buffer
end CoqConsole
