import CoqConsole.Json.Access

/-!
# Positions

A position in a buffer is a row and a column in characters. The server counts the place on a line in
units of an encoding, so each conversion reads the line as it is now.

* `Encoding`, `Encoding.width` : the units of a character;
* `columnOf`, `unitsBefore` : units to column, and back;
* `Position.ofWire`, `Position.toWire`, `Span.ofWire` : the same for whole positions and ranges;
* `Place` : a position as callers name it, which is checked no earlier than it is used.
-/

namespace CoqConsole

/-- A row and a column, counted from zero. They are whole numbers as long as nothing else is asked for. -/
structure Position where
  row : Scalar
  col : Scalar
  deriving DecidableEq, Repr, Inhabited

namespace Position

def zero : Position := ⟨.whole 0, .whole 0⟩

def eqv (p q : Position) : Bool := p.row.eqv q.row && p.col.eqv q.col

/-- By row, then by column. -/
def le (p q : Position) : Bool := p.row.lt q.row || (p.row.eqv q.row && p.col.le q.col)

end Position

/-- The units in which the server counts. -/
inductive Encoding
  | utf8
  | utf16
  | utf32
  deriving DecidableEq, Repr

namespace Encoding

def name : Encoding → String
  | .utf8 => "utf-8"
  | .utf16 => "utf-16"
  | .utf32 => "utf-32"

/-- The name that counts where none was chosen. -/
def defaultName : Json := .text utf16.name

def named? (name : String) : Option Encoding := [utf8, utf16, utf32].find? fun e => e.name == name

def ofJson : Json → Except Failure Encoding
  | .text s =>
    match named? s with
    | some e => .ok e
    | none => .error (.unsupportedEncoding (.text s))
  | v => .error (.unsupportedEncoding v)

def width : Encoding → Char → Nat
  | .utf8, c => c.utf8Size
  | .utf16, c => if 0xffff < c.toNat then 2 else 1
  | .utf32, _ => 1

def units (e : Encoding) (cs : List Char) : Nat := cs.foldr (fun c n => e.width c + n) 0

end Encoding

/-- The least column at which at least `target` units are passed: the end of the line if there is
none. A place inside a character of several units is moved behind it. -/
def columnOf (e : Encoding) : List Char → Int → Nat
  | [], _ => 0
  | c :: cs, target => if target ≤ 0 then 0 else columnOf e cs (target - e.width c) + 1

def unitsBefore (e : Encoding) (line : List Char) (col : Int) : Nat := e.units (line.take col.toNat)

/-- The column that a number of units stands for; a number beyond all lines, or none at all, stands for
the end of the line. -/
def columnOfUnits (e : Encoding) (line : List Char) : Scalar → Int
  | .whole n => columnOf e line n
  | .truth b => columnOf e line (Scalar.unitOf b)
  | .real (.finite x) => columnOf e line x.ceiling
  | .real (.infinite true) => 0
  | .real _ => line.length

/-- A column of a line in place of a number of units. -/
def columnAt (line : String) (character encoding : Json) : Except Failure Int := do
  let e ← Encoding.ofJson encoding
  return columnOfUnits e line.toList (← character.toScalar)

/-- A number of units in place of a column of a line. A line has no column between two characters. -/
def characterAt (line : String) (col : Except Failure Scalar) (encoding : Json) : Except Failure Int := do
  let e ← Encoding.ofJson encoding
  let col ← col
  if col.le 0 then return 0
  match col.index? with
  | some n => return unitsBefore e line.toList n
  | none => throw .unevenPlace

/-- The line of a row, if there is one. -/
def lineAt? (lines : List String) (row : Int) : Option String :=
  if row < 0 then none else lines[row.toNat]?

/-- The line of a row of any kind, if there is one. A row between two lines is refused, and so is one
that is no whole number although a line has its size. -/
def lineAt (lines : List String) (row : Scalar) : Except Failure (Option String) :=
  if Scalar.le 0 row && row.lt (.whole lines.length) then
    match row.index? with
    | some n => .ok (lineAt? lines n)
    | none => .error .wrongKind
  else .ok none

namespace Position

/-- The position that the server means; the beginning of the text where its line is gone. -/
def ofWire (lines : List String) (wire encoding : Json) : Except Failure Position := do
  let row ← (← wire.member "line").toScalar
  match ← lineAt lines row with
  | none => return zero
  | some line => return ⟨row, .whole (← columnAt line (← wire.member "character") encoding)⟩

def wire (line : Scalar) (character : Int) : Json :=
  .object [("line", .ofScalar line), ("character", .int character)]

end Position

/-- A place in a text as it is named. Its column is looked at only if there is a line at its row. -/
inductive Place
  /-- Where the cursor is. -/
  | cursor
  | at (row : Scalar) (col : Except Failure Scalar)
  /-- No place, for a reason. -/
  | nowhere (cause : Failure)
  deriving Repr

namespace Place

def ofPosition (p : Position) : Place := .at p.row (.ok p.col)

/-- The place that a value names: its two elements, or the cursor if it counts as nothing. -/
def ofJson (v : Json) : Place :=
  if !v.truthy then cursor
  else match v.pair with
    | .ok (row, col) =>
      match row.toScalar with
      | .ok row => .at row col.toScalar
      | .error cause => nowhere cause
    | .error cause => nowhere cause

/-- A place as the server counts; the beginning of the text where its line does not exist. -/
def toWire (lines : List String) (cursor : Position) (encoding : Json) : Place → Except Failure Json
  | .cursor => place cursor.row (.ok cursor.col)
  | .at row col => place row col
  | .nowhere cause => .error cause
where
  /-- The place of a row and a column. -/
  place (row : Scalar) (col : Except Failure Scalar) : Except Failure Json := do
    match ← lineAt lines row with
    | none => return Position.wire 0 0
    | some line => return Position.wire row (← characterAt line col encoding)

end Place

def Position.toWire (lines : List String) (p : Position) (encoding : Json) : Except Failure Json :=
  (Place.ofPosition p).toWire lines zero encoding

/-- A range of a text. -/
structure Span where
  start : Position
  stop : Position
  deriving DecidableEq, Repr, Inhabited

/-- The range that the server means; its start is converted first. -/
def Span.ofWire (lines : List String) (wire encoding : Json) : Except Failure Span := do
  let start ← Position.ofWire lines (← wire.member "start") encoding
  let stop ← Position.ofWire lines (← wire.member "end") encoding
  return ⟨start, stop⟩

end CoqConsole
