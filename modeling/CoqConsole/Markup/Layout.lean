import CoqConsole.Markup.Wire
import CoqConsole.Text.Lines

/-!
# Laying trees out

A break is laid out by its nearest box alone: spaces in a horizontal box, a newline in a vertical
one. The two flexible kinds of box count as horizontal.

* `Mode` : what a break becomes;
* `Room` : how wide a break there is room for;
* `Doc.layout` : the content of a tree, a text unless the tree is a single alien leaf;
* `Doc.render` : the lines of a tree laid out horizontally.
-/

namespace CoqConsole.Markup

/-- What a break outside every box becomes. -/
inductive Mode
  | horizontal
  | vertical
  /-- A layout of no known name: fails at the first break that it has to lay out. -/
  | other (name : Json)
  deriving Repr

def BoxKind.mode : BoxKind → Mode
  | .vertical => .vertical
  | _ => .horizontal

/-- The widths from here up, and below its negation, are refused. -/
def widthLimit : Int := Nat.pow 2 63

/-- How many spaces a machine has room for in a row. -/
inductive Room
  /-- As many as a text can have. -/
  | ample
  | upTo (spaces : Int)
  deriving Repr

def Room.holds : Room → Int → Bool
  | .ample, _ => true
  | .upTo most, width => decide (width ≤ most)

/-- A break laid out: no spaces for a width below one. -/
def Mode.gap (room : Room) : Mode → Int → Except Failure String
  | .horizontal, width =>
    if widthLimit ≤ width ∨ width < -widthLimit then .error .tooWide
    else if room.holds width then .ok (String.ofList (List.replicate width.toNat ' '))
    else .error .noRoom
  | .vertical, _ => .ok "\n"
  | .other name, _ => .error (.unknownLayout name)

/-- A break whose width is no whole number: only a newline does not need it. -/
def Mode.oddGap : Mode → Except Failure String
  | .horizontal => .error .wrongKind
  | .vertical => .ok "\n"
  | .other name => .error (.unknownLayout name)

/-- Contents put together, which have to be texts. -/
def joinContents (contents : List Json) : Except Failure Json :=
  match allTexts? contents with
  | some texts => .ok (.text (String.join texts))
  | none => .error .notJoinable

mutual

def Doc.layout (room : Room) : (mode : Mode) → (d : Doc) → Except Failure Json
  | _, .empty => .ok (.text "")
  | _, .text s => .ok (.text s)
  | _, .alien content => .ok content
  | mode, .glue children => Doc.layoutAll room mode children >>= joinContents
  | _, .box kind child => Doc.layout room kind.mode child
  | mode, .tag _ child => Doc.layout room mode child
  | mode, .gap width => (mode.gap room width).map .text
  | mode, .oddGap _ => mode.oddGap.map .text
  | _, .newline => .ok (.text "\n")
  | _, .stray value => .error (.strayNode value)

/-- The contents of trees, the first failure first. -/
def Doc.layoutAll (room : Room) : (mode : Mode) → (ds : List Doc) → Except Failure (List Json)
  | _, [] => .ok []
  | mode, d :: ds => do
    let content ← Doc.layout room mode d
    let contents ← Doc.layoutAll room mode ds
    return content :: contents

end

/-- The lines of a tree. Leaves may hold newlines of their own, so the text is cut last. -/
def Doc.render (d : Doc) (room : Room := .ample) : Except Failure (List String) := do
  match ← d.layout room .horizontal with
  | .text s => return Text.lines s
  | v => throw (.notAText v.kind)

end CoqConsole.Markup
