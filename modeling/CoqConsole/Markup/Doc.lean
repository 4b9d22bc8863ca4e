import CoqConsole.Json.Value

/-!
# Layout trees

* `BoxKind` : how a box treats the breaks inside it;
* `Doc` : texts and breaks under boxes, tags and glue. The content of a text leaf is not checked
  when a tree is read, so a leaf may hold another value (`alien`), and a tree built by hand may have
  anything in the place of a width (`oddGap`) or of a node (`stray`).
-/

namespace CoqConsole.Markup

/-- How a box treats the breaks inside it. -/
inductive BoxKind
  | horizontal
  | vertical
  | eitherWay
  | filling
  deriving DecidableEq, Repr

def BoxKind.wireName : BoxKind → String
  | .horizontal => "Pp_hbox"
  | .vertical => "Pp_vbox"
  | .eitherWay => "Pp_hvbox"
  | .filling => "Pp_hovbox"

def BoxKind.named? (name : String) : Option BoxKind :=
  [BoxKind.horizontal, .vertical, .eitherWay, .filling].find? fun k => k.wireName == name

inductive Doc
  | empty
  | text (s : String)
  | alien (content : Json)
  | glue (children : List Doc)
  | box (kind : BoxKind) (child : Doc)
  | tag (label : Json) (child : Doc)
  | gap (width : Int)
  /-- A break whose width is no whole number. -/
  | oddGap (width : Json)
  | newline
  | stray (value : Json)
  deriving Repr, Inhabited

def Doc.leaf : Json → Doc
  | .text s => .text s
  | v => .alien v

def Doc.gapOf : Json → Doc
  | .int n => .gap n
  | .bool b => .gap (Scalar.unitOf b)
  | v => .oddGap v

end CoqConsole.Markup
