import CoqConsole.Markup.Doc
import CoqConsole.Json.Access

/-!
# Reading layout trees

A tree is a bare text or a list that starts with the name of a node. What follows the parts a node
needs is ignored.

* `NodeName` : the names of nodes;
* `BoxKind.ofJson` : a box kind, as a bare name or at the head of a list;
* `Doc.ofJson` : the tree of a value. The kind of a box is read before its child.
-/

namespace CoqConsole.Markup

inductive NodeName
  | empty
  | string
  | glue
  | box
  | tag
  | printBreak
  | forceNewline
  | comment
  deriving DecidableEq, Repr

def NodeName.wireName : NodeName → String
  | .empty => "Ppcmd_empty"
  | .string => "Ppcmd_string"
  | .glue => "Ppcmd_glue"
  | .box => "Ppcmd_box"
  | .tag => "Ppcmd_tag"
  | .printBreak => "Ppcmd_print_break"
  | .forceNewline => "Ppcmd_force_newline"
  | .comment => "Ppcmd_comment"

def NodeName.ofJson? : Json → Option NodeName
  | .text s =>
    [NodeName.empty, .string, .glue, .box, .tag, .printBreak, .forceNewline, .comment].find?
      fun n => n.wireName == s
  | _ => none

/-- A box kind, as a bare name or at the head of a list. -/
def BoxKind.ofJson (spec : Json) : Except Failure BoxKind :=
  let name := match spec with
    | .array (head :: _) => head
    | v => v
  match name with
  | .text s => match BoxKind.named? s with
    | some kind => .ok kind
    | none => .error (.unknownBox spec)
  | _ => .error (.unknownBox spec)

def allTexts? : List Json → Option (List String)
  | [] => some []
  | .text s :: rest => (allTexts? rest).map (s :: ·)
  | _ :: _ => none

/-- The words of a comment with a space between each two. -/
def comment? (words : Json) : Option String :=
  match words.elements with
  | .ok items => (allTexts? items).map (String.intercalate " ")
  | .error _ => none

/-- The width of a break. A value of a kind that is no number makes the node malformed; a number or
text that stands for no whole number is a failure of its own. -/
def gapWidth (name : NodeName) (whole width : Json) : Except Failure Int :=
  match width.toInt with
  | .ok n => .ok n
  | .error (.noNumber _) => .error (.malformedNode name.wireName whole)
  | .error cause => .error cause

mutual

def Doc.ofJson : Json → Except Failure Doc
  | .text s => .ok (.text s)
  | .array (head :: parts) =>
    match NodeName.ofJson? head, parts with
    | none, _ => .error (.unknownNode head)
    | some .empty, _ => .ok .empty
    | some .string, content :: _ => .ok (.leaf content)
    | some .glue, .array items :: _ => (Doc.ofItems items).map .glue
    | some .glue, .text s :: _ =>
      .ok (.glue (s.toList.map fun c => .text (String.singleton c)))
    | some .glue, .object members :: _ => .ok (.glue (members.map fun (k, _) => .text k))
    | some .box, spec :: child :: _ => do
      let kind ← BoxKind.ofJson spec
      return .box kind (← Doc.ofJson child)
    | some .box, [spec] => do
      let _ ← BoxKind.ofJson spec
      throw (.malformedNode NodeName.box.wireName (.array [head, spec]))
    | some .tag, label :: child :: _ => (Doc.ofJson child).map (.tag label)
    | some .printBreak, width :: rest =>
      (gapWidth .printBreak (.array (head :: width :: rest)) width).map .gap
    | some .forceNewline, _ => .ok .newline
    | some .comment, words :: rest =>
      match comment? words with
      | some s => .ok (.text s)
      | none =>
        .error (.malformedNode NodeName.comment.wireName (.array (head :: words :: rest)))
    | some name, parts => .error (.malformedNode name.wireName (.array (head :: parts)))
  | wire => .error (.malformedTree wire)

/-- The trees of values, the first failure first. -/
def Doc.ofItems : List Json → Except Failure (List Doc)
  | [] => .ok []
  | v :: rest => do
    let d ← Doc.ofJson v
    let ds ← Doc.ofItems rest
    return d :: ds

end

end CoqConsole.Markup
