import CoqConsole.ProofView.Answers
import CoqConsole.Proofs.Markup.Texts

/-!
# Values that are no trees

A tree is read node by node, and its failure is that of the first node that cannot be read even with nothing beneath
it, at whatever depth it stands. Almost every such failure says that the value is unreadable. Two things slip through:
from the width of a break, where that is a text or a real, there may be no whole number to be read, which is a failure
of another kind; and the content of a string or the width of a break may be such that the tree is read and cannot be
laid out.

* `nodes`, `Node.fault?` : the nodes in the order in which they are read, and what is wrong with one by itself;
* `tree_induction` : one case for each kind of node that has others beneath it;
* `fault?_ofJson` : a tree fails as its first faulty node does;
* `Node.Prints`, `prints_iff` : a tree that is read has a text when each of its nodes has one;
* `checked`, `Node.isMisnumbered_iff`, `Node.isUnprintable_iff` : what can be wrong with a node;
* `IsBrittle`, `unreadable_or_rendered_iff` : the values that are neither unreadable nor laid out, and only those.
-/

namespace CoqConsole.Markup

/-! ## The nodes of a written tree -/

/-- A written node, with the kind of its nearest box. -/
structure Node where
  box : BoxKind
  wire : Json

def kindOf (spec : Json) : BoxKind :=
  match BoxKind.ofJson spec with
  | .ok kind => kind
  | .error _ => .horizontal

mutual

/-- The nodes of a written tree in the order in which they are read. -/
def nodes (box : BoxKind) : Json → List Node
  | .array (head :: parts) =>
    ⟨box, .array (head :: parts)⟩ ::
      match NodeName.ofJson? head, parts with
      | some .glue, .array items :: _ => nodesAll box items
      | some .box, spec :: child :: _ => nodes (kindOf spec) child
      | some .tag, _ :: child :: _ => nodes box child
      | _, _ => []
  | wire => [⟨box, wire⟩]

def nodesAll (box : BoxKind) : List Json → List Node
  | [] => []
  | w :: ws => nodes box w ++ nodesAll box ws

end

def alone : Json → Json
  | .array (head :: parts) =>
    .array (head :: match NodeName.ofJson? head, parts with
      | some .glue, .array _ :: rest => .array [] :: rest
      | some .box, spec :: _ :: rest => spec :: .text "" :: rest
      | some .tag, label :: _ :: rest => label :: .text "" :: rest
      | _, parts => parts)
  | wire => wire

def failure? {α : Type} : Except Failure α → Option Failure
  | .ok _ => none
  | .error cause => some cause

def Node.fault? (n : Node) : Option Failure :=
  failure? (Doc.ofJson (alone n.wire))

theorem failure?_map {α β : Type} (f : α → β) (x : Except Failure α) : failure? (x.map f) = failure? x := by
  cases x <;> rfl

theorem ofJson_alone_box (spec child : Json) (rest : List Json) :
    Doc.ofJson (alone (nodeOf .box none (spec :: child :: rest))) =
      (BoxKind.ofJson spec).map fun kind => .box kind (.text "") := by
  change Doc.ofJson (nodeOf .box none (spec :: .text "" :: rest)) = _
  rw [ofJson_box]
  cases BoxKind.ofJson spec <;> rfl

section

variable (box : BoxKind)

theorem nodes_glue (items rest : List Json) :
    nodes box (nodeOf .glue none (.array items :: rest)) =
      ⟨box, nodeOf .glue none (.array items :: rest)⟩ :: nodesAll box items := rfl

theorem nodes_box (spec child : Json) (rest : List Json) :
    nodes box (nodeOf .box none (spec :: child :: rest)) =
      ⟨box, nodeOf .box none (spec :: child :: rest)⟩ :: nodes (kindOf spec) child := rfl

theorem nodes_tag (label child : Json) (rest : List Json) :
    nodes box (nodeOf .tag none (label :: child :: rest)) =
      ⟨box, nodeOf .tag none (label :: child :: rest)⟩ :: nodes box child := rfl

theorem fault?_glue (items rest : List Json) :
    Node.fault? ⟨box, nodeOf .glue none (.array items :: rest)⟩ = none := rfl

/-- A box is at fault when its kind is. -/
theorem fault?_box (spec child : Json) (rest : List Json) :
    Node.fault? ⟨box, nodeOf .box none (spec :: child :: rest)⟩ = failure? (BoxKind.ofJson spec) := by
  rw [Node.fault?, ofJson_alone_box, failure?_map]

theorem fault?_tag (label child : Json) (rest : List Json) :
    Node.fault? ⟨box, nodeOf .tag none (label :: child :: rest)⟩ = none := rfl

end

theorem NodeName.eq_of_ofJson? {head : Json} {n : NodeName} (h : ofJson? head = some n) : head = .text n.wireName := by
  cases head with
  | text s =>
    have hfound := List.find?_some h
    rw [beq_iff_eq] at hfound
    rw [hfound]
  | null | bool _ | int _ | real _ | array _ | object _ => cases h

def IsLeaf (wire : Json) : Prop :=
  alone wire = wire ∧ ∀ box, nodes box wire = [⟨box, wire⟩]

/-- Induction over a written tree, with one case for each kind of node that has others beneath it. -/
theorem tree_induction {P : Json → Prop} (leaf : ∀ wire, IsLeaf wire → P wire)
    (glued : ∀ items rest, (∀ w ∈ items, P w) → P (nodeOf .glue none (.array items :: rest)))
    (boxed : ∀ spec child rest, P child → P (nodeOf .box none (spec :: child :: rest)))
    (tagged : ∀ label child rest, P child → P (nodeOf .tag none (label :: child :: rest))) : ∀ wire, P wire
  | .null | .bool _ | .int _ | .real _ | .text _ | .object _ | .array [] => leaf _ ⟨rfl, fun _ => rfl⟩
  | .array (head :: parts) => by
    cases hname : NodeName.ofJson? head with
    | none => exact leaf _ ⟨by simp [alone, hname], fun box => by simp [nodes, hname]⟩
    | some n =>
      obtain rfl := NodeName.eq_of_ofJson? hname
      cases n with
      | empty | string | printBreak | forceNewline | comment => exact leaf _ ⟨rfl, fun _ => rfl⟩
      | glue =>
        rcases parts with _ | ⟨first, rest⟩
        · exact leaf _ ⟨rfl, fun _ => rfl⟩
        · cases first with
          | array items => exact glued items rest fun w hw => tree_induction leaf glued boxed tagged w
          -- A glue of a text or an object holds characters or keys, which are texts and not nodes to be read.
          | null | bool _ | int _ | real _ | text _ | object _ => exact leaf _ ⟨rfl, fun _ => rfl⟩
      | box =>
        rcases parts with _ | ⟨spec, _ | ⟨child, rest⟩⟩
        · exact leaf _ ⟨rfl, fun _ => rfl⟩
        · exact leaf _ ⟨rfl, fun _ => rfl⟩
        · exact boxed spec child rest (tree_induction leaf glued boxed tagged child)
      | tag =>
        rcases parts with _ | ⟨label, _ | ⟨child, rest⟩⟩
        · exact leaf _ ⟨rfl, fun _ => rfl⟩
        · exact leaf _ ⟨rfl, fun _ => rfl⟩
        · exact tagged label child rest (tree_induction leaf glued boxed tagged child)
  termination_by wire => sizeOf wire
  decreasing_by
    · have := List.sizeOf_lt_of_mem hw
      simp only [Json.array.sizeOf_spec, List.cons.sizeOf_spec]
      omega
    · simp only [Json.array.sizeOf_spec, List.cons.sizeOf_spec]
      omega
    · simp only [Json.array.sizeOf_spec, List.cons.sizeOf_spec]
      omega

/-! ## The first faulty node -/

theorem failure?_ofItems {box : BoxKind} {ws : List Json}
    (h : ∀ w ∈ ws, failure? (Doc.ofJson w) = (nodes box w).findSome? Node.fault?) :
    failure? (Doc.ofItems ws) = (nodesAll box ws).findSome? Node.fault? := by
  induction ws with
  | nil => rfl
  | cons w ws ih =>
    obtain ⟨hw, hws⟩ := List.forall_mem_cons.mp h
    rw [nodesAll, List.findSome?_append, ← hw, ← ih hws, Doc.ofItems]
    cases Doc.ofJson w with
    | error cause => rfl
    | ok d => cases Doc.ofItems ws <;> rfl

/-- A tree fails as the first of its nodes that fails by itself. -/
theorem fault?_ofJson (box : BoxKind) (wire : Json) :
    failure? (Doc.ofJson wire) = (nodes box wire).findSome? Node.fault? := by
  induction wire using tree_induction generalizing box with
  | leaf wire hleaf => simp [hleaf.2, Node.fault?, hleaf.1]
  | glued items rest ih =>
    rw [nodes_glue, List.findSome?_cons, fault?_glue, ofJson_glue, failure?_map]
    exact failure?_ofItems fun w hw => ih w hw box
  | boxed spec child rest ih =>
    rw [nodes_box, List.findSome?_cons, fault?_box, ofJson_box, ← ih]
    cases BoxKind.ofJson spec with
    | error cause => rfl
    | ok kind => exact failure?_map (Doc.box kind) (Doc.ofJson child)
  | tagged label child rest ih =>
    rw [nodes_tag, List.findSome?_cons, fault?_tag, ofJson_tag, failure?_map]
    exact ih box

/-! ## Nodes that have a text -/

/-- The tree of a node with nothing beneath it has a text. -/
def Node.Prints (room : Room) (n : Node) : Prop :=
  ∃ d, Doc.ofJson (alone n.wire) = .ok d ∧ d.Prints room n.box.mode

theorem prints_ofItems {room : Room} {box : BoxKind} {ws : List Json} {ds : List Doc}
    (h : ∀ w ∈ ws, ∀ d, Doc.ofJson w = .ok d → (d.Prints room box.mode ↔ ∀ n ∈ nodes box w, n.Prints room))
    (hds : Doc.ofItems ws = .ok ds) : (∀ d ∈ ds, d.Prints room box.mode) ↔ ∀ n ∈ nodesAll box ws, n.Prints room := by
  induction ws generalizing ds with
  | nil =>
    cases hds
    simp [nodesAll]
  | cons w ws ih =>
    simp only [Doc.ofItems, bind_eq_ok] at hds
    obtain ⟨d, hd, ds, hds, h'⟩ := hds
    cases h'
    obtain ⟨hw, hws⟩ := List.forall_mem_cons.mp h
    rw [List.forall_mem_cons, nodesAll, List.forall_mem_append, hw d hd, ih hws hds]

/-- A tree that is read has a text when each of its nodes does. -/
theorem prints_iff {room : Room} {box : BoxKind} {wire : Json} {d : Doc} (hd : Doc.ofJson wire = .ok d) :
    d.Prints room box.mode ↔ ∀ n ∈ nodes box wire, n.Prints room := by
  induction wire using tree_induction generalizing box d with
  | leaf wire hleaf => simp [hleaf.2, Node.Prints, hleaf.1, hd]
  | glued items rest ih =>
    rw [ofJson_glue, map_eq_ok] at hd
    obtain ⟨ds, hds, rfl⟩ := hd
    have hself : Node.Prints room ⟨box, nodeOf .glue none (.array items :: rest)⟩ := ⟨.glue [], rfl, "", rfl⟩
    rw [prints_glue, nodes_glue, List.forall_mem_cons, and_iff_right hself]
    exact prints_ofItems (fun w hw d hd => ih w hw hd) hds
  | boxed spec child rest ih =>
    simp only [ofJson_box, bind_eq_ok] at hd
    obtain ⟨kind, hkind, c, hc, h⟩ := hd
    cases h
    have hself : Node.Prints room ⟨box, nodeOf .box none (spec :: child :: rest)⟩ :=
      ⟨.box kind (.text ""), by rw [ofJson_alone_box, hkind]; rfl, "", rfl⟩
    have hkindOf : kindOf spec = kind := by simp [kindOf, hkind]
    rw [nodes_box, List.forall_mem_cons, and_iff_right hself, hkindOf]
    exact ih (d := c) hc
  | tagged label child rest ih =>
    rw [ofJson_tag, map_eq_ok] at hd
    obtain ⟨c, hc, rfl⟩ := hd
    have hself : Node.Prints room ⟨box, nodeOf .tag none (label :: child :: rest)⟩ :=
      ⟨.tag label (.text ""), rfl, "", rfl⟩
    rw [nodes_tag, List.forall_mem_cons, and_iff_right hself]
    exact ih (d := c) hc

/-! ## What is wrong with a node -/

/-- A text or a real that no whole number is read from. -/
inductive IsNoWhole : Json → Prop
  | text {s : String} (h : ∀ n, Number.numeral s ≠ .value n) : IsNoWhole (.text s)
  | infinite (negative : Bool) : IsNoWhole (.real (.infinite negative))
  | undefined : IsNoWhole (.real .undefined)

/-- A break whose width is such a text or real. -/
inductive Node.IsMisnumbered : Node → Prop
  | gap (box : BoxKind) {width : Json} (rest : List Json) (h : IsNoWhole width) :
    IsMisnumbered ⟨box, nodeOf .printBreak none (width :: rest)⟩

/-- A string whose content is no text, or a break that would have to be laid out in more spaces than there can be, or
than there is room for. -/
inductive Node.IsUnprintable (room : Room) : Node → Prop
  | string (box : BoxKind) {content : Json} (rest : List Json) (h : ∀ s, content ≠ .text s) :
    IsUnprintable room ⟨box, nodeOf .string none (content :: rest)⟩
  | gap {box : BoxKind} {width : Json} {n : Int} (rest : List Json) (hbox : box ≠ .vertical)
      (hwidth : width.toInt = .ok n) (h : ¬ room.Fits n) :
    IsUnprintable room ⟨box, nodeOf .printBreak none (width :: rest)⟩

/-- What comes of a node by itself, but for the two kinds whose parts are not all checked. -/
inductive Checked : Json → Prop
  | refused {wire : Json} {cause : Failure} (h : Doc.ofJson (alone wire) = .error cause)
      (unreadable : cause.IsUnreadable) : Checked wire
  | printed {wire : Json} {d : Doc} (h : Doc.ofJson (alone wire) = .ok d) (prints : ∀ room mode, d.Prints room mode) :
    Checked wire
  | string (content : Json) (rest : List Json) : Checked (nodeOf .string none (content :: rest))
  | gap (width : Json) (rest : List Json) : Checked (nodeOf .printBreak none (width :: rest))

theorem BoxKind.isUnreadable_of_ofJson {spec : Json} {cause : Failure} (h : ofJson spec = .error cause) :
    cause.IsUnreadable := by
  unfold ofJson at h
  extract_lets name at h
  clear_value name
  cases name with
  | text s =>
    cases hs : named? s with
    | none => simp only [hs] at h; cases h; exact .box spec
    | some kind => simp only [hs] at h; cases h
  | null | bool _ | int _ | real _ | array _ | object _ =>
    cases h
    exact .box spec

theorem checked_glue (parts : List Json) : Checked (nodeOf .glue none parts) := by
  rcases parts with _ | ⟨first, rest⟩
  · exact .refused rfl (.node _ _)
  · cases first with
    | array items => exact .printed rfl fun _ _ => ⟨_, rfl⟩
    | text _ | object _ => exact .printed rfl fun _ mode => prints_glue_texts mode _ _
    | null | bool _ | int _ | real _ => exact .refused rfl (.node _ _)

theorem checked_box (parts : List Json) : Checked (nodeOf .box none parts) := by
  rcases parts with _ | ⟨spec, _ | ⟨child, rest⟩⟩
  · exact .refused rfl (.node _ _)
  · have hread : Doc.ofJson (nodeOf .box none [spec]) = BoxKind.ofJson spec >>= fun _ =>
        .error (.malformedNode NodeName.box.wireName (nodeOf .box none [spec])) := rfl
    cases hspec : BoxKind.ofJson spec with
    | error cause => exact .refused (hread.trans (by rw [hspec]; rfl)) (BoxKind.isUnreadable_of_ofJson hspec)
    | ok kind => exact .refused (hread.trans (by rw [hspec]; rfl)) (.node _ _)
  · have hread := ofJson_alone_box spec child rest
    cases hspec : BoxKind.ofJson spec with
    | error cause => exact .refused (hread.trans (by rw [hspec]; rfl)) (BoxKind.isUnreadable_of_ofJson hspec)
    | ok kind => exact .printed (hread.trans (by rw [hspec]; rfl)) fun _ _ => ⟨"", rfl⟩

theorem checked_comment (parts : List Json) : Checked (nodeOf .comment none parts) := by
  rcases parts with _ | ⟨words, rest⟩
  · exact .refused rfl (.node _ _)
  · have hread := ofJson_comment words rest
    cases hwords : comment? words with
    | none => exact .refused (hread.trans (by rw [hwords]; rfl)) (.node _ _)
    | some s => exact .printed (hread.trans (by rw [hwords]; rfl)) fun _ _ => ⟨s, rfl⟩

theorem checked_node (n : NodeName) (parts : List Json) : Checked (nodeOf n none parts) := by
  cases n with
  | empty | forceNewline => exact .printed rfl fun _ _ => ⟨_, rfl⟩
  | string =>
    rcases parts with _ | ⟨content, rest⟩
    · exact .refused rfl (.node _ _)
    · exact .string content rest
  | glue => exact checked_glue parts
  | box => exact checked_box parts
  | tag =>
    rcases parts with _ | ⟨label, _ | ⟨child, rest⟩⟩
    · exact .refused rfl (.node _ _)
    · exact .refused rfl (.node _ _)
    · exact .printed rfl fun _ _ => ⟨"", rfl⟩
  | printBreak =>
    rcases parts with _ | ⟨width, rest⟩
    · exact .refused rfl (.node _ _)
    · exact .gap width rest
  | comment => exact checked_comment parts

theorem checked (wire : Json) : Checked wire := by
  cases wire with
  | null | bool _ | int _ | real _ | object _ => exact .refused rfl (.tree _)
  | text s => exact .printed rfl fun _ _ => ⟨s, rfl⟩
  | array items =>
    rcases items with _ | ⟨head, parts⟩
    · exact .refused rfl (.tree _)
    · cases hname : NodeName.ofJson? head with
      | none => exact .refused (by simp only [alone, hname, Doc.ofJson]) (.name head)
      | some n =>
        obtain rfl := NodeName.eq_of_ofJson? hname
        exact checked_node n parts

theorem isNoWhole_iff (name : NodeName) (whole width : Json) :
    IsNoWhole width ↔ ∃ cause, gapWidth name whole width = .error cause ∧ ¬ cause.IsUnreadable := by
  constructor
  · intro h
    cases h with
    | @text s h =>
      cases hs : Number.numeral s with
      | value n => exact absurd hs (h n)
      | excess digits => exact ⟨.longNumeral digits, by simp [gapWidth, Json.toInt, hs], nofun⟩
      | nothing => exact ⟨.badNumeral s, by simp [gapWidth, Json.toInt, hs], nofun⟩
    | infinite negative => exact ⟨.infiniteNumber, rfl, nofun⟩
    | undefined => exact ⟨.undefinedNumber, rfl, nofun⟩
  · rintro ⟨cause, h, hcause⟩
    cases width with
    | bool _ | int _ => cases h
    | null | array _ | object _ =>
      cases h
      exact absurd (.node _ _) hcause
    | real x =>
      cases x with
      | finite _ => cases h
      | infinite negative => exact .infinite negative
      | undefined => exact .undefined
    | text s =>
      refine .text fun n hn => ?_
      simp [gapWidth, Json.toInt, hn] at h

theorem failure?_eq_some {α : Type} {x : Except Failure α} {cause : Failure} :
    failure? x = some cause ↔ x = .error cause := by
  cases x <;> simp [failure?]

theorem failure?_eq_none {α : Type} {x : Except Failure α} : failure? x = none ↔ ∃ a, x = .ok a := by
  cases x <;> simp [failure?]

theorem ofJson_gap (width : Json) (rest : List Json) :
    Doc.ofJson (nodeOf .printBreak none (width :: rest)) =
      (gapWidth .printBreak (nodeOf .printBreak none (width :: rest)) width).map .gap := rfl

theorem toInt_of_gapWidth {name : NodeName} {whole width : Json} {n : Int} (h : gapWidth name whole width = .ok n) :
    width.toInt = .ok n := by
  unfold gapWidth at h
  split at h
  · next hn => rw [hn, ← h]
  · cases h
  · cases h

theorem fault?_gap (box : BoxKind) (width : Json) (rest : List Json) :
    Node.fault? ⟨box, nodeOf .printBreak none (width :: rest)⟩ =
      failure? (gapWidth .printBreak (nodeOf .printBreak none (width :: rest)) width) :=
  failure?_map Doc.gap _

/-- The misnumbered breaks are the nodes with a failure that does not say that the value is unreadable. -/
theorem Node.isMisnumbered_iff (n : Node) :
    n.IsMisnumbered ↔ ∃ cause, n.fault? = some cause ∧ ¬ cause.IsUnreadable := by
  constructor
  · rintro ⟨box, rest, h⟩
    simp only [fault?_gap, failure?_eq_some]
    exact (isNoWhole_iff _ _ _).mp h
  · rintro ⟨cause, hfault, hcause⟩
    obtain ⟨box, wire⟩ := n
    cases checked wire with
    | refused h unreadable =>
      rw [Node.fault?, h] at hfault
      cases hfault
      exact absurd unreadable hcause
    | printed h _ =>
      rw [Node.fault?, h] at hfault
      cases hfault
    | string content rest => cases hfault
    | gap width rest =>
      rw [fault?_gap, failure?_eq_some] at hfault
      exact .gap box rest ((isNoWhole_iff _ _ _).mpr ⟨cause, hfault, hcause⟩)

theorem Node.isUnprintable_iff (room : Room) (n : Node) : n.IsUnprintable room ↔ n.fault? = none ∧ ¬ n.Prints room := by
  constructor
  · intro h
    cases h with
    | string box rest h =>
      refine ⟨rfl, ?_⟩
      rintro ⟨d, hd, hprints⟩
      cases hd
      obtain ⟨s, rfl⟩ := prints_leaf_iff.mp hprints
      exact h s rfl
    | @gap box width n rest hbox hwidth h =>
      have hread : Doc.ofJson (alone (nodeOf .printBreak none (width :: rest))) = .ok (.gap n) :=
        (ofJson_gap width rest).trans (by simp [gapWidth, hwidth, Except.map])
      refine ⟨by rw [Node.fault?, hread, failure?], ?_⟩
      rintro ⟨d, hd, hprints⟩
      rw [hread] at hd
      cases hd
      exact (prints_gap_iff.mp hprints).elim hbox h
  · rintro ⟨hfault, hprints⟩
    obtain ⟨box, wire⟩ := n
    cases checked wire with
    | refused h _ =>
      rw [Node.fault?, h] at hfault
      cases hfault
    | printed h prints => exact absurd ⟨_, h, prints _ _⟩ hprints
    | string content rest =>
      refine .string box rest ?_
      rintro s rfl
      exact hprints ⟨.text s, rfl, s, rfl⟩
    | gap width rest =>
      rw [fault?_gap, failure?_eq_none] at hfault
      obtain ⟨n, hn⟩ := hfault
      have hgap : ¬ (Doc.gap n).Prints room box.mode := fun h =>
        hprints ⟨.gap n, (ofJson_gap width rest).trans (by rw [hn]; rfl), h⟩
      rw [prints_gap_iff, not_or] at hgap
      exact .gap rest hgap.1 (toInt_of_gapWidth hn) hgap.2

/-! ## Reading and laying out -/

/-- The value is neither refused as unreadable nor laid out: the first node that cannot be read is a break with a
text or a real for its width, or all nodes can be read and one of them cannot be laid out. -/
inductive IsBrittle (room : Room) (wire : Json) : Prop
  | width {before after : List Node} {n : Node} (hnodes : nodes .horizontal wire = before ++ n :: after)
      (hbefore : ∀ m ∈ before, m.fault? = none) (h : n.IsMisnumbered)
  | content (hread : ∀ m ∈ nodes .horizontal wire, m.fault? = none) {n : Node} (hn : n ∈ nodes .horizontal wire)
      (h : n.IsUnprintable room)

theorem isBrittle_iff_of_error (room : Room) {wire : Json} {cause : Failure} (h : Doc.ofJson wire = .error cause) :
    IsBrittle room wire ↔ ¬ cause.IsUnreadable := by
  have hfirst : (nodes .horizontal wire).findSome? Node.fault? = some cause := by
    rw [← fault?_ofJson, h]
    rfl
  constructor
  · rintro (⟨hnodes, hbefore, h⟩ | ⟨hread, -, -⟩)
    -- There is one first faulty node, so this one fails as the tree does.
    · obtain ⟨other, hother, hunreadable⟩ := (Node.isMisnumbered_iff _).mp h
      have hsame := hfirst.symm.trans (List.findSome?_eq_some_iff.mpr ⟨_, _, _, hnodes, hother, hbefore⟩)
      rwa [Option.some.inj hsame]
    · rw [List.findSome?_eq_none_iff.mpr hread] at hfirst
      cases hfirst
  · intro hcause
    obtain ⟨before, n, after, hnodes, hn, hbefore⟩ := List.findSome?_eq_some_iff.mp hfirst
    exact .width hnodes hbefore ((Node.isMisnumbered_iff n).mpr ⟨cause, hn, hcause⟩)

theorem isBrittle_iff_of_ok (room : Room) {wire : Json} {d : Doc} (h : Doc.ofJson wire = .ok d) :
    IsBrittle room wire ↔ ¬ d.Prints room .horizontal := by
  have hread : ∀ n ∈ nodes .horizontal wire, n.fault? = none := by
    rw [← List.findSome?_eq_none_iff, ← fault?_ofJson, h]
    rfl
  have hprints : d.Prints room .horizontal ↔ ∀ n ∈ nodes .horizontal wire, n.Prints room :=
    @prints_iff room .horizontal _ _ h
  rw [hprints]
  constructor
  · rintro (⟨hnodes, -, h⟩ | ⟨-, hn, h⟩) hall
    · obtain ⟨cause, hcause, -⟩ := (Node.isMisnumbered_iff _).mp h
      have hnone := hread _ (by rw [hnodes]; exact List.mem_append_right _ List.mem_cons_self)
      rw [hnone] at hcause
      cases hcause
    · exact ((Node.isUnprintable_iff room _).mp h).2 (hall _ hn)
  · intro hsome
    push Not at hsome
    obtain ⟨n, hn, hnot⟩ := hsome
    exact .content hread hn ((Node.isUnprintable_iff room n).mpr ⟨hread n hn, hnot⟩)

/-- Whatever room there is, a value is refused as unreadable or laid out unless it is brittle, and so it is with the
answer to a query. -/
theorem unreadable_or_rendered_iff (room : Room) (wire : Json) :
    ((∃ cause, Doc.ofJson wire = .error cause ∧ cause.IsUnreadable) ∨
        (∃ d lines, Doc.ofJson wire = .ok d ∧ d.render room = .ok lines) ↔ ¬ IsBrittle room wire) ∧
      ((∀ cause, renderAnswer wire room = .error cause → cause.IsUnreadable) ↔ ¬ IsBrittle room wire) := by
  have hparse : (∃ cause, Doc.ofJson wire = .error cause ∧ cause.IsUnreadable) ∨
      (∃ d lines, Doc.ofJson wire = .ok d ∧ d.render room = .ok lines) ↔ ¬ IsBrittle room wire := by
    cases h : Doc.ofJson wire with
    | error cause => simp [isBrittle_iff_of_error room h]
    | ok d => simp [isBrittle_iff_of_ok room h, ← render_eq_ok_iff]
  refine ⟨hparse, ?_⟩
  rw [← hparse]
  by_cases hnull : wire = .null
  · subst hnull
    exact iff_of_true nofun (.inl ⟨_, rfl, .tree _⟩)
  · have hanswer : renderAnswer wire room = Doc.ofJson wire >>= fun d => d.render room := by
      cases wire with
      | null => exact absurd rfl hnull
      | bool _ | int _ | real _ | text _ | array _ | object _ => rfl
    rw [hanswer]
    cases h : Doc.ofJson wire with
    | error cause =>
      change (∀ c, Except.error cause = .error c → c.IsUnreadable) ↔ _
      simp
    | ok d =>
      change (∀ c, d.render room = .error c → c.IsUnreadable) ↔ _
      cases hd : d.render room with
      | error cause => simp [hd, FailsLate.render room d cause hd]
      | ok lines => simp [hd]

/-- A part of a glue in a box: a number for the content of a string is neither refused nor laid out, and nor is a break
of nine spaces where there is room for eight; where there is room, it is laid out. -/
theorem unreadable_or_rendered_deep :
    let inside (part : Json) : Json := nodeOf .box none [.text "Pp_hovbox", nodeOf .glue none [.array [.text "a", part]]]
    let odd := inside (nodeOf .string none [.int 5])
    let wide := inside (nodeOf .printBreak none [.int 9, .int 0])
    (¬ ∀ cause, renderAnswer odd = .error cause → cause.IsUnreadable) ∧
      (¬ ∀ cause, renderAnswer wide (.upTo 8) = .error cause → cause.IsUnreadable) ∧
      ∀ cause, renderAnswer wide = .error cause → cause.IsUnreadable := by
  intro inside odd wide
  have hread (part : Json) (d : Doc) (h : Doc.ofJson (inside part) = .ok d) :
      ∀ m ∈ nodes .horizontal (inside part), m.fault? = none := by
    rw [← List.findSome?_eq_none_iff, ← fault?_ofJson, h]
    rfl
  have hnumber (s : String) : Json.int 5 ≠ .text s := by simp
  have hfilling : BoxKind.filling ≠ .vertical := by decide
  have hodd : IsBrittle .ample odd :=
    .content (hread _ _ rfl) (.tail _ (.tail _ (.tail _ (.head _)))) (.string .filling [] hnumber)
  have hnine : ¬ (Room.upTo 8).Fits 9 := by simp [Room.Fits, Room.holds]
  have hwide : IsBrittle (.upTo 8) wide :=
    .content (hread _ _ rfl) (.tail _ (.tail _ (.tail _ (.head _))))
      (@Node.IsUnprintable.gap _ .filling _ _ _ hfilling rfl hnine)
  have hrendered : ¬ IsBrittle .ample wide :=
    (unreadable_or_rendered_iff .ample wide).1.mp (.inr ⟨_, _, rfl, rfl⟩)
  exact ⟨fun h => (unreadable_or_rendered_iff .ample odd).2.mp h hodd,
    fun h => (unreadable_or_rendered_iff (.upTo 8) wide).2.mp h hwide,
    (unreadable_or_rendered_iff .ample wide).2.mpr hrendered⟩

end CoqConsole.Markup
