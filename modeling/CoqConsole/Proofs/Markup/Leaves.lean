import Mathlib.Logic.Relation
import CoqConsole.Proofs.Markup.Texts

/-!
# The leaves of a tree

The text of a tree is that of its leaves, from left to right. A leaf knows the boxes around it, and of these only the
nearest counts, and only for a break. So the shape of a tree above its leaves may change at will, as long as every break
keeps the layout of its nearest box.

* `Leaf`, `Doc.leaves` : what is printed, and the boxes around it; all of it in order;
* `within`, `written` : the layout inside some boxes; the text of leaves;
* `layout_eq_written` : the content of a tree inside any boxes;
* `written_leavesIn_congr` : boxes beyond the nearest do not count;
* `Reshapes` : one change of shape, at any place in a tree; `Reshapes.written_eq`, `Reshapes.isPlain` : what it keeps;
* `layout_of_leaves` : the text of every tree, and of all its shapes.
-/

namespace CoqConsole.Markup

inductive Ink
  | text (s : String)
  | gap (width : Int)
  | newline
  deriving DecidableEq

/-- Something that is printed and the boxes around it, the nearest first. -/
structure Leaf where
  boxes : List BoxKind
  ink : Ink
  deriving DecidableEq

/-- The layout inside some boxes: that of the nearest. All but vertical ones are horizontal. -/
def within (outside : Mode) : List BoxKind → Mode
  | [] => outside
  | .vertical :: _ => .vertical
  | _ :: _ => .horizontal

theorem within_cons (outside : Mode) (kind : BoxKind) (boxes : List BoxKind) :
    within outside (kind :: boxes) = kind.mode := by
  cases kind <;> rfl

def Leaf.text (room : Room) (outside : Mode) (l : Leaf) : Except Failure String :=
  match l.ink with
  | .text s => .ok s
  | .gap width => (within outside l.boxes).gap room width
  | .newline => .ok "\n"

/-- The texts of leaves put together, the first failure first. -/
def written (room : Room) (outside : Mode) : List Leaf → Except Failure String
  | [] => .ok ""
  | l :: ls => do
    let s ← l.text room outside
    let t ← written room outside ls
    return s ++ t

section

variable {room : Room}

theorem written_singleton (outside : Mode) (l : Leaf) : written room outside [l] = l.text room outside := by
  rw [written, written]
  cases l.text room outside <;> simp [bind, Except.bind, pure, Except.pure]

theorem written_append (outside : Mode) (ls ls' : List Leaf) :
    written room outside (ls ++ ls') = (do
      let s ← written room outside ls
      let t ← written room outside ls'
      return s ++ t) := by
  induction ls with
  | nil =>
    rw [List.nil_append]
    cases h : written room outside ls' <;> simp [written, bind, Except.bind, pure, Except.pure]
  | cons l ls ih =>
    rw [List.cons_append, written, written, ih]
    simp only [bind_assoc, pure_bind, String.append_assoc]

end

mutual

/-- What a tree inside some boxes prints, from left to right. -/
def Doc.leavesIn (boxes : List BoxKind) : Doc → List Leaf
  | .text s => [⟨boxes, .text s⟩]
  | .gap width => [⟨boxes, .gap width⟩]
  | .newline => [⟨boxes, .newline⟩]
  | .glue children => Doc.leavesOf boxes children
  | .box kind child => child.leavesIn (kind :: boxes)
  | .tag _ child => child.leavesIn boxes
  | .empty | .alien _ | .oddGap _ | .stray _ => []

def Doc.leavesOf (boxes : List BoxKind) : List Doc → List Leaf
  | [] => []
  | d :: ds => d.leavesIn boxes ++ Doc.leavesOf boxes ds

end

def Doc.leaves (d : Doc) : List Leaf := d.leavesIn []

theorem leavesOf_append (boxes : List BoxKind) (ds ds' : List Doc) :
    Doc.leavesOf boxes (ds ++ ds') = Doc.leavesOf boxes ds ++ Doc.leavesOf boxes ds' := by
  induction ds with
  | nil => rfl
  | cons d ds ih => rw [List.cons_append, Doc.leavesOf, Doc.leavesOf, ih, List.append_assoc]

/-! ## The content of a tree -/

section

variable {room : Room}

/-- Parts that have the texts of their leaves are glued to the text of all their leaves. -/
theorem layout_glue_eq_written {outside : Mode} {boxes : List BoxKind} {ds : List Doc}
    (h : ∀ d ∈ ds, d.layout room (within outside boxes) = (written room outside (d.leavesIn boxes)).map .text) :
    (Doc.glue ds).layout room (within outside boxes) = (written room outside (Doc.leavesOf boxes ds)).map .text := by
  have hparts : ∃ texts : Except Failure (List String),
      Doc.layoutAll room (within outside boxes) ds = texts.map (List.map .text) ∧
      written room outside (Doc.leavesOf boxes ds) = texts.map String.join := by
    induction ds with
    | nil => exact ⟨.ok [], rfl, rfl⟩
    | cons d ds ih =>
      rw [List.forall_mem_cons] at h
      obtain ⟨texts, hall, hwritten⟩ := ih h.2
      refine ⟨written room outside (d.leavesIn boxes) >>= fun s => texts.map (s :: ·), ?_, ?_⟩
      · rw [Doc.layoutAll, h.1, hall]
        cases written room outside (d.leavesIn boxes) <;> cases texts <;> rfl
      · rw [Doc.leavesOf, written_append, hwritten]
        cases written room outside (d.leavesIn boxes) with
        | error cause => rfl
        | ok s =>
          cases texts with
          | error cause => rfl
          | ok ts => simp [bind, Except.bind, pure, Except.pure, Except.map]
  obtain ⟨texts, hall, hwritten⟩ := hparts
  rw [Doc.layout, hall, hwritten]
  cases texts with
  | error cause => rfl
  | ok ts => simp [bind, Except.bind, Except.map, joinContents, allTexts?_map]

/-- Inside any boxes, a tree is laid out as its leaves are written. -/
theorem layout_eq_written {d : Doc} (hd : d.IsPlain) (outside : Mode) (boxes : List BoxKind) :
    d.layout room (within outside boxes) = (written room outside (d.leavesIn boxes)).map .text := by
  induction hd generalizing boxes with
  | empty => rfl
  | text s =>
    rw [Doc.layout, Doc.leavesIn, written_singleton]
    rfl
  | newline => rfl
  | gap width =>
    rw [Doc.layout, Doc.leavesIn, written_singleton]
    rfl
  | glue _ ih => exact layout_glue_eq_written fun d hd => ih d hd boxes
  | box kind _ ih => rw [Doc.layout, Doc.leavesIn, ← within_cons outside kind boxes, ih]
  | tag label _ ih => rw [Doc.layout, Doc.leavesIn, ih]

theorem layout_eq_written_leaves {d : Doc} (hd : d.IsPlain) (mode : Mode) :
    d.layout room mode = (written room mode d.leaves).map .text :=
  layout_eq_written hd mode []

theorem render_eq_written_leaves {d : Doc} (hd : d.IsPlain) :
    d.render room = (written room .horizontal d.leaves).map Text.lines := by
  rw [Doc.render, layout_eq_written_leaves hd]
  cases written room .horizontal d.leaves <;> rfl

/-! ## Changes of shape -/

mutual

/-- Of the boxes around a tree, only the layout inside the nearest counts. -/
theorem written_leavesIn_congr {outside : Mode} {boxes boxes' : List BoxKind}
    (h : within outside boxes = within outside boxes') :
    (d : Doc) → written room outside (d.leavesIn boxes) = written room outside (d.leavesIn boxes')
  | .text _ | .newline | .empty | .alien _ | .oddGap _ | .stray _ => rfl
  | .gap width => by simp only [Doc.leavesIn, written, Leaf.text, h]
  | .glue children => written_leavesOf_congr h children
  | .box kind child => written_leavesIn_congr (by rw [within_cons, within_cons]) child
  | .tag _ child => written_leavesIn_congr h child

theorem written_leavesOf_congr {outside : Mode} {boxes boxes' : List BoxKind}
    (h : within outside boxes = within outside boxes') :
    (ds : List Doc) → written room outside (Doc.leavesOf boxes ds) = written room outside (Doc.leavesOf boxes' ds)
  | [] => rfl
  | d :: ds => by
    rw [Doc.leavesOf, Doc.leavesOf, written_append, written_append, written_leavesIn_congr h d,
      written_leavesOf_congr h ds]

end

end

/-- One change of the shape of a tree, at any place in it. -/
inductive Reshapes : Doc → Doc → Prop
  /-- A tag is deleted. -/
  | untag (label : Json) (d : Doc) : Reshapes (.tag label d) d
  /-- A glue in a glue is replaced by its parts. -/
  | flatten (before inner after : List Doc) :
    Reshapes (.glue (before ++ .glue inner :: after)) (.glue (before ++ inner ++ after))
  /-- A glue of a single part is replaced by it. -/
  | single (d : Doc) : Reshapes (.glue [d]) d
  /-- An empty part is dropped. -/
  | dropEmpty (before after : List Doc) : Reshapes (.glue (before ++ .empty :: after)) (.glue (before ++ after))
  /-- A box around nothing is dropped. -/
  | hollow (kind : BoxKind) : Reshapes (.box kind .empty) .empty
  /-- Two texts side by side become one. -/
  | mergeTexts (before after : List Doc) (s t : String) :
    Reshapes (.glue (before ++ .text s :: .text t :: after)) (.glue (before ++ .text (s ++ t) :: after))
  /-- A flexible box becomes a horizontal one. -/
  | stiffen {kind : BoxKind} (h : kind = .eitherWay ∨ kind = .filling) (d : Doc) :
    Reshapes (.box kind d) (.box .horizontal d)
  /-- A box around a box is removed. -/
  | unbox (outer inner : BoxKind) (d : Doc) : Reshapes (.box outer (.box inner d)) (.box inner d)
  | inGlue (before after : List Doc) {d d' : Doc} (h : Reshapes d d') :
    Reshapes (.glue (before ++ d :: after)) (.glue (before ++ d' :: after))
  | inBox (kind : BoxKind) {d d' : Doc} (h : Reshapes d d') : Reshapes (.box kind d) (.box kind d')
  | inTag (label : Json) {d d' : Doc} (h : Reshapes d d') : Reshapes (.tag label d) (.tag label d')

namespace Reshapes

variable {d d' : Doc}

/-- The leaves of another shape have the same text, whatever is around them. -/
theorem written_eq (h : Reshapes d d') (room : Room) (outside : Mode) (boxes : List BoxKind) :
    written room outside (d'.leavesIn boxes) = written room outside (d.leavesIn boxes) := by
  induction h generalizing boxes with
  | untag label d => rfl
  | flatten before inner after =>
    simp only [Doc.leavesIn, leavesOf_append, Doc.leavesOf, List.append_assoc]
  | single d => simp only [Doc.leavesIn, Doc.leavesOf, List.append_nil]
  | dropEmpty before after => simp only [Doc.leavesIn, leavesOf_append, Doc.leavesOf, List.nil_append]
  | hollow kind => rfl
  | mergeTexts before after s t =>
    simp only [Doc.leavesIn, leavesOf_append, Doc.leavesOf, List.cons_append, List.nil_append, written_append, written,
      Leaf.text]
    simp only [bind, Except.bind, pure, Except.pure]
    cases written room outside (Doc.leavesOf boxes after) <;> simp only [String.append_assoc]
  | stiffen hkind d =>
    refine written_leavesIn_congr ?_ d
    rcases hkind with rfl | rfl <;> rfl
  | unbox outer inner d => exact written_leavesIn_congr (by rw [within_cons, within_cons]) d
  | inGlue before after _ ih => simp only [Doc.leavesIn, leavesOf_append, Doc.leavesOf, written_append, ih]
  | inBox kind _ ih => exact ih (kind :: boxes)
  | inTag label _ ih => exact ih boxes

end Reshapes

theorem isPlain_glue_iff {ds : List Doc} : (Doc.glue ds).IsPlain ↔ ∀ d ∈ ds, d.IsPlain := by
  constructor
  · rintro ⟨⟩
    assumption
  · exact .glue

theorem isPlain_box_iff {kind : BoxKind} {d : Doc} : (Doc.box kind d).IsPlain ↔ d.IsPlain := by
  constructor
  · rintro ⟨⟩
    assumption
  · exact .box kind

theorem Reshapes.isPlain {d d' : Doc} (h : Reshapes d d') (hd : d.IsPlain) : d'.IsPlain := by
  induction h with
  | untag label d =>
    cases hd
    assumption
  | flatten before inner after =>
    simp only [isPlain_glue_iff, List.forall_mem_append, List.forall_mem_cons] at hd ⊢
    exact ⟨⟨hd.1, hd.2.1⟩, hd.2.2⟩
  | single d => exact isPlain_glue_iff.mp hd d (List.mem_singleton.mpr rfl)
  | dropEmpty before after =>
    simp only [isPlain_glue_iff, List.forall_mem_append, List.forall_mem_cons] at hd ⊢
    exact ⟨hd.1, hd.2.2⟩
  | hollow kind => exact .empty
  | mergeTexts before after s t =>
    simp only [isPlain_glue_iff, List.forall_mem_append, List.forall_mem_cons] at hd ⊢
    exact ⟨hd.1, .text _, hd.2.2.2⟩
  | stiffen _ d => exact .box _ (isPlain_box_iff.mp hd)
  | unbox outer inner d => exact isPlain_box_iff.mp hd
  | inGlue before after _ ih =>
    simp only [isPlain_glue_iff, List.forall_mem_append, List.forall_mem_cons] at hd ⊢
    exact ⟨hd.1, ih hd.2.1, hd.2.2⟩
  | inBox kind _ ih => exact .box kind (ih (isPlain_box_iff.mp hd))
  | inTag label _ ih =>
    cases hd with
    | tag label hd => exact .tag label (ih hd)

/-! ## Every tree -/

/-- Whatever room there is, in every layout the content of a tree is what its leaves print, from left to right, each
break by its nearest box alone. So no number of changes of shape, wherever in the tree, changes what it is laid out as. -/
theorem layout_of_leaves {d : Doc} (hd : d.IsPlain) (room : Room) :
    (∀ mode, d.layout room mode = (written room mode d.leaves).map .text) ∧
    d.render room = (written room .horizontal d.leaves).map Text.lines ∧
    ∀ d', Relation.ReflTransGen Reshapes d d' →
      d'.IsPlain ∧ (∀ mode, d'.layout room mode = d.layout room mode) ∧ d'.render room = d.render room := by
  refine ⟨layout_eq_written_leaves hd, render_eq_written_leaves hd, fun d' h => ?_⟩
  have hkept : d'.IsPlain ∧ ∀ mode, written room mode d'.leaves = written room mode d.leaves := by
    induction h with
    | refl => exact ⟨hd, fun _ => rfl⟩
    | tail _ hstep ih => exact ⟨hstep.isPlain ih.1, fun mode => (hstep.written_eq room mode []).trans (ih.2 mode)⟩
  obtain ⟨hd', hsame⟩ := hkept
  refine ⟨hd', fun mode => ?_, ?_⟩
  · rw [layout_eq_written_leaves hd', layout_eq_written_leaves hd, hsame]
  · rw [render_eq_written_leaves hd', render_eq_written_leaves hd, hsame]

/-- A tagged break in a vertical box in a flexible one, among texts: without the tag and the outer box it is laid out
the same, and without its own box it would not be. -/
theorem layout_of_leaves_boxed :
    let d : Doc := .glue [.text "a", .glue [.text "b", .box .filling (.box .vertical (.tag (.text "t") (.gap 1)))], .gap 1]
    let d' : Doc := .glue [.text "ab", .box .vertical (.gap 1), .gap 1]
    d'.IsPlain ∧ (∀ mode, d'.layout .ample mode = d.layout .ample mode) ∧ d'.render = d.render ∧ d.render = .ok ["ab", " "] ∧
      (Doc.glue [.text "ab", .gap 1, .gap 1]).render = .ok ["ab  "] := by
  intro d d'
  have hd : d.IsPlain := by
    simp only [d, isPlain_glue_iff, isPlain_box_iff, List.forall_mem_cons]
    exact ⟨.text _, ⟨.text _, .tag _ (.gap 1), List.forall_mem_nil _⟩, .gap 1, List.forall_mem_nil _⟩
  have hsteps : Relation.ReflTransGen Reshapes d d' :=
    .head (.flatten [.text "a"] _ [.gap 1]) <| .head (.mergeTexts [] _ "a" "b") <|
      .head (.inGlue [.text "ab"] [.gap 1] (.unbox .filling .vertical _)) <|
      .single (.inGlue [.text "ab"] [.gap 1] (.inBox .vertical (.untag _ _)))
  obtain ⟨hplain, hlayout, hrender⟩ := (layout_of_leaves hd .ample).2.2 d' hsteps
  exact ⟨hplain, hlayout, hrender, rfl, rfl⟩

end CoqConsole.Markup
