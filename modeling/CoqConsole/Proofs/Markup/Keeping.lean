import CoqConsole.Proofs.Lines
import CoqConsole.Proofs.Markup.Leaves

/-!
# What is rendered of a tree

All the words of a tree are in its lines, and a line ends where the tree has a newline, however it came by it: a
newline of its own, a break in a vertical box, or a character of a text. Ends of lines are unified over the whole text,
so a carriage return may be in one leaf and the newline behind it in another; neither is counted twice, nor lost.

* `Doc.words`, `Leaf.isNewline`, `Leaf.isDrop` : the texts of a tree, and its breaks that are newlines;
* `Leaf.Fits` : a break that can be laid out;
* `Keeps` : what lines have of a tree; `text_leaf_keeps`, `written_keeps` : what a text has of its leaves;
* `render_keeps` : so it is for every tree, and it has lines exactly when all its breaks fit.
-/

namespace CoqConsole.Markup

open Text (without)

namespace Leaf

def word? (l : Leaf) : Option String :=
  match l.ink with
  | .text s => some s
  | _ => none

def isNewline (l : Leaf) : Bool :=
  match l.ink with
  | .newline => true
  | _ => false

/-- A break whose nearest box is vertical. -/
def isDrop (l : Leaf) : Bool :=
  match l.ink with
  | .gap _ => l.boxes.head? = some .vertical
  | _ => false

/-- A break that becomes spaces is neither too wide nor too narrow, and there is room for it. -/
def Fits (room : Room) (l : Leaf) : Prop :=
  ∀ width, l.ink = .gap width → l.boxes.head? ≠ some .vertical → room.Fits width

end Leaf

/-- The texts of a tree, from left to right. -/
def Doc.words (d : Doc) : List String := d.leaves.filterMap Leaf.word?

/-- What lines have of a tree: there are as many as its newlines tell, and there is all of its text in them. -/
structure Keeps (d : Doc) (lines : List String) : Prop where
  length_eq : lines.length = 1 + d.leaves.countP Leaf.isNewline + d.leaves.countP Leaf.isDrop +
    (String.join d.words).toList.count '\n'
  newline_notMem : ∀ line ∈ lines, '\n' ∉ line.toList
  join_eq : without [' ', '\r'] (String.join lines) = without ['\n', ' ', '\r'] (String.join d.words)

section

variable {room : Room}

/-! ## A leaf -/

theorem gap_within_eq_ok_iff {boxes : List BoxKind} {width : Int} {s : String} :
    (within .horizontal boxes).gap room width = .ok s ↔
      boxes.head? = some .vertical ∧ s = "\n" ∨ boxes.head? ≠ some .vertical ∧ Mode.horizontal.gap room width = .ok s := by
  cases boxes with
  | nil => simp [within]
  | cons kind boxes =>
    cases kind with
    | vertical =>
      change (.ok "\n" : Except Failure String) = .ok s ↔ _
      simp [eq_comm]
    | horizontal | eitherWay | filling => simp [within]

theorem exists_text_iff_fits (l : Leaf) : (∃ s, l.text room .horizontal = .ok s) ↔ l.Fits room := by
  obtain ⟨boxes, ink⟩ := l
  cases ink with
  | text s => simp [Leaf.text, Leaf.Fits]
  | newline => simp [Leaf.text, Leaf.Fits]
  | gap width =>
    simp only [Leaf.text, Leaf.Fits, gap_within_eq_ok_iff, gap_horizontal_eq_ok_iff]
    by_cases hdrop : boxes.head? = some .vertical <;> simp [hdrop]

/-- A leaf has as many newlines as it tells, and besides blanks no more than its word. -/
theorem text_leaf_keeps {l : Leaf} {s : String} (h : l.text room .horizontal = .ok s) :
    s.toList.count '\n' =
      l.isNewline.toNat + l.isDrop.toNat + (l.word?.getD "").toList.count '\n' ∧
    without ['\n', ' ', '\r'] s = without ['\n', ' ', '\r'] (l.word?.getD "") := by
  obtain ⟨boxes, ink⟩ := l
  cases ink with
  | text t =>
    cases h
    exact ⟨(Nat.zero_add _).symm, rfl⟩
  | newline =>
    cases h
    exact ⟨rfl, rfl⟩
  | gap width =>
    have hgap : (within .horizontal boxes).gap room width = .ok s := h
    rcases gap_within_eq_ok_iff.mp hgap with ⟨hdrop, rfl⟩ | ⟨hdrop, hspaces⟩
    · simp [Leaf.isNewline, Leaf.isDrop, Leaf.word?, hdrop, without]
    · obtain ⟨-, rfl⟩ := gap_horizontal_eq_ok_iff.mp hspaces
      simp [Leaf.isNewline, Leaf.isDrop, Leaf.word?, hdrop, without, List.count_replicate]

/-! ## The text of leaves -/

theorem exists_written_iff (outside : Mode) (ls : List Leaf) :
    (∃ s, written room outside ls = .ok s) ↔ ∀ l ∈ ls, ∃ s, l.text room outside = .ok s := by
  induction ls with
  | nil => simp [written]
  | cons l ls ih =>
    rw [List.forall_mem_cons, ← ih]
    simp only [written, bind_eq_ok]
    constructor
    · rintro ⟨_, s, hs, t, ht, -⟩
      exact ⟨⟨s, hs⟩, t, ht⟩
    · rintro ⟨⟨s, hs⟩, t, ht⟩
      exact ⟨s ++ t, s, hs, t, ht, rfl⟩

/-- So do the texts of leaves, put together. -/
theorem written_keeps {ls : List Leaf} {s : String} (h : written room .horizontal ls = .ok s) :
    s.toList.count '\n' = ls.countP Leaf.isNewline + ls.countP Leaf.isDrop +
      (String.join (ls.filterMap Leaf.word?)).toList.count '\n' ∧
    without ['\n', ' ', '\r'] s = without ['\n', ' ', '\r'] (String.join (ls.filterMap Leaf.word?)) := by
  induction ls generalizing s with
  | nil =>
    cases h
    exact ⟨rfl, rfl⟩
  | cons l ls ih =>
    simp only [written, bind_eq_ok] at h
    obtain ⟨t, ht, u, hu, hs⟩ := h
    obtain rfl : t ++ u = s := Except.ok.inj hs
    obtain ⟨hcount, hkept⟩ := text_leaf_keeps ht
    obtain ⟨hcounts, hkepts⟩ := ih hu
    have hwords : String.join ((l :: ls).filterMap Leaf.word?) =
        l.word?.getD "" ++ String.join (ls.filterMap Leaf.word?) := by
      cases hword : l.word? <;> simp [hword]
    rw [hwords]
    constructor
    · rw [String.toList_append, List.count_append, String.toList_append, List.count_append, List.countP_cons,
        List.countP_cons, hcount, hcounts]
      cases l.isNewline <;> cases l.isDrop <;> simp <;> omega
    · rw [Text.without_append, Text.without_append, hkept, hkepts]

end

/-! ## Every tree -/

/-- A tree has lines exactly when all its breaks fit, and these have all its text and end where it has newlines. -/
theorem render_keeps {d : Doc} (hd : d.IsPlain) (room : Room) :
    ((∃ lines, d.render room = .ok lines) ↔ ∀ l ∈ d.leaves, l.Fits room) ∧
      ∀ lines, d.render room = .ok lines → Keeps d lines := by
  rw [render_eq_written_leaves hd]
  constructor
  · simp only [← exists_text_iff_fits, ← exists_written_iff, map_eq_ok]
    constructor
    · rintro ⟨_, s, hs, -⟩
      exact ⟨s, hs⟩
    · rintro ⟨s, hs⟩
      exact ⟨_, s, hs, rfl⟩
  · intro lines h
    obtain ⟨s, hs, rfl⟩ := map_eq_ok.mp h
    obtain ⟨hcount, hkept⟩ := written_keeps hs
    refine ⟨?_, fun line => Text.newline_notMem_of_mem_lines, ?_⟩
    · rw [Text.length_lines, hcount, Doc.words]
      omega
    · rw [Text.without_join_lines (by simp), hkept, Doc.words]

/-- A carriage return at the end of one leaf, and the newline from a break, from another leaf, or from a newline of the
tree: each is one end of a line, and no carriage return is left. -/
theorem render_keeps_returns :
    let d : Doc := .glue [.box .vertical (.glue [.text "a\r", .gap 1, .text "b \r"]), .tag (.text "t") (.text "\nc\r"),
      .newline, .gap 2]
    d.render = .ok ["a", "b ", "c", "  "] ∧ Keeps d ["a", "b ", "c", "  "] ∧ ∀ l ∈ d.leaves, l.Fits .ample := by
  intro d
  have hd : d.IsPlain := by
    simp only [d, isPlain_glue_iff, isPlain_box_iff, List.forall_mem_cons]
    exact ⟨⟨.text _, .gap 1, .text _, List.forall_mem_nil _⟩, .tag _ (.text _), .newline, .gap 2, List.forall_mem_nil _⟩
  have hrender : d.render = .ok ["a", "b ", "c", "  "] := rfl
  exact ⟨hrender, (render_keeps hd .ample).2 _ hrender, (render_keeps hd .ample).1.mp ⟨_, hrender⟩⟩

/-- A break narrower than any number that a text can be repeated by would be nothing; it is refused. -/
theorem render_refuses_narrow :
    let d : Doc := .glue [.text "a", .gap (-9223372036854775809), .text "b"]
    d.IsPlain ∧ d.render = .error .tooWide ∧ ¬ ∃ lines, d.render = .ok lines ∧ Keeps d lines := by
  intro d
  have hd : d.IsPlain := by
    simp only [d, isPlain_glue_iff, List.forall_mem_cons]
    exact ⟨.text _, .gap _, .text _, List.forall_mem_nil _⟩
  have hrender : d.render = .error .tooWide := rfl
  refine ⟨hd, hrender, ?_⟩
  rintro ⟨lines, hlines, -⟩
  cases hrender.symm.trans hlines

end CoqConsole.Markup
