import Mathlib.Data.List.Forall2
import CoqConsole.Markup.Layout
import CoqConsole.Proofs.Markup.Forms

/-!
# The texts of trees

What a tree is laid out as, when that is a text, and what can be said when it is not.

* `Room.Fits`, `Doc.Prints` : a break has room, and the content of a tree is a text;
* `layout_glue_eq_text_iff` : that of a glue is the texts of its parts put together;
* `prints_glue`, `prints_leaf_iff`, `prints_gap_iff` : the trees that have one, kind by kind;
* `render_ample` : the room decides whether a tree is laid out, and not how;
* `FailsLate.render` : what fails after the reading does not say that a value is unreadable.
-/

namespace CoqConsole.Markup

/-- A break of this width is laid out as spaces. -/
def Room.Fits (room : Room) (width : Int) : Prop :=
  (-widthLimit ≤ width ∧ width < widthLimit) ∧ room.holds width = true

theorem Room.fits_ample {width : Int} : Room.ample.Fits width ↔ -widthLimit ≤ width ∧ width < widthLimit :=
  and_iff_left rfl

/-- The content of a tree is a text. -/
def Doc.Prints (room : Room) (mode : Mode) (d : Doc) : Prop :=
  ∃ s, d.layout room mode = .ok (.text s)

section

variable {room : Room}

theorem bind_eq_ok {α β : Type} {x : Except Failure α} {f : α → Except Failure β} {b : β} :
    (x >>= f) = .ok b ↔ ∃ a, x = .ok a ∧ f a = .ok b := by
  cases x with
  | error cause => simp [bind, Except.bind]
  | ok a => simp [bind, Except.bind]

theorem map_eq_ok {α β : Type} {x : Except Failure α} {f : α → β} {b : β} :
    x.map f = .ok b ↔ ∃ a, x = .ok a ∧ f a = b := by
  cases x with
  | error cause => simp [Except.map]
  | ok a => simp [Except.map]

theorem exists_forall₂_iff {α β : Type} {R : α → β → Prop} {xs : List α} :
    (∃ ys, List.Forall₂ R xs ys) ↔ ∀ x ∈ xs, ∃ y, R x y := by
  induction xs with
  | nil => exact ⟨fun _ => List.forall_mem_nil _, fun _ => ⟨[], .nil⟩⟩
  | cons x xs ih =>
    rw [List.forall_mem_cons, ← ih]
    constructor
    · rintro ⟨_, _ | ⟨hx, hxs⟩⟩
      exact ⟨⟨_, hx⟩, _, hxs⟩
    · rintro ⟨⟨y, hx⟩, ys, hxs⟩
      exact ⟨y :: ys, .cons hx hxs⟩

theorem layoutAll_eq_texts_iff {mode : Mode} {ds : List Doc} {texts : List String} :
    Doc.layoutAll room mode ds = .ok (texts.map .text) ↔
      List.Forall₂ (fun d s => d.layout room mode = .ok (.text s)) ds texts := by
  induction ds generalizing texts with
  | nil => cases texts <;> simp [Doc.layoutAll]
  | cons d ds ih =>
    simp only [Doc.layoutAll, bind_eq_ok]
    constructor
    · rintro ⟨content, hd, contents, hds, h⟩
      cases texts with
      | nil => cases h
      | cons s texts =>
        obtain ⟨rfl, rfl⟩ := List.cons.inj (Except.ok.inj h)
        exact .cons hd (ih.mp hds)
    · rintro (_ | ⟨hd, hds⟩)
      exact ⟨_, hd, _, ih.mpr hds, rfl⟩

/-- A glue has a text when each of its parts does: theirs put together. -/
theorem layout_glue_eq_text_iff {mode : Mode} {ds : List Doc} {s : String} :
    (Doc.glue ds).layout room mode = .ok (.text s) ↔
      ∃ texts, List.Forall₂ (fun d s => d.layout room mode = .ok (.text s)) ds texts ∧ s = String.join texts := by
  simp only [Doc.layout, bind_eq_ok, ← layoutAll_eq_texts_iff]
  constructor
  · rintro ⟨contents, hds, h⟩
    cases htexts : allTexts? contents with
    | none => simp [joinContents, htexts] at h
    | some texts =>
      rw [allTexts?_eq_some.mp htexts] at hds
      simp only [joinContents, htexts, Except.ok.injEq, Json.text.injEq] at h
      exact ⟨texts, hds, h.symm⟩
  · rintro ⟨texts, hds, rfl⟩
    exact ⟨_, hds, by simp [joinContents, allTexts?_map]⟩

theorem prints_glue {mode : Mode} {ds : List Doc} : (Doc.glue ds).Prints room mode ↔ ∀ d ∈ ds, d.Prints room mode := by
  simp only [Doc.Prints, layout_glue_eq_text_iff, ← exists_forall₂_iff]
  constructor
  · rintro ⟨_, texts, hds, -⟩
    exact ⟨texts, hds⟩
  · rintro ⟨texts, hds⟩
    exact ⟨_, texts, hds, rfl⟩

theorem prints_glue_texts (mode : Mode) {α : Type} (xs : List α) (f : α → String) :
    (Doc.glue (xs.map fun x => .text (f x))).Prints room mode := by
  rw [prints_glue]
  simp [Doc.Prints, Doc.layout]

theorem gap_horizontal_eq_ok_iff {width : Int} {s : String} : Mode.horizontal.gap room width = .ok s ↔
    room.Fits width ∧ s = String.ofList (List.replicate width.toNat ' ') := by
  rw [Mode.gap, Room.Fits]
  split_ifs with hwide hholds
  · simp only [false_iff]
    omega
  · rw [Except.ok.injEq, eq_comm, iff_and_self]
    exact fun _ => ⟨by omega, hholds⟩
  · simp [hholds]

theorem prints_gap_iff {box : BoxKind} {n : Int} :
    (Doc.gap n).Prints room box.mode ↔ box = .vertical ∨ room.Fits n := by
  cases box with
  | vertical => simp [Doc.Prints, Doc.layout, BoxKind.mode, Mode.gap, Except.map]
  | horizontal | eitherWay | filling =>
    simp [Doc.Prints, Doc.layout, BoxKind.mode, map_eq_ok, gap_horizontal_eq_ok_iff]

theorem prints_leaf_iff {mode : Mode} {content : Json} : (Doc.leaf content).Prints room mode ↔ ∃ s, content = .text s := by
  cases content <;> simp [Doc.leaf, Doc.Prints, Doc.layout]

theorem gap_ample {mode : Mode} {width : Int} {s : String} (h : mode.gap room width = .ok s) :
    mode.gap .ample width = .ok s := by
  cases mode with
  | horizontal =>
    obtain ⟨hfits, hs⟩ := gap_horizontal_eq_ok_iff.mp h
    exact gap_horizontal_eq_ok_iff.mpr ⟨Room.fits_ample.mpr hfits.1, hs⟩
  | vertical | other name => exact h

mutual

theorem layout_ample {mode : Mode} {content : Json} :
    (d : Doc) → d.layout room mode = .ok content → d.layout .ample mode = .ok content
  | .empty, h | .text _, h | .alien _, h | .newline, h | .oddGap _, h | .stray _, h => h
  | .glue children, h => by
    obtain ⟨contents, hcontents, hjoin⟩ := bind_eq_ok.mp h
    exact bind_eq_ok.mpr ⟨contents, layoutAll_ample children hcontents, hjoin⟩
  | .box _ child, h => layout_ample child h
  | .tag _ child, h => layout_ample child h
  | .gap _, h => by
    obtain ⟨s, hs, rfl⟩ := map_eq_ok.mp h
    exact map_eq_ok.mpr ⟨s, gap_ample hs, rfl⟩

theorem layoutAll_ample {mode : Mode} {contents : List Json} :
    (ds : List Doc) → Doc.layoutAll room mode ds = .ok contents → Doc.layoutAll .ample mode ds = .ok contents
  | [], h => h
  | d :: ds, h => by
    simp only [Doc.layoutAll, bind_eq_ok] at h ⊢
    obtain ⟨content, hd, contents, hds, h⟩ := h
    exact ⟨content, layout_ample d hd, contents, layoutAll_ample ds hds, h⟩

end

/-- Room decides whether a tree is laid out, and not how. -/
theorem render_ample {d : Doc} {lines : List String} (h : d.render room = .ok lines) : d.render = .ok lines := by
  obtain ⟨content, hd, h⟩ := bind_eq_ok.mp h
  exact bind_eq_ok.mpr ⟨content, layout_ample d hd, h⟩

theorem render_eq_ok_iff {d : Doc} : (∃ lines, d.render room = .ok lines) ↔ d.Prints room .horizontal := by
  simp only [Doc.render, bind_eq_ok]
  constructor
  · rintro ⟨lines, content, hd, h⟩
    cases content with
    | text s => exact ⟨s, hd⟩
    | null | bool _ | int _ | real _ | array _ | object _ => cases h
  · rintro ⟨s, hs⟩
    exact ⟨_, _, hs, rfl⟩

end

/-- No failure says that a value is unreadable. -/
def FailsLate {α : Type} (x : Except Failure α) : Prop :=
  ∀ cause, x = .error cause → ¬ cause.IsUnreadable

namespace FailsLate

variable {α β : Type} {x : Except Failure α}

theorem ok (a : α) : FailsLate (.ok a : Except Failure α) := fun _ h => nomatch h

theorem bind {f : α → Except Failure β} (hx : FailsLate x) (hf : ∀ a, FailsLate (f a)) : FailsLate (x >>= f) := by
  cases x with
  | error cause =>
    rintro _ ⟨⟩
    exact hx cause rfl
  | ok a => exact hf a

theorem map (hx : FailsLate x) (f : α → β) : FailsLate (x.map f) :=
  bind hx fun a => ok (f a)

theorem gap (room : Room) (mode : Mode) (n : Int) : FailsLate (mode.gap room n) := by
  intro cause h
  cases mode with
  | vertical => cases h
  | other name =>
    cases h
    nofun
  | horizontal =>
    rw [Mode.gap] at h
    split_ifs at h
    all_goals
      cases h
      nofun

theorem oddGap (mode : Mode) : FailsLate mode.oddGap := by
  rintro cause h
  cases mode with
  | vertical => cases h
  | horizontal | other name =>
    cases h
    nofun

theorem joinContents (contents : List Json) : FailsLate (joinContents contents) := by
  intro cause h
  rw [Markup.joinContents] at h
  split at h
  · cases h
  · cases h
    nofun

mutual

theorem layout (room : Room) (mode : Mode) : (d : Doc) → FailsLate (d.layout room mode)
  | .empty | .text _ | .alien _ | .newline => ok _
  | .glue children => bind (layoutAll room mode children) joinContents
  | .box kind child => layout room kind.mode child
  | .tag _ child => layout room mode child
  | .gap width => map (gap room mode width) _
  | .oddGap _ => map (oddGap mode) _
  | .stray value => by
    rintro _ ⟨⟩
    nofun

theorem layoutAll (room : Room) (mode : Mode) : (ds : List Doc) → FailsLate (Doc.layoutAll room mode ds)
  | [] => ok _
  | d :: ds => bind (layout room mode d) fun _ => bind (layoutAll room mode ds) fun _ => ok _

end

theorem render (room : Room) (d : Doc) : FailsLate (d.render room) := by
  refine bind (layout room .horizontal d) fun content => ?_
  cases content with
  | text s => exact ok _
  | null | bool _ | int _ | real _ | array _ | object _ =>
    rintro _ ⟨⟩
    nofun

end FailsLate

end CoqConsole.Markup
