import CoqConsole.ProofView.View
import CoqConsole.Proofs.Markup.Texts
import Mathlib.Algebra.GroupWithZero.Nat

/-!
# Sections of a proof view

A proof view is its open goals, and under a header each what else there is of messages, shelved goals and goals that
were given up. Goals stand in a block, numbered from one on, with a gap between any two and none around them.

* `Typesets` : what is shown of trees, and that it is exactly when all of them have lines;
* `Goal.part`, `goalBlock`, `messageBlock`, `titled` : the lines of each part of a view;
* `drop_goalBlock`, `length_goalBlock` : where a goal begins in its block, and how long that is;
* `ProofView.layout`, `ProofView.height` : the lines of a view, and their number;
* `ProofView.laid_out` : so it is shown.
-/

namespace CoqConsole

open Markup (Doc Room bind_eq_ok map_eq_ok)

/-! ## Trees with lines -/

namespace Markup.Doc

/-- A tree has lines where there is so much room. -/
def Renders (room : Room) (d : Doc) : Prop := ∃ lines, d.render room = .ok lines

/-- The lines of a tree, if it has any. -/
def lines (d : Doc) : List String := d.render.toOption.getD []

end Markup.Doc

/-- This is `a`, and it is exactly when all these trees have lines. -/
def Typesets {α : Type} (room : Room) (x : Except Failure α) (trees : List Doc) (a : α) : Prop :=
  ∀ r, x = .ok r ↔ (∀ d ∈ trees, d.Renders room) ∧ r = a

namespace Typesets

variable {room : Room} {α β : Type} {x : Except Failure α} {a : α} {b : β} {ds es : List Doc}

theorem ok (a : α) : Typesets room (.ok a) [] a := fun r => by simp [eq_comm]

theorem bind {f : α → Except Failure β} (hx : Typesets room x ds a) (hf : Typesets room (f a) es b) :
    Typesets room (x >>= f) (ds ++ es) b := by
  intro r
  rw [bind_eq_ok, List.forall_mem_append, and_assoc, ← hf r]
  constructor
  · rintro ⟨a', hx', hr⟩
    obtain ⟨hds, rfl⟩ := (hx a').mp hx'
    exact ⟨hds, hr⟩
  · rintro ⟨hds, hr⟩
    exact ⟨a, (hx a).mpr ⟨hds, rfl⟩, hr⟩

theorem map (hx : Typesets room x ds a) (f : α → β) : Typesets room (x.map f) ds (f a) := by
  intro r
  rw [map_eq_ok]
  constructor
  · rintro ⟨a', hx', rfl⟩
    obtain ⟨hds, rfl⟩ := (hx a').mp hx'
    exact ⟨hds, rfl⟩
  · rintro ⟨hds, rfl⟩
    exact ⟨a, (hx a).mpr ⟨hds, rfl⟩, rfl⟩

/-- Two things shown one after the other, and put together. -/
theorem both {γ : Type} {y : Except Failure β} {f : α → β → γ} (hx : Typesets room x ds a) (hy : Typesets room y es b) :
    Typesets room (do let a ← x; let b ← y; return f a b) (ds ++ es) (f a b) := by
  have hboth := hx.bind (f := fun a => y >>= fun b => .ok (f a b)) (hy.bind (ok (f a b)))
  rwa [List.append_nil] at hboth

theorem render (d : Doc) : Typesets room (d.render room) [d] d.lines := by
  intro r
  rw [List.forall_mem_singleton, Doc.Renders, Doc.lines]
  cases h : d.render room with
  | error cause => simp
  | ok ls => simp [Markup.render_ample h, Except.toOption, eq_comm]

theorem mapM_render (ds : List Doc) : Typesets room (ds.mapM fun d => d.render room) ds (ds.map Doc.lines) := by
  induction ds with
  | nil => exact ok []
  | cons d ds ih =>
    rw [List.mapM_cons]
    exact (render d).both ih

end Typesets

/-! ## Goals -/

namespace Goal

def trees (g : Goal) : List Doc := g.hypotheses ++ [g.conclusion]

/-- The lines of the `k`-th of `n` goals. -/
def part (k n : Nat) (g : Goal) : List String :=
  s!"Goal {g.id.shown} ({k} / {n})" :: g.hypotheses.flatMap Doc.lines ++
    ["", "========================================", ""] ++ g.conclusion.lines

def height (g : Goal) : Nat := 4 + (g.trees.map fun d => d.lines.length).sum

theorem goalRule_eq : goalRule = "========================================" := by decide +kernel

theorem length_part (k n : Nat) (g : Goal) : (g.part k n).length = g.height := by
  simp [part, height, trees, List.length_flatMap]
  omega

theorem typesets_render (room : Room) (k n : Nat) (g : Goal) :
    Typesets room (g.render k n room) g.trees (g.part k n) := by
  rw [render, labelled, goalRule_eq]
  exact (Typesets.mapM_render g.hypotheses).both (Typesets.render g.conclusion)

end Goal

/-- The lines between two goals. -/
def goalGap : List String := ["", "", "────────────────────────────────────────────────────────────", ""]

theorem gap_eq : ["", "", goalSeparator, ""] = goalGap := by decide +kernel

/-- The parts of goals, numbered from the `k`-th of `n` on. -/
def goalParts (k n : Nat) (goals : List Goal) : List (List String) :=
  (goals.zipIdx k).map fun (g, k) => g.part k n

/-- The lines of goals, with a gap between any two. -/
def goalBlock (goals : List Goal) : List String := goalGap.intercalate (goalParts 1 goals.length goals)

/-- After the first goal each has a gap before it. -/
theorem typesets_renderGoalsFrom (room : Room) {k n : Nat} (hk : 1 < k) (goals : List Goal) :
    Typesets room (renderGoalsFrom room n k goals) (goals.flatMap Goal.trees) ((goalParts k n goals).flatMap (goalGap ++ ·)) := by
  induction goals generalizing k with
  | nil => exact .ok []
  | cons g rest ih =>
    have hgap : (if (1 : Int) < k then ["", "", goalSeparator, ""] else []) = goalGap := by
      rw [gap_eq]
      exact if_pos (Int.ofNat_lt.mpr hk)
    simp only [renderGoalsFrom, hgap]
    exact (g.typesets_render room k n).both (ih (Nat.lt_succ_of_lt hk))

/-- Lists with gaps between them: each but the first has one before it. -/
theorem intercalate_cons {α : Type} (gap part : List α) (parts : List (List α)) :
    gap.intercalate (part :: parts) = part ++ parts.flatMap (gap ++ ·) := by
  induction parts generalizing part with
  | nil => simp
  | cons next parts ih => rw [List.intercalate_cons_cons, ih, List.flatMap_cons, List.append_assoc, List.append_assoc]

theorem typesets_renderGoals (room : Room) (goals : List Goal) :
    Typesets room (renderGoals goals room) (goals.flatMap Goal.trees) (goalBlock goals) := by
  cases goals with
  | nil => exact .ok []
  | cons g rest =>
    have hblock : goalBlock (g :: rest) =
        [] ++ g.part 1 (rest.length + 1) ++ (goalParts 2 (rest.length + 1) rest).flatMap (goalGap ++ ·) :=
      intercalate_cons _ _ _
    rw [hblock]
    exact (g.typesets_render room 1 (rest.length + 1)).both
      (@typesets_renderGoalsFrom room 2 (rest.length + 1) (by decide) rest)

/-- What is left of lists with gaps between them after the first `k` and the gaps behind those. -/
theorem drop_intercalate {α : Type} (gap : List α) (parts : List (List α)) (k : Nat) :
    (gap.intercalate parts).drop ((parts.take k).map fun part => part.length + gap.length).sum =
      gap.intercalate (parts.drop k) := by
  induction k generalizing parts with
  | zero => simp
  | succ k ih =>
    cases parts with
    | nil => simp
    | cons part parts =>
      cases parts with
      | nil => simp
      | cons next parts =>
        rw [List.take_succ_cons, List.map_cons, List.sum_cons, List.intercalate_cons_cons, ← List.drop_drop,
          List.drop_left' (by simp), ih, List.drop_succ_cons]

theorem length_intercalate {α : Type} (gap : List α) (parts : List (List α)) :
    (gap.intercalate parts).length = (parts.map List.length).sum + gap.length * (parts.length - 1) := by
  induction parts with
  | nil => rfl
  | cons part parts ih =>
    cases parts with
    | nil => simp
    | cons next parts =>
      rw [List.intercalate_cons_cons, List.length_append, List.length_append, ih]
      simp [Nat.mul_add]
      omega

theorem length_goalParts (k n : Nat) (goals : List Goal) :
    (goalParts k n goals).map List.length = goals.map Goal.height := by
  induction goals generalizing k with
  | nil => rfl
  | cons g rest ih => exact congrArg₂ List.cons (g.length_part k n) (ih (k + 1))

theorem drop_goalParts (k n i : Nat) (goals : List Goal) :
    (goalParts k n goals).drop i = goalParts (k + i) n (goals.drop i) := by
  induction i generalizing k goals with
  | zero => rfl
  | succ i ih =>
    cases goals with
    | nil => rfl
    | cons g rest =>
      have hplace : k + (i + 1) = k + 1 + i := by omega
      rw [List.drop_succ_cons, hplace, ← ih]
      rfl

/-- Where the part of a goal begins in its block: behind the goals before it and the gaps behind those. -/
def goalOffset (goals : List Goal) (i : Nat) : Nat := ((goals.take i).map fun g => g.height + goalGap.length).sum

/-- There the part of the goal stands, and behind it the later goals, each with a gap before it. -/
theorem drop_goalBlock {goals : List Goal} {i : Nat} {g : Goal} (h : goals[i]? = some g) :
    (goalBlock goals).drop (goalOffset goals i) = g.part (i + 1) goals.length ++
      (goalParts (i + 2) goals.length (goals.drop (i + 1))).flatMap (goalGap ++ ·) := by
  have hoffset : goalOffset goals i =
      (((goalParts 1 goals.length goals).take i).map fun part => part.length + goalGap.length).sum := by
    have htake := congrArg (fun lengths => ((lengths.take i).map (· + goalGap.length)).sum)
      (length_goalParts 1 goals.length goals)
    simp only [← List.map_take, List.map_map] at htake
    exact htake.symm
  have hdrop : goals.drop i = g :: goals.drop (i + 1) := by
    obtain ⟨hi, rfl⟩ := List.getElem?_eq_some_iff.mp h
    exact List.drop_eq_getElem_cons hi
  rw [goalBlock, hoffset, drop_intercalate, drop_goalParts, hdrop, Nat.add_comm 1 i]
  exact intercalate_cons _ _ _

/-- How many lines goals have, with their gaps. -/
def goalsHeight (goals : List Goal) : Nat := (goals.map Goal.height).sum + 4 * (goals.length - 1)

theorem length_goalBlock (goals : List Goal) : (goalBlock goals).length = goalsHeight goals := by
  have hlength := congrArg List.length (length_goalParts 1 goals.length goals)
  rw [List.length_map, List.length_map] at hlength
  rw [goalBlock, length_intercalate, length_goalParts, hlength]
  rfl

/-! ## Sections -/

def severityLine : Int → String
  | 1 => "Error:"
  | 2 => "Warning:"
  | 3 => "Information:"
  | severity => s!"Unknown {severity}:"

theorem severityLine_eq (severity : Int) : severityLine severity = s!"{ProofView.severityName severity}:" := by
  by_cases hnamed : 1 ≤ severity ∧ severity ≤ 3
  · obtain rfl | rfl | rfl : severity = 1 ∨ severity = 2 ∨ severity = 3 := by omega
    all_goals rfl
  · have hname : ProofView.severityName severity = s!"Unknown {severity}" := by
      unfold ProofView.severityName ProofView.severityNames
      split
      · rw [List.getElem?_eq_none (by simp; omega), Option.getD_none]
      · rfl
    unfold severityLine
    split
    iterate 3 omega
    rw [hname]
    rfl

/-- The lines of messages, each under its severity. -/
def messageBlock (messages : List (Int × Doc)) : List String :=
  messages.flatMap fun (severity, d) => severityLine severity :: d.lines

theorem typesets_renderMessages (room : Room) (messages : List (Int × Doc)) :
    Typesets room (ProofView.renderMessages room messages) (messages.map Prod.snd) (messageBlock messages) := by
  induction messages with
  | nil => exact .ok []
  | cons message rest ih =>
    simp only [ProofView.renderMessages, ← severityLine_eq]
    exact (Typesets.render message.2).both ih

def messagesHeight (messages : List (Int × Doc)) : Nat := (messages.map fun m => 1 + m.2.lines.length).sum

theorem length_messageBlock (messages : List (Int × Doc)) :
    (messageBlock messages).length = messagesHeight messages := by
  rw [messageBlock, messagesHeight, List.length_flatMap]
  simp [Nat.add_comm]

/-- A section: its title between blank lines and what is under it, if there is anything. -/
def titled {α : Type} (title : String) (block : List α → List String) (items : List α) : List String :=
  if items.isEmpty then [] else ["", "", title, ""] ++ block items

def titledHeight {α : Type} (height : List α → Nat) (items : List α) : Nat :=
  if items.isEmpty then 0 else 4 + height items

theorem length_titled {α : Type} (title : String) {block : List α → List String} {height : List α → Nat}
    (h : ∀ items, (block items).length = height items) (items : List α) :
    (titled title block items).length = titledHeight height items := by
  unfold titled titledHeight
  split
  · rfl
  · rw [List.length_append, h]
    rfl

theorem typesets_renderSection {α : Type} {room : Room} {label title : String}
    (htitle : ProofView.sectionHeader label = ["", "", title, ""]) {render : List α → Except Failure (List String)}
    {trees : List α → List Doc} {block : List α → List String}
    (h : ∀ items, Typesets room (render items) (trees items) (block items)) (hnil : trees [] = []) (items : List α) :
    Typesets room (ProofView.renderSection label render items) (trees items) (titled title block items) := by
  cases items with
  | nil =>
    rw [hnil]
    exact .ok []
  | cons item rest =>
    rw [titled, ← htitle]
    exact (h (item :: rest)).map (ProofView.sectionHeader label ++ ·)

/-! ## Views -/

namespace ProofView

/-- The goals of a view in a state; none if there is no proof. -/
def goalsOf (view : ProofView) (state : Proof → List Goal) : List Goal := (view.proof.map state).getD []

def trees (view : ProofView) : List Doc :=
  (view.goalsOf Proof.goals).flatMap Goal.trees ++ (view.messages.map Prod.snd ++
    ((view.goalsOf Proof.shelved).flatMap Goal.trees ++ (view.goalsOf Proof.givenUp).flatMap Goal.trees))

def layout (view : ProofView) : List String :=
  goalBlock (view.goalsOf Proof.goals) ++
    titled "Messages ━━━━━━━━━━━━━━━━━━━━━━━━━━━━━━━━━━━━━━━━━━━━━━━━━━━━━━━━━━━" messageBlock view.messages ++
    titled "Shelved ━━━━━━━━━━━━━━━━━━━━━━━━━━━━━━━━━━━━━━━━━━━━━━━━━━━━━━━━━━━━" goalBlock (view.goalsOf Proof.shelved) ++
    titled "Given Up ━━━━━━━━━━━━━━━━━━━━━━━━━━━━━━━━━━━━━━━━━━━━━━━━━━━━━━━━━━━" goalBlock (view.goalsOf Proof.givenUp)

theorem typesets_render (room : Room) (view : ProofView) :
    Typesets room (view.render room) view.trees view.layout := by
  have hgoals := typesets_renderGoals room
  have hmessages := typesets_renderMessages room
  exact (hgoals _).bind ((typesets_renderSection (by decide +kernel) hmessages rfl _).bind
    ((typesets_renderSection (by decide +kernel) hgoals rfl _).both
      (typesets_renderSection (by decide +kernel) hgoals rfl _)))

def height (view : ProofView) : Nat :=
  goalsHeight (view.goalsOf Proof.goals) + titledHeight messagesHeight view.messages +
    titledHeight goalsHeight (view.goalsOf Proof.shelved) + titledHeight goalsHeight (view.goalsOf Proof.givenUp)

theorem length_layout (view : ProofView) : view.layout.length = view.height := by
  simp only [layout, height, List.length_append, length_goalBlock, length_titled _ length_messageBlock,
    length_titled _ length_goalBlock]

/-- A view is shown as its layout, exactly when all its trees have lines; the layout has as many lines as its parts and
the fixed lines come to, and each goal of a block begins where those before it end. -/
theorem laid_out (room : Room) (view : ProofView) :
    (∀ ls, view.render room = .ok ls ↔ (∀ d ∈ view.trees, ∃ lines, d.render room = .ok lines) ∧ ls = view.layout) ∧
      view.layout.length = view.height ∧
      ∀ (goals : List Goal) i g, goals[i]? = some g →
        (goalBlock goals).drop (goalOffset goals i) = g.part (i + 1) goals.length ++
          (goalParts (i + 2) goals.length (goals.drop (i + 1))).flatMap (goalGap ++ ·) :=
  ⟨view.typesets_render room, view.length_layout, fun _ _ _ h => drop_goalBlock h⟩

/-- Two goals, messages of a severity with a name and of one without, a goal that was shelved, and none given up. -/
theorem laid_out_shelved :
    let view : ProofView :=
      ⟨some ⟨[⟨.int 7, [.text "n : nat", .text "H :\nn = 0"], .text "A"⟩, ⟨.text "g", [], .glue [.text "B", .gap 1]⟩],
        [⟨.int 8, [], .text "C"⟩], []⟩, [(3, .text "done"), (9, .box .vertical (.glue [.text "x", .gap 1, .text "y"]))]⟩
    view.layout = [
      "Goal 7 (1 / 2)", "n : nat", "H :", "n = 0", "", "========================================", "", "A",
      "", "", "────────────────────────────────────────────────────────────", "",
      "Goal g (2 / 2)", "", "========================================", "", "B ",
      "", "", "Messages ━━━━━━━━━━━━━━━━━━━━━━━━━━━━━━━━━━━━━━━━━━━━━━━━━━━━━━━━━━━", "",
      "Information:", "done", "Unknown 9:", "x", "y",
      "", "", "Shelved ━━━━━━━━━━━━━━━━━━━━━━━━━━━━━━━━━━━━━━━━━━━━━━━━━━━━━━━━━━━━", "",
      "Goal 8 (1 / 1)", "", "========================================", "", "C"] ∧
      view.render = .ok view.layout ∧ view.layout.length = view.height := by
  intro view
  obtain ⟨ls, hls⟩ : ∃ ls, view.render = .ok ls := ⟨_, rfl⟩
  obtain ⟨-, rfl⟩ := ((laid_out .ample view).1 ls).mp hls
  exact ⟨by decide +kernel, hls, (laid_out .ample view).2.1⟩

end ProofView

end CoqConsole
