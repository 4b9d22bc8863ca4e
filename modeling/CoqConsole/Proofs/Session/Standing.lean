import CoqConsole.Proofs.Session.Hits

/-!
# What stands on the query pane

The pane holds what was written since it was last emptied or replaced.

* `standing`, `shownAfter`, `lines_after` : the writings that are still there, and the pane's lines;
* `Shift`, `shift` : what a moment makes of them, case by case.
-/

namespace CoqConsole

def Writing.lines : Writing → List String
  | .emptied _ => []
  | .answer _ lines => lines
  | .hit _ lines => lines

def Writing.stand (us : List Writing) : Writing → List Writing
  | .emptied _ => []
  | .answer t lines => [.answer t lines]
  | .hit s lines => us ++ [.hit s lines]

def standing (ws : List Writing) : List Writing := ws.foldl Writing.stand []

def shownAfter (ts : List Moment) : List Writing := standing (written ts)

theorem shownAfter_snoc (ts : List Moment) (u : Moment) :
    shownAfter (ts ++ [u]) = ((Board.after ts).writings u).foldl Writing.stand (shownAfter ts) := by
  rw [shownAfter, written_snoc, standing, List.foldl_append]
  rfl

theorem Board.lines_write {b : Board} {us : List Writing} (h : b.pane.lines = us.flatMap Writing.lines) (w : Writing) :
    (b.write w).pane.lines = (Writing.stand us w).flatMap Writing.lines := by
  cases w with
  | emptied s => rfl
  | answer t lines => simp [write, Pane.write, Pane.linesAfter, Writing.onPane, Writing.stand, Writing.lines]
  | hit s lines => simp [write, Pane.write, Pane.linesAfter, Writing.onPane, Writing.stand, Writing.lines, h]

theorem Board.lines_writeAll {b : Board} {us : List Writing} (h : b.pane.lines = us.flatMap Writing.lines)
    (ws : List Writing) : (b.writeAll ws).pane.lines = (ws.foldl Writing.stand us).flatMap Writing.lines := by
  induction ws generalizing b us with
  | nil => exact h
  | cons w ws ih => exact ih (lines_write h w)

theorem Board.pane_take (b : Board) (u : Moment) : (b.take u).pane = (b.writeAll (b.writings u)).pane := by
  cases u <;> rfl

/-- The pane's lines are those of the standing writings. -/
theorem lines_after (ts : List Moment) :
    (Board.after ts).pane.lines = (shownAfter ts).flatMap Writing.lines := by
  induction ts using List.reverseRecOn with
  | nil => rfl
  | append_singleton ts u ih =>
    rw [Board.after_snoc, Board.pane_take, shownAfter_snoc]
    exact Board.lines_writeAll ih _

/-- What a moment makes of the pane, case by case. -/
inductive Shift (ts : List Moment) (u : Moment) : Prop
  /-- Nothing is written, and no hit of a search that is not stale came. -/
  | same (stale : ∀ s lines, u.offers = [.hit s lines] → (Board.after ts).tickets.accept searchChannel s = false)
    (standing : shownAfter (ts ++ [u]) = shownAfter ts)
    (shown : (Board.after (ts ++ [u])).shown = (Board.after ts).shown)
  /-- The pane is emptied for a search. -/
  | opened {s : Int} (told : u.told? = some s) (none : u.offers = [])
    (accepted : (Board.after ts).tickets.accept searchChannel s = true) (new : (Board.after ts).shown ≠ some s)
    (standing : shownAfter (ts ++ [u]) = [])
    (shown : (Board.after (ts ++ [u])).shown = some s)
  /-- A hit is added; the pane is emptied before if another search was shown. -/
  | added {s : Int} {lines : List String} (told : u.told? = some s) (offered : u.offers = [.hit s lines])
    (accepted : (Board.after ts).tickets.accept searchChannel s = true)
    (standing : shownAfter (ts ++ [u]) =
      (if (Board.after ts).shown = some s then shownAfter ts else []) ++ [.hit s lines])
    (shown : (Board.after (ts ++ [u])).shown = some s)
  /-- An answer replaces everything. The search that is shown stays the same. -/
  | answered {t : Nat} {value : Json} {lines : List String} (ended : u = .ended (.question t) (.ok value))
    (rendered : renderAnswer value = .ok lines)
    (accepted : (Board.after ts).tickets.accept questionChannel t = true)
    (standing : shownAfter (ts ++ [u]) = [.answer t lines])
    (shown : (Board.after (ts ++ [u])).shown = (Board.after ts).shown)

theorem shift (ts : List Moment) (u : Moment) : Shift ts u := by
  have hshown := Board.shown_take (Board.after ts) u
  have hstanding := shownAfter_snoc ts u
  have hwrites := (Board.after ts).writes u
  rw [← Board.after_snoc] at hshown
  generalize (Board.after ts).writings u = ws at hwrites hstanding
  cases hwrites with
  | nothing stale =>
    refine .same (fun s lines h => stale s (told_of_offers h)) hstanding (hshown.trans ?_)
    cases htold : u.told? with
    | none => rfl
    | some s => simp only [stale s htold, Bool.false_eq_true, if_false]
  | @opened _ s told accepted none =>
    simp only [told, accepted, if_true] at hshown
    by_cases h : (Board.after ts).shown = some s
    · rw [Board.opening, if_pos h] at hstanding
      exact .same (fun s lines h => by rw [none] at h; cases h) hstanding (hshown.trans h.symm)
    · rw [Board.opening, if_neg h] at hstanding
      exact .opened told none accepted h hstanding hshown
  | @added params hit lines read accepted rendered =>
    have htold : (Moment.heard params).told? = some hit.id := by simp only [Moment.told?, read]
    simp only [htold, accepted, if_true] at hshown
    have hoffers : (Moment.heard params).offers = [.hit hit.id lines] := by simp only [Moment.offers, read, rendered]
    refine .added htold hoffers accepted (hstanding.trans ?_) hshown
    rw [List.foldl_append, Board.opening]
    split <;> rfl
  | answered accepted rendered => exact .answered rfl rendered accepted hstanding hshown

end CoqConsole
