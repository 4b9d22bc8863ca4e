import CoqConsole.Proofs.Buffer.Scripting
import CoqConsole.Proofs.Lines
import CoqConsole.Proofs.Position

/-!
# What holds of a buffer at every moment of its life

* `Buffer.le_clampTo`, `Buffer.clampTo_le` : a number of any kind is moved into its range;
* `Buffer.Sound` : there are lines, none holds a newline, the cursor is in the text, the rolls are right;
* `Sound.apply`, `version_apply` : every deed keeps it so, and only a new text counts as one;
* `Scene.Stands`, `Stands.stepped` : so does every step, whatever the listeners do;
* `sound_throughout` : and so it is after every play, which the runs of scripts are, each in its course.
-/

namespace CoqConsole

/-! ## Numbers in a range -/

theorem Scalar.size_of_index? {x : Scalar} {n : Int} (h : x.index? = some n) : x.size = .at n 1 := by
  cases x with
  | whole m =>
    cases h
    rfl
  | truth b =>
    cases h
    rfl
  | real x => cases h

theorem Scalar.le_iff_of_index? {x y : Scalar} {m n : Int} (hx : x.index? = some m) (hy : y.index? = some n) :
    x.le y = true ↔ m ≤ n := by
  have hsame : x.le y = Scalar.le (.whole m) (.whole n) := by
    unfold Scalar.le Scalar.lt Scalar.eqv
    rw [size_of_index? hx, size_of_index? hy]
    rfl
  rw [hsame, Scalar.le_whole, decide_eq_true_iff]

namespace Buffer

theorem le_clampTo (top : Int) (n : Scalar) : Scalar.le 0 (clampTo top n) = true := by
  unfold clampTo Scalar.max
  split
  · next hlt => rw [Scalar.le, hlt, Bool.true_or]
  · rfl

/-- What is not above the top and not below zero lies between them; nothing else is left as it is. -/
theorem clampTo_le {top : Int} (htop : 0 ≤ top) (n : Scalar) : (clampTo top n).le (.whole top) = true := by
  unfold clampTo Scalar.max
  split
  · next hpositive =>
    unfold Scalar.min at hpositive ⊢
    by_cases habove : (Scalar.whole top).lt n = true
    · rw [if_pos habove, Scalar.le_whole]
      exact decide_eq_true le_rfl
    · rw [if_neg habove] at hpositive ⊢
      unfold Scalar.lt at hpositive habove
      unfold Scalar.le Scalar.lt Scalar.eqv
      generalize n.size = size at hpositive habove
      cases size with
      | «at» a d =>
        have hle : ¬ top * d < a * 1 := by simpa [Scalar.size, Size.lt] using habove
        simp only [Scalar.size, Size.lt, Size.eqv, Bool.or_eq_true, decide_eq_true_iff, beq_iff_eq]
        omega
      | low => cases hpositive
      | high => exact absurd rfl habove
      | nowhere => cases hpositive
  · rw [show (0 : Scalar) = .whole 0 from rfl, Scalar.le_whole]
    exact decide_eq_true htop

theorem isSome_index?_clampTo {top : Int} {n : Scalar} (h : n.index?.isSome = true) :
    (clampTo top n).index?.isSome = true := by
  have hmin : (n.min (.whole top)).index?.isSome = true := by
    unfold Scalar.min
    split
    · rfl
    · exact h
  unfold clampTo
  generalize n.min (.whole top) = m at hmin
  unfold Scalar.max
  split
  · exact hmin
  · rfl

end Buffer

namespace Buffer

variable {κ μ : Type} {b b' : Buffer κ μ}

/-! ## Sound buffers -/

/-- The cursor is on one of the lines, at a character or at the end of it. -/
structure CursorInText (b : Buffer κ μ) : Prop where
  row : ∃ row, b.cursor.row.index? = some row ∧ 0 ≤ row ∧ row < b.lines.length
  col : Scalar.le 0 b.cursor.col = true ∧ b.cursor.col.le (.whole (b.lineOr b.cursor.row).length) = true

/-- There are lines, none holds a newline, the cursor is in the text, and each roll holds the active handles of its
event, each once. -/
structure Sound (b : Buffer κ μ) : Prop where
  lines_ne_nil : b.lines ≠ []
  newline_notMem : ∀ line ∈ b.lines, '\n' ∉ line.toList
  cursor : b.CursorInText
  enrolled : b.Enrolled

theorem Sound.of_eq (h : b.Sound) (hlines : b'.lines = b.lines) (hcursor : b'.cursor = b.cursor)
    (henrolled : b'.Enrolled) : b'.Sound := by
  have hline (row : Scalar) : b'.lineOr row = b.lineOr row := by
    unfold lineOr line?
    rw [hlines]
  refine ⟨hlines ▸ h.lines_ne_nil, hlines ▸ h.newline_notMem, ⟨?_, ?_⟩, henrolled⟩
  · rw [hcursor, hlines]
    exact h.cursor.row
  · rw [hcursor, hline]
    exact h.cursor.col

theorem sound_ofText (uri text language : String) : (ofText uri text language : Buffer κ μ).Sound where
  lines_ne_nil := Text.lines_ne_nil text
  newline_notMem _ hline := Text.newline_notMem_of_mem_lines hline
  cursor := by
    have hpositive : 0 < (Text.lines text).length := List.length_pos_of_ne_nil (Text.lines_ne_nil text)
    refine ⟨⟨0, rfl, le_rfl, by simpa [ofText] using hpositive⟩, rfl, ?_⟩
    exact (Scalar.le_iff_of_index? rfl rfl).mpr (Int.natCast_nonneg _)
  enrolled := enrolled_ofText uri text language

/-! ## Deeds -/

/-- The nearest position is in the text, if its row is a whole number. -/
theorem cursorInText_nearest (hlines : b.lines ≠ []) {p : Position} (hrow : (b.nearest p).row.index?.isSome = true) :
    CursorInText { b with cursor := b.nearest p } where
  row := by
    have hpositive := List.length_pos_of_ne_nil hlines
    obtain ⟨row, hindex⟩ := Option.isSome_iff_exists.mp hrow
    have hlow := le_clampTo (b.lines.length - 1) p.row
    have hhigh := clampTo_le (show 0 ≤ (b.lines.length : Int) - 1 by omega) p.row
    have hrow0 := (Scalar.le_iff_of_index? rfl hindex).mp hlow
    have hrow1 := (Scalar.le_iff_of_index? hindex rfl).mp hhigh
    exact ⟨row, hindex, hrow0, by show row < b.lines.length; omega⟩
  col := ⟨le_clampTo _ p.col, clampTo_le (Int.natCast_nonneg _) p.col⟩

theorem Sound.moveTo (h : b.Sound) {p : Position} (hmove : b.moveTo p = .ok b') : b'.Sound := by
  unfold Buffer.moveTo at hmove
  simp only at hmove
  split at hmove
  · next row hrow =>
    obtain rfl := Except.ok.inj hmove
    have hsome : (b.nearest p).row.index?.isSome = true := by rw [hrow, Option.isSome_some]
    exact ⟨h.lines_ne_nil, h.newline_notMem, cursorInText_nearest h.lines_ne_nil hsome, h.enrolled.of_eq rfl rfl⟩
  · cases hmove

theorem Sound.replaceText (h : b.Sound) (text : String) : (b.replaceText text).Sound := by
  obtain ⟨row, hrow, -⟩ := h.cursor.row
  let b₁ : Buffer κ μ := { b with lines := Text.lines text, version := b.version + 1 }
  have hlines : b₁.lines ≠ [] := Text.lines_ne_nil text
  have hindex : (b₁.nearest b₁.cursor).row.index?.isSome = true :=
    isSome_index?_clampTo (by show b.cursor.row.index?.isSome = true; rw [hrow, Option.isSome_some])
  exact ⟨hlines, fun _ hline => Text.newline_notMem_of_mem_lines hline, cursorInText_nearest hlines hindex,
    h.enrolled.of_eq rfl rfl⟩

theorem Sound.apply (h : b.Sound) (d : Deed κ μ) : (d.apply b).Sound := by
  cases d with
  | setText text => exact h.replaceText text
  | setCursor p =>
    show ((b.moveTo p).toOption.getD b).Sound
    cases hmove : b.moveTo p with
    | ok b' => exact h.moveTo hmove
    | error cause => exact h
  | setMarks ns marks => exact h.of_eq rfl rfl (h.enrolled.of_eq rfl rfl)
  | clearMarks ns => exact h.of_eq rfl rfl (h.enrolled.of_eq rfl rfl)
  | subscribe e listener => exact h.of_eq rfl rfl (h.enrolled.subscribe e listener)
  | cancel handle =>
    have henrolled := h.enrolled.cancel handle
    obtain ⟨subscriptions, rolls, hcancel⟩ := Deed.apply_cancel b handle
    rw [hcancel]
    exact h.of_eq rfl rfl (hcancel ▸ henrolled)
  | close => exact h.of_eq rfl rfl (h.enrolled.of_eq rfl rfl)

theorem version_apply (b : Buffer κ μ) (d : Deed κ μ) :
    (d.apply b).version = b.version + if d.isEdit then 1 else 0 := by
  cases d with
  | setText text => rfl
  | setCursor p =>
    obtain ⟨cursor, hmoved⟩ := Deed.apply_setCursor b p
    rw [hmoved]
    rfl
  | cancel handle =>
    obtain ⟨subscriptions, rolls, hcancel⟩ := Deed.apply_cancel b handle
    rw [hcancel]
    rfl
  | _ => rfl

/-! ## Plays -/

namespace Scene

/-- The buffer is sound and counts the texts that were set. It was so, too, for each listener as it was called. -/
structure Stands (ms : List (Move κ μ)) (s : Scene κ μ) : Prop where
  sound : s.buffer.Sound
  version : s.buffer.version = ms.countP Move.isEdit
  called : ∀ t ∈ s.calls, t.buffer.Sound ∧
    ∃ before, before ++ [.turn] <+: ms ∧ t.buffer.version = before.countP Move.isEdit

theorem Stands.stepped {ms : List (Move κ μ)} {s s' : Scene κ μ} {m : Move κ μ} (h : Stands ms s)
    (hstep : Stepped s m s') : Stands (ms ++ [m]) s' := by
  have hcount : (ms ++ [m]).countP Move.isEdit = s.buffer.version + if m.isEdit then 1 else 0 := by
    rw [List.countP_append, List.countP_singleton, h.version]
  have hcalled : ∀ t ∈ s.calls, t.buffer.Sound ∧
      ∃ before, before ++ [.turn] <+: ms ++ [m] ∧ t.buffer.version = before.countP Move.isEdit := by
    intro t ht
    obtain ⟨hsound, before, hbefore, hversion⟩ := h.called t ht
    exact ⟨hsound, before, hbefore.trans (List.prefix_append ms [m]), hversion⟩
  cases hstep with
  | quiet => exact ⟨h.sound.apply _, by rw [hcount]; exact version_apply _ _, hcalled⟩
  | emitting => exact ⟨h.sound.apply _, by rw [hcount]; exact version_apply _ _, hcalled⟩
  | calling =>
    refine ⟨h.sound, hcount.symm, fun t ht => ?_⟩
    rcases List.mem_append.mp ht with ht | ht
    · exact hcalled t ht
    · rw [List.mem_singleton.mp ht]
      exact ⟨h.sound, ms, List.prefix_rfl, h.version⟩
  | passing => exact ⟨h.sound, hcount.symm, hcalled⟩
  | leaving => exact ⟨h.sound, hcount.symm, hcalled⟩
  | failing => exact ⟨h.sound, hcount.symm, hcalled⟩
  | finishing => exact ⟨h.sound, hcount.symm, hcalled⟩

theorem stands_opening (uri text language : String) : Stands [] (opening (ofText uri text language : Buffer κ μ)) :=
  ⟨sound_ofText uri text language, rfl, fun _ ht => by cases ht⟩

end Scene

theorem Scene.stands_play {uri text language : String} {ms : List (Move κ μ)} {s : Scene κ μ}
    (h : (opening (ofText uri text language)).play ms = some s) : s.Stands ms :=
  play_induction (stands_opening uri text language) (fun _ _ _ _ h hstep => h.stepped hstep) h

/-- Whatever is done to a buffer, by its owner and by the listeners that are called, it is sound after each step and
counts the texts that were set. So it is after every run of scripts, and for each listener on its record; the texts are
those that the scripts set, and those of the listeners that they set off, in this order. -/
theorem sound_throughout (uri text language : String) :
    (∀ (ms : List (Move κ μ)) (s : Scene κ μ), (Scene.opening (ofText uri text language)).play ms = some s →
      s.Stands ms) ∧
    ∀ (depth : Nat) (scripts : List (Script μ)),
      let stage := Stage.follow depth (Stage.start (ofText uri text language)) scripts
      stage.buffer.Sound ∧ ∃ ms s, (Scene.opening (ofText uri text language)).play ms = some s ∧ s.underWay = [] ∧
        stage.Shows s ∧ s.Stands ms ∧
        Stage.Follows depth scripts (Stage.start (ofText uri text language)) ms stage := by
  refine ⟨fun ms s h => Scene.stands_play h, fun depth scripts => ?_⟩
  obtain ⟨ms, s, hplay, hunder, hshows, hfollows⟩ := Stage.exists_play (ofText uri text language) depth scripts
  have hstands := Scene.stands_play hplay
  exact ⟨hshows.1 ▸ hstands.sound, ms, s, hplay, hunder, hshows, hstands, hfollows⟩

/-- A listener that hears of a new text cancels itself and sets a shorter one. The cursor was behind the end of both. -/
theorem sound_throughout_nested :
    let ms : List (Move Unit Mark) :=
      [.act (.subscribe .changed ()), .act (.setCursor ⟨.whole 1, .whole 2⟩), .finish, .act (.setText "a\nb"), .turn,
        .act (.cancel 0), .act (.setText ""), .finish, .leave, .finish]
    ∃ s, (Scene.opening (ofText "u" "ab\ncd" "coq")).play ms = some s ∧ s.Stands ms ∧ s.buffer.version = 2 ∧
      s.buffer.cursor = .zero ∧ s.calls.map (fun t => (t.handle, t.buffer.version)) = [(0, 1)] := by
  intro ms
  exact ⟨_, rfl, (sound_throughout "u" "ab\ncd" "coq").1 ms _ rfl, rfl, rfl, rfl⟩

end Buffer
end CoqConsole
