import CoqConsole.Proofs.Progress

/-!
# Ranges of a text that was cut short

The server names a range of the text as it was sent. When progress arrives the text may be a shorter one, and a place
whose line is gone is taken for the beginning of all. A range whose end is gone while its start is not is then a patch
that ends before it starts; every other range keeps its order.

* `Cell.IsCut` : the end is gone, and the start is still behind the beginning;
* `Cell.locate_le_iff` : the order of two places in the text as it is now;
* `patches_ordered_iff` : so it is with every patch; `patch_inverted` : one that ends before it starts.
-/

namespace CoqConsole

namespace Cell

variable {lines : List String} {start stop : Cell}

theorem le_of_lineAt? {row : Int} {line : String} (h : lineAt? lines row = some line) : 0 ≤ row := by
  unfold lineAt? at h
  split at h
  · cases h
  · omega

/-- The line of the end is gone, and that of the start is not; nor does the start lie at the beginning of the text. -/
def IsCut (lines : List String) (start stop : Cell) : Prop :=
  lineAt? lines stop.row = none ∧
    ∃ line, lineAt? lines start.row = some line ∧ (0 < start.row ∨ 0 < start.col ∧ line ≠ "")

theorem columnOf_eq_zero_iff (e : Encoding) (line : String) (character : Int) :
    columnOf e line.toList character = 0 ↔ character ≤ 0 ∨ line = "" := by
  have hunits : e.units (line.toList.take 0) = 0 := rfl
  have hempty : line.toList.length ≤ 0 ↔ line = "" := by simp
  rw [← Nat.le_zero, columnOf_le_iff, hunits, hempty, Int.natCast_zero]

/-- Two places keep their order in whatever text there is now, unless it was cut between them. -/
theorem locate_le_iff (e : Encoding) (h : start ≤ stop) :
    start.locate e lines ≤ stop.locate e lines ↔ ¬ IsCut lines start stop := by
  unfold IsCut
  cases hstop : lineAt? lines stop.row with
  | none =>
    rw [locate_of_none hstop]
    cases hstart : lineAt? lines start.row with
    | none => simp [locate_of_none hstart]
    | some line =>
      have hrow := le_of_lineAt? hstart
      have hcol := columnOf_eq_zero_iff e line start.col
      have hleft : (⟨start.row, columnOf e line.toList start.col⟩ : Cell) ≤ ⟨0, 0⟩ ↔
          start.row = 0 ∧ columnOf e line.toList start.col = 0 := by
        rw [le_iff]
        simp only
        omega
      rw [locate_of_some hstart, hleft, hcol]
      by_cases hempty : line = ""
      · simp [hempty]
        omega
      · simp [hempty]
        omega
  | some line' =>
    have hrow' := le_of_lineAt? hstop
    simp only [reduceCtorEq, false_and, not_false_eq_true, iff_true]
    rw [locate_of_some hstop, le_iff]
    cases hstart : lineAt? lines start.row with
    -- The start is taken for the beginning of all, and nothing lies before that.
    | none =>
      rw [locate_of_none hstart]
      simp
      omega
    | some line =>
      rw [locate_of_some hstart]
      rcases (le_iff _ _).mp h with hlt | ⟨hsame, hle⟩
      · exact .inl hlt
      · have hline : line = line' := by
          rw [hsame, hstop] at hstart
          exact (Option.some.inj hstart).symm
        subst hline
        exact .inr ⟨hsame, Int.ofNat_le.mpr (columnOf_mono line.toList hle)⟩

end Cell

namespace Progress

/-- The patch of a range that was given in order is in order, unless the text was cut between its ends. -/
theorem Reads.ordered_iff {e : Encoding} {lines : List String} {given : String × Json} {p : Patch}
    (h : Reads e lines given p) {start stop : Cell} (hbounds : Bounds given.2 start stop) (horder : start ≤ stop) :
    p.start ≤ p.stop ↔ ¬ start.IsCut lines stop := by
  obtain ⟨hstart, hstop⟩ := h.eq_locate hbounds
  rw [hstart, hstop]
  exact Cell.locate_le_iff e horder

theorem isProper_single (status : Status) (start stop : Cell) :
    Given.IsProper [(status.name, [rangeOf start stop])] := by
  intro entry hentry
  obtain rfl := List.mem_singleton.mp hentry
  refine ⟨⟨status, rfl⟩, fun range hrange => ?_⟩
  obtain rfl := List.mem_singleton.mp hrange
  exact ⟨start, stop, bounds_rangeOf start stop⟩

/-- Every range that is given in order is painted in order, whatever the text is by now, unless the text was cut between
its ends; and then it is not. -/
theorem patches_ordered_iff {κ : Type} (e : Encoding) (b : Buffer κ Mark) (ns : String) {g : Given} (hg : g.IsProper) :
    ∃ (b' : Buffer κ Mark) (ps qs : List Patch), apply b ns g.wire (.text e.name) = .ok b' ∧
      b'.marksIn ns = ps.map Patch.mark ∧ ps.Perm qs ∧
      List.Forall₂ (fun given p => Reads e b.lines given p ∧ ∀ start stop, Bounds given.2 start stop → start ≤ stop →
        (p.start ≤ p.stop ↔ ¬ start.IsCut b.lines stop)) g.ranges qs := by
  obtain ⟨qs, hreads, happly⟩ := apply_wire e b ns hg
  refine ⟨_, qs.mergeSort fun p q => decide (p ≤ q), qs, happly, b.marksIn_setMarks ns _, List.mergeSort_perm qs _, ?_⟩
  exact hreads.imp fun given p hread => ⟨hread, fun start stop hbounds horder => hread.ordered_iff hbounds horder⟩

/-- Of two ranges on a text of two lines one ends on a third line: it is painted backwards, and the other is not. -/
theorem patches_ordered_iff_third :
    let b : Buffer Unit Mark := Buffer.ofText "u" "ab\ncd" "coq"
    let g : Given := [("checked", [rangeOf ⟨0, 1⟩ ⟨1, 9⟩]), ("sent", [rangeOf ⟨1, 1⟩ ⟨2, 0⟩])]
    g.IsProper ∧ ∃ b' p q, apply b "ns" g.wire (.text "utf-16") = .ok b' ∧
      (b'.marksIn "ns").Perm [Patch.mark p, Patch.mark q] ∧ p.start ≤ p.stop ∧ ¬ q.start ≤ q.stop := by
  intro b g
  have hproper : g.IsProper := by
    intro entry hentry
    rcases List.mem_cons.mp hentry with rfl | hentry
    · exact isProper_single .checked ⟨0, 1⟩ ⟨1, 9⟩ _ List.mem_cons_self
    · exact isProper_single .sent ⟨1, 1⟩ ⟨2, 0⟩ entry hentry
  refine ⟨hproper, ?_⟩
  obtain ⟨b', ps, qs, happly, hmarks, hperm, hall⟩ := patches_ordered_iff .utf16 b "ns" hproper
  cases hall with
  | @cons _ p _ _ hp hall =>
    cases hall with
    | @cons _ q _ _ hq hall =>
      cases hall
      refine ⟨b', p, q, happly, hmarks ▸ hperm.map Patch.mark, ?_, ?_⟩
      · refine (hp.2 _ _ (bounds_rangeOf ⟨0, 1⟩ ⟨1, 9⟩) (by decide)).mpr ?_
        rintro ⟨hgone, -⟩
        cases hgone
      · refine (hq.2 _ _ (bounds_rangeOf ⟨1, 1⟩ ⟨2, 0⟩) (by decide)).not.mpr (not_not.mpr ?_)
        exact ⟨rfl, "cd", rfl, .inl (by decide)⟩

/-- One range alone is painted where its ends are located. -/
theorem apply_single {κ : Type} (e : Encoding) (b : Buffer κ Mark) (ns : String) (status : Status) (start stop : Cell) :
    apply b ns (Given.wire [(status.name, [rangeOf start stop])]) (.text e.name) =
      .ok (b.setMarks ns [Patch.mark ⟨start.locate e b.lines, stop.locate e b.lines, status⟩]) := by
  obtain ⟨qs, hreads, happly⟩ := apply_wire e b ns (isProper_single status start stop)
  obtain rfl := reads_unique hreads (.cons (reads_of_bounds e b.lines status (bounds_rangeOf start stop)) .nil)
  rw [happly, List.mergeSort_singleton]
  rfl

/-- A range from the first line to the second, on a text from which the second is gone: the patch ends before it
starts. -/
theorem patch_inverted :
    let b : Buffer Unit Mark := Buffer.ofText "u" "ab" "coq"
    let start : Cell := ⟨0, 1⟩
    let stop : Cell := ⟨1, 0⟩
    let g : Given := [("checked", [rangeOf start stop])]
    let p : Patch := ⟨⟨0, 1⟩, ⟨0, 0⟩, .checked⟩
    (g.IsProper ∧ 0 ≤ start.row ∧ 0 ≤ start.col ∧ 0 ≤ stop.row ∧ 0 ≤ stop.col ∧ start ≤ stop) ∧
      (∃ b', apply b "ns" g.wire (.text "utf-16") = .ok b' ∧ b'.marksIn "ns" = [p.mark]) ∧ ¬ p.start ≤ p.stop := by
  intro b start stop g p
  have happly := apply_single .utf16 b "ns" .checked start stop
  exact ⟨⟨isProper_single .checked start stop, by decide⟩, ⟨_, happly, b.marksIn_setMarks "ns" _⟩, by decide⟩

end Progress
end CoqConsole
