import CoqConsole.Text.Lines

/-!
# What cutting a text into lines keeps

Only newlines go, and the carriage returns right before them.

* `length_lines`, `newline_notMem_of_mem_lines` : one line more than there are newlines, and none in a line;
* `without`, `without_join_lines` : a text without some characters, which its lines have together;
* `normal` : a text put together again from its lines;
* `Settled`, `normal_normal_iff`, `lines_normal_iff` : the texts of which cutting a second time drops nothing.
-/

namespace CoqConsole.Text

/-! ## Characters -/

theorem length_splitLines (cs : List Char) : (splitLines cs).length = cs.count '\n' + 1 := by
  induction cs with
  | nil => rfl
  | cons c cs ih =>
    rw [splitLines]
    split
    · next hc => rw [hc, List.length_cons, ih, List.count_cons_self]
    · next hc =>
      rw [List.count_cons_of_ne hc, ← ih]
      cases hsplit : splitLines cs with
      | nil => exact absurd hsplit (splitLines_ne_nil cs)
      | cons line rest => rfl

theorem newline_notMem_of_mem_splitLines {cs line : List Char} (h : line ∈ splitLines cs) : '\n' ∉ line := by
  induction cs generalizing line with
  | nil =>
    rw [List.mem_singleton.mp h]
    exact List.not_mem_nil
  | cons c cs ih =>
    unfold splitLines at h
    split at h
    · rcases List.mem_cons.mp h with rfl | hmem
      · exact List.not_mem_nil
      · exact ih hmem
    · next hc =>
      have hnewline : ¬ '\n' = c := fun heq => hc heq.symm
      split at h
      · rw [List.mem_singleton.mp h]
        simpa using hnewline
      · next first rest hsplit =>
        rcases List.mem_cons.mp h with rfl | hmem
        · have hfirst := ih (hsplit ▸ List.mem_cons_self)
          simpa [hnewline] using hfirst
        · exact ih (hsplit ▸ List.mem_cons_of_mem _ hmem)

theorem flatten_splitLines (cs : List Char) : (splitLines cs).flatten = cs.filter (· ≠ '\n') := by
  induction cs with
  | nil => rfl
  | cons c cs ih =>
    rw [splitLines]
    split
    · next hc => rw [List.flatten_cons, List.nil_append, ih, List.filter_cons_of_neg (by simpa using hc)]
    · next hc =>
      rw [List.filter_cons_of_pos (by simpa using hc), ← ih]
      cases splitLines cs <;> rfl

/-- Of what it is not asked about, carriage returns, nothing is dropped. -/
theorem filter_unifyEnds {p : Char → Bool} (hp : p '\r' = false) (cs : List Char) :
    (unifyEnds cs).filter p = cs.filter p := by
  fun_induction unifyEnds cs with
  | case1 cs ih =>
    have hreturn : ¬ p '\r' = true := by simp [hp]
    rw [List.filter_cons_of_neg hreturn, List.filter_cons, List.filter_cons, ih]
  | case2 c cs _ ih => rw [List.filter_cons, List.filter_cons, ih]
  | case3 => rfl

theorem count_unifyEnds (cs : List Char) : (unifyEnds cs).count '\n' = cs.count '\n' := by
  rw [List.count_eq_length_filter, List.count_eq_length_filter, filter_unifyEnds (by decide)]

theorem joinLines_cons {rest : List (List Char)} (hrest : rest ≠ []) (line : List Char) :
    joinLines (line :: rest) = line ++ '\n' :: joinLines rest := by
  cases rest with
  | nil => exact absurd rfl hrest
  | cons next rest => rfl

theorem joinLines_splitLines (cs : List Char) : joinLines (splitLines cs) = cs := by
  induction cs with
  | nil => rfl
  | cons c cs ih =>
    rw [splitLines]
    split
    · next hc => rw [joinLines_cons (splitLines_ne_nil cs), ih, hc, List.nil_append]
    · cases hsplit : splitLines cs with
      | nil => exact absurd hsplit (splitLines_ne_nil cs)
      | cons line rest =>
        rw [hsplit] at ih
        rw [← ih]
        cases rest <;> rfl

/-! ## Ends of lines -/

/-- Nothing is dropped from a text without a return before a newline. -/
theorem unifyEnds_eq_self_iff {cs : List Char} : unifyEnds cs = cs ↔ ¬ ['\r', '\n'] <:+: cs := by
  fun_induction unifyEnds cs with
  | case1 cs _ =>
    have hends : ['\r', '\n'] <:+: '\r' :: '\n' :: cs := (List.prefix_append ['\r', '\n'] cs).isInfix
    simp [hends]
  | case2 c cs hplain ih =>
    have hfirst : ¬ ['\r', '\n'] <+: c :: cs := by
      rintro ⟨more, hmore⟩
      exact hplain more (List.cons.inj hmore).1.symm (List.cons.inj hmore).2.symm
    rw [List.infix_cons_iff, or_iff_right hfirst, List.cons.injEq, eq_self, true_and, ih]
  | case3 => simp

/-- A newline comes first if one came first before, alone or after a return. -/
theorem newline_prefix_unifyEnds {cs : List Char} :
    ['\n'] <+: unifyEnds cs ↔ ['\n'] <+: cs ∨ ['\r', '\n'] <+: cs := by
  fun_cases unifyEnds cs with
  | case1 cs => simp
  | case2 c cs hplain =>
    have hfirst : ¬ ['\r', '\n'] <+: c :: cs := by
      rintro ⟨more, hmore⟩
      exact hplain more (List.cons.inj hmore).1.symm (List.cons.inj hmore).2.symm
    simp [hfirst, List.cons_prefix_cons]
  | case3 => simp

/-- A return still stands before a newline if two stood there. -/
theorem return_infix_unifyEnds {cs : List Char} :
    ['\r', '\n'] <:+: unifyEnds cs ↔ ['\r', '\r', '\n'] <:+: cs := by
  fun_induction unifyEnds cs with
  | case1 cs ih => simp [List.infix_cons_iff, List.cons_prefix_cons, ih]
  | case2 c cs hplain ih =>
    have hfirst : ¬ (c = '\r' ∧ ['\n'] <+: cs) := by
      rintro ⟨rfl, more, rfl⟩
      exact hplain more rfl rfl
    rw [List.infix_cons_iff, List.infix_cons_iff, ih, List.cons_prefix_cons, List.cons_prefix_cons,
      newline_prefix_unifyEnds]
    grind
  | case3 => simp

/-! ## Texts -/

theorem length_lines (s : String) : (lines s).length = s.toList.count '\n' + 1 := by
  rw [lines, List.length_map, length_splitLines, count_unifyEnds]

theorem newline_notMem_of_mem_lines {text line : String} (h : line ∈ lines text) : '\n' ∉ line.toList := by
  obtain ⟨cs, hcs, rfl⟩ := List.mem_map.mp h
  rw [String.toList_ofList]
  exact newline_notMem_of_mem_splitLines hcs

def without (dropped : List Char) (s : String) : String :=
  String.ofList (s.toList.filter (· ∉ dropped))

theorem without_append (dropped : List Char) (s t : String) :
    without dropped (s ++ t) = without dropped s ++ without dropped t := by
  simp [without]

/-- The lines of a text have all of it but the newlines and what is dropped, which carriage returns have to be. -/
theorem without_join_lines {dropped : List Char} (hreturn : '\r' ∈ dropped) (s : String) :
    without dropped (String.join (lines s)) = without ('\n' :: dropped) s := by
  have hlines : (String.join (lines s)).toList = (unifyEnds s.toList).filter (· ≠ '\n') := by
    rw [String.toList_join, lines, List.flatMap_map, ← flatten_splitLines]
    simp [List.flatMap_id']
  have hends : (unifyEnds s.toList).filter (· ∉ '\n' :: dropped) = s.toList.filter (· ∉ '\n' :: dropped) :=
    filter_unifyEnds (by simp [hreturn]) s.toList
  rw [without, without, hlines, List.filter_filter, ← hends]
  congr 2
  funext c
  simp [Bool.and_comm]

/-! ## Texts from their lines -/

def normal (s : String) : String := unlines (lines s)

theorem toList_normal (s : String) : (normal s).toList = unifyEnds s.toList := by
  rw [normal, unlines, lines, List.map_map, String.toList_ofList]
  simp [Function.comp_def, joinLines_splitLines]

theorem lines_eq_splitLines_normal (s : String) : lines s = (splitLines (normal s).toList).map String.ofList := by
  rw [toList_normal, lines]

/-- No two returns stand before a newline. -/
def Settled (s : String) : Prop := ¬ ['\r', '\r', '\n'] <:+: s.toList

instance (s : String) : Decidable (Settled s) := inferInstanceAs (Decidable (¬ _))

/-- A second time nothing is dropped. -/
theorem normal_normal_iff {s : String} : normal (normal s) = normal s ↔ Settled s := by
  rw [Settled, ← return_infix_unifyEnds, ← unifyEnds_eq_self_iff, ← String.toList_inj, toList_normal, toList_normal]

theorem lines_normal_iff {s : String} : lines (normal s) = lines s ↔ Settled s := by
  rw [← normal_normal_iff]
  refine ⟨congrArg unlines, fun h => ?_⟩
  rw [lines_eq_splitLines_normal, h, ← lines_eq_splitLines_normal]

/-- Where every return became a newline, none is left. -/
theorem return_notMem_universalEnds (cs : List Char) : '\r' ∉ universalEnds cs := by
  fun_induction universalEnds cs with
  | case1 cs ih => simpa using ih
  | case2 c cs _ ih =>
    rw [List.mem_cons, not_or]
    refine ⟨?_, ih⟩
    split
    · decide
    · next hc => exact fun heq => hc heq.symm
  | case3 => exact List.not_mem_nil

theorem settled_of_return_notMem {s : String} (h : '\r' ∉ s.toList) : Settled s :=
  fun hdoubled => h (hdoubled.subset List.mem_cons_self)

end CoqConsole.Text
