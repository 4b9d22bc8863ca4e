import CoqConsole.Position
import Mathlib.Order.Bounds.Basic
import Mathlib.Tactic.ByContra

/-!
# Columns and units

Units before a column are a sum of widths, each of at least one. A column is the least that passes a number of units, so
the two conversions of a line stand to each other as a floor to an embedding: `columnOf_le_iff`.

* `units_take_lt`, `units_take_le` : more columns have more units;
* `columnOf_le_iff` : a number of units is passed by a column, or it is the end of the line;
* `columnOf_units` : units before a column lead back to it;
* `columnAt_int`, `characterAt_whole`, `Position.ofWire_wire`, `Position.toWire_whole` : what whole numbers come to;
* `passing`, `Converts` : the conversions of a line; `InText`, `OnBoundary`, `Locates` : those of positions in lines;
* `positions_converted` : so it is in every encoding.
-/

namespace CoqConsole

variable {e : Encoding}

/-! ## Units before a column -/

theorem Encoding.width_pos (e : Encoding) (c : Char) : 0 < e.width c := by
  cases e with
  | utf8 => exact c.utf8Size_pos
  | utf16 =>
    show 0 < if 0xffff < c.toNat then 2 else 1
    split <;> omega
  | utf32 => exact Nat.one_pos

theorem Encoding.units_cons (c : Char) (cs : List Char) : e.units (c :: cs) = e.width c + e.units cs := rfl

theorem Encoding.units_append (cs ds : List Char) : e.units (cs ++ ds) = e.units cs + e.units ds := by
  induction cs with
  | nil => exact (Nat.zero_add _).symm
  | cons c cs ih => rw [List.cons_append, units_cons, units_cons, ih, Nat.add_assoc]

theorem units_take_le (cs : List Char) {j k : Nat} (h : j ≤ k) : e.units (cs.take j) ≤ e.units (cs.take k) := by
  obtain ⟨rest, hrest⟩ := List.take_prefix_take_left h (l := cs)
  rw [← hrest, Encoding.units_append]
  exact Nat.le_add_right _ _

theorem units_take_lt {cs : List Char} {j k : Nat} (h : j < k) (hk : k ≤ cs.length) :
    e.units (cs.take j) < e.units (cs.take k) := by
  have hj : j < cs.length := by omega
  have hnext : e.units (cs.take (j + 1)) = e.units (cs.take j) + e.width cs[j] := by
    rw [List.take_add_one, List.getElem?_eq_getElem hj, Encoding.units_append]
    rfl
  have hwidth := e.width_pos cs[j]
  have hrest := units_take_le (e := e) cs (show j + 1 ≤ k from h)
  omega

/-! ## The least column -/

theorem columnOf_le_iff (cs : List Char) (target : Int) (k : Nat) :
    columnOf e cs target ≤ k ↔ target ≤ e.units (cs.take k) ∨ cs.length ≤ k := by
  induction cs generalizing target k with
  | nil => simp [columnOf]
  | cons c cs ih =>
    unfold columnOf
    by_cases htarget : target ≤ 0
    · rw [if_pos htarget]
      exact ⟨fun _ => .inl (by omega), fun _ => Nat.zero_le k⟩
    · rw [if_neg htarget]
      cases k with
      | zero =>
        have hunits : e.units ((c :: cs).take 0) = 0 := rfl
        rw [hunits, List.length_cons]
        omega
      | succ k =>
        have hpassed : target - e.width c ≤ e.units (cs.take k) ↔
            target ≤ (e.width c + e.units (cs.take k) : Nat) := by omega
        rw [Nat.add_le_add_iff_right, ih, List.take_succ_cons, Encoding.units_cons, List.length_cons,
          Nat.add_le_add_iff_right, hpassed]

theorem columnOf_le_length (cs : List Char) (target : Int) : columnOf e cs target ≤ cs.length :=
  (columnOf_le_iff cs target cs.length).mpr (.inr le_rfl)

theorem columnOf_mono (cs : List Char) {m n : Int} (h : m ≤ n) : columnOf e cs m ≤ columnOf e cs n := by
  rw [columnOf_le_iff]
  exact ((columnOf_le_iff cs n _).mp le_rfl).imp_left h.trans

/-- The units before a column lead back to it, and those past the end of a line to its end. -/
theorem columnOf_units (cs : List Char) (k : Nat) : columnOf e cs (e.units (cs.take k)) = min k cs.length := by
  apply le_antisymm
  · refine le_min ((columnOf_le_iff cs _ k).mpr (.inl le_rfl)) (columnOf_le_length cs _)
  · by_contra hlt
    have hshort : columnOf e cs (e.units (cs.take k)) < min k cs.length := not_le.mp hlt
    rcases (columnOf_le_iff cs _ _).mp (le_refl (columnOf e cs (e.units (cs.take k)))) with hpassed | hend
    · have hfewer := units_take_lt (e := e) hshort (min_le_right _ _)
      have hmin := units_take_le (e := e) cs (min_le_left k cs.length)
      omega
    · omega

/-! ## What is computed -/

theorem Encoding.ofJson_name (e : Encoding) : ofJson (.text e.name) = .ok e := by cases e <;> rfl

theorem columnAt_int (e : Encoding) (line : String) (character : Int) :
    columnAt line (.int character) (.text e.name) = .ok (columnOf e line.toList character : Int) := by
  unfold columnAt
  rw [e.ofJson_name]
  rfl

theorem Scalar.le_whole (m n : Int) : Scalar.le (.whole m) (.whole n) = decide (m ≤ n) := by
  rw [Bool.eq_iff_iff, decide_eq_true_iff]
  simp [Scalar.le, Scalar.lt, Scalar.eqv, Scalar.size, Size.lt, Size.eqv]
  omega

theorem Scalar.lt_whole (m n : Int) : Scalar.lt (.whole m) (.whole n) = decide (m < n) := by
  simp [Scalar.lt, Scalar.size, Size.lt]

theorem characterAt_whole (e : Encoding) (line : String) (col : Int) :
    characterAt line (.ok (.whole col)) (.text e.name) = .ok (e.units (line.toList.take col.toNat) : Int) := by
  unfold characterAt
  rw [e.ofJson_name]
  show (if (Scalar.whole col).le 0 then Except.ok 0 else _) = _
  have hle : (Scalar.whole col).le 0 = decide (col ≤ 0) := Scalar.le_whole col 0
  by_cases hcol : col ≤ 0
  · rw [hle, if_pos (by simpa using hcol), Int.toNat_of_nonpos hcol]
    rfl
  · rw [hle, if_neg (by simpa using hcol)]
    rfl

theorem lineAt_whole (lines : List String) (row : Int) : lineAt lines (.whole row) = .ok (lineAt? lines row) := by
  unfold lineAt
  have hzero : Scalar.le 0 (.whole row) = decide (0 ≤ row) := Scalar.le_whole 0 row
  rw [hzero, Scalar.lt_whole, ← Bool.decide_and]
  by_cases hrow : 0 ≤ row ∧ row < lines.length
  · rw [if_pos (decide_eq_true hrow)]
    rfl
  · rw [if_neg (by simpa using hrow)]
    unfold lineAt?
    split
    · rfl
    · rw [List.getElem?_eq_none (by omega)]

theorem Position.ofWire_of_members {lines : List String} {place : Json} {row character : Int}
    (hline : place.member "line" = .ok (.int row)) (hcharacter : place.member "character" = .ok (.int character)) :
    ofWire lines place (.text e.name) =
      .ok (match lineAt? lines row with
        | none => zero
        | some line => ⟨.whole row, .whole (columnOf e line.toList character)⟩) := by
  have hrow : (Json.int row).toScalar = .ok (.whole row) := rfl
  unfold ofWire
  simp only [hline, hrow, hcharacter, lineAt_whole, bind, Except.bind]
  cases lineAt? lines row with
  | none => rfl
  | some line =>
    simp only [columnAt_int]
    rfl

theorem Position.toWire_whole (lines : List String) (row col : Int) :
    toWire lines ⟨.whole row, .whole col⟩ (.text e.name) =
      .ok (match lineAt? lines row with
        | none => wire 0 0
        | some line => wire (.whole row) (e.units (line.toList.take col.toNat))) := by
  show Place.toWire.place lines (.text e.name) (.whole row) (.ok (.whole col)) = _
  unfold Place.toWire.place
  simp only [lineAt_whole, bind, Except.bind]
  cases lineAt? lines row with
  | none => rfl
  | some line =>
    simp only [characterAt_whole]
    rfl

/-! ## A line -/

/-- The columns of a line before which there are at least so many units. -/
def passing (e : Encoding) (line : String) (character : Int) : Set Int :=
  {col | 0 ≤ col ∧ col ≤ line.length ∧
    ∃ n, characterAt line (.ok (.whole col)) (.text e.name) = .ok n ∧ character ≤ n}

/-- How the two conversions of a line stand to each other. -/
structure Converts (e : Encoding) (line : String) : Prop where
  /-- A number of units stands for the first column that passes it, or for the end of the line. -/
  first : ∀ character : Int, ∃ col, columnAt line (.int character) (.text e.name) = .ok col ∧
    (IsLeast (passing e line character) col ∨ passing e line character = ∅ ∧ col = line.length)
  columns : ∀ m n : Int, m ≤ n → ∃ c d, columnAt line (.int m) (.text e.name) = .ok c ∧
    columnAt line (.int n) (.text e.name) = .ok d ∧ c ≤ d
  characters : ∀ c d : Int, c ≤ d → ∃ m n, characterAt line (.ok (.whole c)) (.text e.name) = .ok m ∧
    characterAt line (.ok (.whole d)) (.text e.name) = .ok n ∧ m ≤ n
  /-- The units before a column lead back to it, as far as it is on the line. -/
  back : ∀ col : Int, ∃ n, characterAt line (.ok (.whole col)) (.text e.name) = .ok n ∧
    columnAt line (.int n) (.text e.name) = .ok (max 0 (min col line.length))

theorem mem_passing {line : String} {character col : Int} :
    col ∈ passing e line character ↔
      0 ≤ col ∧ col ≤ line.length ∧ character ≤ e.units (line.toList.take col.toNat) := by
  simp only [passing, Set.mem_ofPred_eq, characterAt_whole, Except.ok.injEq, exists_eq_left']

theorem converts (e : Encoding) (line : String) : Converts e line where
  first character := by
    have hlength : line.toList.length = line.length := String.length_toList
    have hend := columnOf_le_length (e := e) line.toList character
    have hleast : ∀ col ∈ passing e line character, (columnOf e line.toList character : Int) ≤ col := by
      intro col hcol
      obtain ⟨h0, -, hunits⟩ := mem_passing.mp hcol
      have := (columnOf_le_iff line.toList character col.toNat).mpr (.inl hunits)
      omega
    refine ⟨_, columnAt_int e line character, ?_⟩
    by_cases hpassed : character ≤ e.units (line.toList.take (columnOf e line.toList character))
    · refine .inl ⟨mem_passing.mpr ⟨by omega, by omega, hpassed⟩, hleast⟩
    · have hcol : line.toList.length ≤ columnOf e line.toList character :=
        ((columnOf_le_iff _ _ _).mp le_rfl).resolve_left hpassed
      refine .inr ⟨Set.eq_empty_iff_forall_notMem.mpr fun col hmem => hpassed ?_, by omega⟩
      -- No column is left but the end of the line.
      obtain ⟨-, hle, hunits⟩ := mem_passing.mp hmem
      have hsame : col.toNat = columnOf e line.toList character := by
        have := hleast col hmem
        omega
      rwa [hsame] at hunits
  columns m n h := ⟨_, _, columnAt_int e line m, columnAt_int e line n, by
    have := columnOf_mono (e := e) line.toList h
    omega⟩
  characters c d h := ⟨_, _, characterAt_whole e line c, characterAt_whole e line d, by
    have := units_take_le (e := e) line.toList (Int.toNat_le_toNat h)
    omega⟩
  back col := by
    refine ⟨_, characterAt_whole e line col, ?_⟩
    have hlength : line.toList.length = line.length := String.length_toList
    rw [columnAt_int, columnOf_units, hlength]
    congr 1
    omega

/-! ## Positions in lines -/

/-- The position is in the text: at a character of one of the lines, or at its end. -/
def InText (lines : List String) (row col : Int) : Prop :=
  ∃ line, lineAt? lines row = some line ∧ 0 ≤ col ∧ col ≤ line.length

/-- The number of units is that before a column of the line. -/
def OnBoundary (e : Encoding) (lines : List String) (row character : Int) : Prop :=
  ∃ line, lineAt? lines row = some line ∧
    ∃ col : Int, 0 ≤ col ∧ col ≤ line.length ∧ characterAt line (.ok (.whole col)) (.text e.name) = .ok character

/-- How the two conversions of positions in lines stand to each other. -/
structure Locates (e : Encoding) (lines : List String) : Prop where
  /-- A position in the text is found again. -/
  found : ∀ row col : Int, InText lines row col → ∃ place,
    Position.toWire lines ⟨.whole row, .whole col⟩ (.text e.name) = .ok place ∧
      Position.ofWire lines place (.text e.name) = .ok ⟨.whole row, .whole col⟩
  /-- And so is a place between two characters. -/
  named : ∀ row character : Int, OnBoundary e lines row character → ∃ p,
    Position.ofWire lines (Position.wire (.whole row) character) (.text e.name) = .ok p ∧
      Position.toWire lines p (.text e.name) = .ok (Position.wire (.whole row) character)
  /-- Wherever a server points, it is a position in the text. -/
  inside : ∀ (place : Json) (row character : Int), place.member "line" = .ok (.int row) →
    place.member "character" = .ok (.int character) → ∃ row' col' : Int,
    Position.ofWire lines place (.text e.name) = .ok ⟨.whole row', .whole col'⟩ ∧ InText lines row' col'

theorem Position.ofWire_wire (lines : List String) (row character : Int) :
    ofWire lines (wire (.whole row) character) (.text e.name) =
      .ok (match lineAt? lines row with
        | none => zero
        | some line => ⟨.whole row, .whole (columnOf e line.toList character)⟩) :=
  ofWire_of_members rfl rfl

theorem columnOf_units_of_le {line : String} {col : Int} (h0 : 0 ≤ col) (h : col ≤ line.length) :
    (columnOf e line.toList (e.units (line.toList.take col.toNat)) : Int) = col := by
  have hlength : line.toList.length = line.length := String.length_toList
  rw [columnOf_units, hlength]
  omega

theorem locates (e : Encoding) {lines : List String} (hlines : lines ≠ []) : Locates e lines where
  found row col h := by
    obtain ⟨line, hline, h0, hcol⟩ := h
    refine ⟨_, by rw [Position.toWire_whole, hline], ?_⟩
    rw [Position.ofWire_wire, hline]
    simp only [columnOf_units_of_le h0 hcol]
  named row character h := by
    obtain ⟨line, hline, col, h0, hcol, hunits⟩ := h
    rw [characterAt_whole] at hunits
    obtain rfl := Except.ok.inj hunits
    refine ⟨_, by rw [Position.ofWire_wire, hline], ?_⟩
    simp only [columnOf_units_of_le h0 hcol]
    rw [Position.toWire_whole, hline]
  inside place row character hrow hcharacter := by
    rw [Position.ofWire_of_members hrow hcharacter]
    cases hline : lineAt? lines row with
    | none =>
      obtain ⟨first, rest, rfl⟩ := List.exists_cons_of_ne_nil hlines
      exact ⟨0, 0, rfl, first, rfl, le_rfl, Int.natCast_nonneg _⟩
    | some line =>
      have hend := columnOf_le_length (e := e) line.toList character
      rw [String.length_toList] at hend
      exact ⟨row, _, rfl, line, hline, Int.natCast_nonneg _, by omega⟩

/-- In every encoding: units and columns of a line, and places and positions in lines. No text is without lines. -/
theorem positions_converted (e : Encoding) :
    (∀ line, Converts e line) ∧ ∀ lines : List String, lines ≠ [] → Locates e lines :=
  ⟨converts e, fun _ hlines => locates e hlines⟩

/-- A character of two units: the place behind it is found again, and a place in the middle of it is moved there. -/
theorem positions_converted_astral :
    let lines := ["a𝒜b", ""]
    (lines ≠ [] ∧ InText lines 0 2 ∧ OnBoundary .utf16 lines 0 3) ∧
      (∃ place, Position.toWire lines ⟨.whole 0, .whole 2⟩ (.text "utf-16") = .ok place ∧
        Position.ofWire lines place (.text "utf-16") = .ok ⟨.whole 0, .whole 2⟩) ∧
      (∃ p, Position.ofWire lines (Position.wire (.whole 0) 3) (.text "utf-16") = .ok p ∧
        Position.toWire lines p (.text "utf-16") = .ok (Position.wire (.whole 0) 3)) ∧
      Position.ofWire lines (Position.wire (.whole 0) 2) (.text "utf-16") = .ok ⟨.whole 0, .whole 2⟩ := by
  intro lines
  have hlines : lines ≠ [] := by decide
  have htext : InText lines 0 2 := ⟨"a𝒜b", rfl, by decide, by decide⟩
  have hboundary : OnBoundary .utf16 lines 0 3 := ⟨"a𝒜b", rfl, 2, by decide, by decide, rfl⟩
  have hlocates := (positions_converted .utf16).2 lines hlines
  exact ⟨⟨hlines, htext, hboundary⟩, hlocates.found 0 2 htext, hlocates.named 0 3 hboundary, rfl⟩

end CoqConsole
