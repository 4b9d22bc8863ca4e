import CoqConsole.Progress
import CoqConsole.Proofs.Keyed
import CoqConsole.Proofs.Position
import Mathlib.Data.List.Perm.Basic
import Mathlib.Data.List.Sort
import Mathlib.Data.Prod.Lex

/-!
# What progress comes to

Ranges that are given in whole numbers become patches of the text, one for each range. Patches are ordered by where they
start, where they stop and how urgent they are, and that tells any two of them apart; so what is painted depends on
which ranges are given and on nothing else.

* `Cell`, `Cell.locate` : a place in whole numbers, and where a place of the server lies in the text;
* `Bounds`, `Span.ofWire_of_bounds` : a range in whole numbers, and what it is converted to;
* `Patch`, `Patch.key`, `marks_patches` : a patch of the text, its rank among others, and marks in that order;
* `Given`, `Given.IsProper`, `Reads` : ranges by status, and the patch of each of them;
* `apply_wire` : what is given properly is painted, patch by patch; `perm_of_reads` : in whatever order it is given;
* `Buffer.marksIn_setMarks`, `Buffer.setMarks_setMarks` : marks that are set.
-/

namespace CoqConsole

/-! ## Cells -/

/-- A place in whole numbers: a row and a column, or a line and a character as the server counts. -/
@[ext]
structure Cell where
  row : Int
  col : Int
  deriving DecidableEq

namespace Cell

/-- By row, then by column. -/
instance : LinearOrder Cell :=
  LinearOrder.lift' (fun c => toLex (c.row, c.col)) fun c d h => by
    have hpair : (c.row, c.col) = (d.row, d.col) := h
    exact Cell.ext (congrArg Prod.fst hpair) (congrArg Prod.snd hpair)

theorem le_iff (c d : Cell) : c ≤ d ↔ c.row < d.row ∨ c.row = d.row ∧ c.col ≤ d.col :=
  Prod.Lex.toLex_le_toLex

def position (c : Cell) : Position := ⟨.whole c.row, .whole c.col⟩

theorem position_inj {c d : Cell} (h : c.position = d.position) : c = d := by
  unfold position at h
  simp only [Position.mk.injEq, Scalar.whole.injEq] at h
  exact Cell.ext h.1 h.2

theorem eqv_position (c d : Cell) : c.position.eqv d.position = decide (c = d) := by
  rw [Bool.eq_iff_iff, decide_eq_true_iff, Cell.ext_iff]
  simp [Position.eqv, position, Scalar.eqv, Scalar.size, Size.eqv]

theorem le_position (c d : Cell) : c.position.le d.position = decide (c ≤ d) := by
  rw [Bool.eq_iff_iff, decide_eq_true_iff, le_iff]
  simp [Position.le, position, Scalar.lt_whole, Scalar.le_whole, Scalar.eqv, Scalar.size, Size.eqv]

/-- Where a place of the server lies in the text: at the beginning of all if its line is gone. -/
def locate (e : Encoding) (lines : List String) (c : Cell) : Cell :=
  match lineAt? lines c.row with
  | none => ⟨0, 0⟩
  | some line => ⟨c.row, columnOf e line.toList c.col⟩

theorem locate_of_none {e : Encoding} {lines : List String} {c : Cell} (h : lineAt? lines c.row = none) :
    c.locate e lines = ⟨0, 0⟩ := by
  unfold locate
  rw [h]

theorem locate_of_some {e : Encoding} {lines : List String} {c : Cell} {line : String}
    (h : lineAt? lines c.row = some line) : c.locate e lines = ⟨c.row, columnOf e line.toList c.col⟩ := by
  unfold locate
  rw [h]

theorem inText_locate (e : Encoding) {lines : List String} (hlines : lines ≠ []) (c : Cell) :
    InText lines (c.locate e lines).row (c.locate e lines).col := by
  cases hline : lineAt? lines c.row with
  | none =>
    obtain ⟨first, rest, rfl⟩ := List.exists_cons_of_ne_nil hlines
    rw [locate_of_none hline]
    exact ⟨first, rfl, le_rfl, Int.natCast_nonneg _⟩
  | some line =>
    have hend := columnOf_le_length (e := e) line.toList c.col
    rw [String.length_toList] at hend
    rw [locate_of_some hline]
    exact ⟨line, hline, Int.natCast_nonneg _, Int.ofNat_le.mpr hend⟩

/-- The value is the place, as the server writes it. -/
structure IsWritten (c : Cell) (place : Json) : Prop where
  line : place.member "line" = .ok (.int c.row)
  character : place.member "character" = .ok (.int c.col)

theorem IsWritten.ofWire {c : Cell} {place : Json} (h : c.IsWritten place) (e : Encoding) (lines : List String) :
    Position.ofWire lines place (.text e.name) = .ok (c.locate e lines).position := by
  rw [Position.ofWire_of_members h.line h.character]
  unfold locate
  cases lineAt? lines c.row <;> rfl

end Cell

/-- The value is a range between two places, as the server writes it. -/
def Bounds (range : Json) (start stop : Cell) : Prop :=
  ∃ first last, range.member "start" = .ok first ∧ range.member "end" = .ok last ∧
    start.IsWritten first ∧ stop.IsWritten last

def rangeOf (start stop : Cell) : Json :=
  .object [("start", Position.wire start.row start.col), ("end", Position.wire stop.row stop.col)]

theorem bounds_rangeOf (start stop : Cell) : Bounds (rangeOf start stop) start stop :=
  ⟨_, _, rfl, rfl, ⟨rfl, rfl⟩, ⟨rfl, rfl⟩⟩

theorem Span.ofWire_of_bounds {range : Json} {start stop : Cell} (h : Bounds range start stop) (e : Encoding)
    (lines : List String) : ofWire lines range (.text e.name) =
      .ok ⟨(start.locate e lines).position, (stop.locate e lines).position⟩ := by
  obtain ⟨first, last, hfirst, hlast, hstart, hstop⟩ := h
  unfold ofWire
  simp only [hfirst, hlast, bind, Except.bind, hstart.ofWire, hstop.ofWire]
  rfl

theorem Status.rank_inj {s t : Status} (h : s.rank = t.rank) : s = t := by
  cases s <;> cases t <;> simp_all [rank]

theorem Status.name_inj {s t : Status} (h : s.name = t.name) : s = t := by
  cases s <;> cases t <;> simp_all [name]

theorem Status.named_name (s : Status) : named s.name = .ok s := by
  cases s <;> rfl

namespace Progress

/-! ## Patches -/

/-- A part of the text that has come so far. -/
@[ext]
structure Patch where
  start : Cell
  stop : Cell
  status : Status
  deriving DecidableEq

namespace Patch

def region (p : Patch) : Region := ⟨⟨p.start.position, p.stop.position⟩, p.status⟩

def mark (p : Patch) : Mark :=
  ⟨p.start.position, p.stop.position, p.status.style, basePriority + p.status.rank⟩

/-- What patches are sorted by: where they start, where they stop, and the priority of their marks. -/
def key (p : Patch) : Cell ×ₗ Cell ×ₗ Int := toLex (p.start, toLex (p.stop, p.mark.priority))

theorem key_inj {p q : Patch} (h : p.key = q.key) : p = q := by
  have hpair : (p.start, p.stop, p.mark.priority) = (q.start, q.stop, q.mark.priority) := h
  simp only [Prod.mk.injEq, mark, Int.add_right_inj] at hpair
  exact Patch.ext hpair.1 hpair.2.1 (Status.rank_inj hpair.2.2)

instance : LinearOrder Patch := LinearOrder.lift' key fun _ _ => key_inj

theorem le_iff (p q : Patch) : p ≤ q ↔ p.start < q.start ∨ p.start = q.start ∧
    (p.stop < q.stop ∨ p.stop = q.stop ∧ p.status.rank ≤ q.status.rank) := by
  have hkey : p ≤ q ↔ p.key ≤ q.key := Iff.rfl
  have hpriority : p.mark.priority ≤ q.mark.priority ↔ p.status.rank ≤ q.status.rank := by
    show basePriority + _ ≤ basePriority + _ ↔ _
    omega
  rw [hkey, key, key, Prod.Lex.toLex_le_toLex, Prod.Lex.toLex_le_toLex, hpriority]

theorem le_region (p q : Patch) : p.region.le q.region = decide (p ≤ q) := by
  show (if !p.start.position.eqv q.start.position then p.start.position.le q.start.position
    else if !p.stop.position.eqv q.stop.position then p.stop.position.le q.stop.position
    else decide (p.status.rank ≤ q.status.rank)) = _
  rw [Cell.eqv_position, Cell.eqv_position, Cell.le_position, Cell.le_position, Bool.eq_iff_iff, decide_eq_true_iff,
    le_iff]
  by_cases hstart : p.start = q.start
  · by_cases hstop : p.stop = q.stop
    · simp [hstart, hstop]
    · simp [hstart, hstop, le_iff_lt_or_eq]
  · simp [hstart, le_iff_lt_or_eq]

end Patch

/-- The marks of patches are those of the patches in order. -/
theorem marks_patches (ps : List Patch) :
    marks (ps.map Patch.region) = (ps.mergeSort fun p q => decide (p ≤ q)).map Patch.mark := by
  have hsort : (ps.mergeSort fun p q => decide (p ≤ q)).map Patch.region = (ps.map Patch.region).mergeSort Region.le :=
    List.map_mergeSort fun p _ q _ => (Patch.le_region p q).symm
  rw [marks, ← hsort, List.map_map]
  rfl

/-! ## What is given -/

abbrev Given := List (String × List Json)

namespace Given

/-- What is given, as a value is given: under each name a list. -/
def wire (g : Given) : List (String × Json) := g.map fun (name, ranges) => (name, .array ranges)

/-- The ranges, each with the name of its status. -/
def ranges (g : Given) : List (String × Json) := g.flatMap fun (name, ranges) => ranges.map fun range => (name, range)

/-- All names are names of a status, and all ranges are in whole numbers. -/
def IsProper (g : Given) : Prop :=
  ∀ entry ∈ g, (∃ status : Status, status.name = entry.1) ∧ ∀ range ∈ entry.2, ∃ start stop, Bounds range start stop

end Given

/-- The patch of a range under a name: its bounds are converted, and the name is that of its status. -/
structure Reads (e : Encoding) (lines : List String) (given : String × Json) (p : Patch) : Prop where
  status : p.status.name = given.1
  bounds : Span.ofWire lines given.2 (.text e.name) = .ok ⟨p.start.position, p.stop.position⟩

theorem reads_of_bounds (e : Encoding) (lines : List String) (status : Status) {range : Json} {start stop : Cell}
    (h : Bounds range start stop) :
    Reads e lines (status.name, range) ⟨start.locate e lines, stop.locate e lines, status⟩ :=
  ⟨rfl, Span.ofWire_of_bounds h e lines⟩

theorem Reads.eq_locate {e : Encoding} {lines : List String} {given : String × Json} {p : Patch}
    (h : Reads e lines given p) {start stop : Cell} (hbounds : Bounds given.2 start stop) :
    p.start = start.locate e lines ∧ p.stop = stop.locate e lines := by
  have hspan := Except.ok.inj (h.bounds.symm.trans (Span.ofWire_of_bounds hbounds e lines))
  simp only [Span.mk.injEq] at hspan
  exact ⟨Cell.position_inj hspan.1, Cell.position_inj hspan.2⟩

theorem Reads.unique {e : Encoding} {lines : List String} {given : String × Json} {p q : Patch}
    (hp : Reads e lines given p) (hq : Reads e lines given q) : p = q := by
  have hspan := Except.ok.inj (hp.bounds.symm.trans hq.bounds)
  simp only [Span.mk.injEq] at hspan
  exact Patch.ext (Cell.position_inj hspan.1) (Cell.position_inj hspan.2)
    (Status.name_inj (hp.status.trans hq.status.symm))

/-! ## From ranges to patches -/

/-- All ranges of one status can be read. -/
theorem exists_patches_of_status (e : Encoding) (lines : List String) (status : Status) {ranges : List Json}
    (h : ∀ range ∈ ranges, ∃ start stop, Bounds range start stop) :
    ∃ ps : List Patch, List.Forall₂ (Reads e lines) (ranges.map fun range => (status.name, range)) ps ∧
      regionsOf lines (.text e.name) (status.name, .array ranges) = .ok (ps.map Patch.region) := by
  unfold regionsOf
  simp only [status.named_name, Json.elements, bind, Except.bind]
  induction ranges with
  | nil => exact ⟨[], .nil, rfl⟩
  | cons range ranges ih =>
    obtain ⟨start, stop, hbounds⟩ := h range List.mem_cons_self
    obtain ⟨ps, hreads, hregions⟩ := ih fun range hrange => h range (List.mem_cons_of_mem _ hrange)
    refine ⟨_ :: ps, .cons (reads_of_bounds e lines status hbounds) hreads, ?_⟩
    rw [List.mapM_cons, hregions]
    simp only [Span.ofWire_of_bounds hbounds, bind, Except.bind]
    rfl

theorem regions_cons {lines : List String} {encoding : Json} {entry : String × Json} {highlights : List (String × Json)}
    {rs rest : List Region} (hentry : regionsOf lines encoding entry = .ok rs)
    (hrest : regions lines encoding highlights = .ok rest) :
    regions lines encoding (entry :: highlights) = .ok (rs ++ rest) := by
  unfold regions at hrest ⊢
  rw [List.mapM_cons, hentry]
  cases hmap : highlights.mapM (regionsOf lines encoding) with
  | error cause =>
    rw [hmap] at hrest
    cases hrest
  | ok found =>
    rw [hmap] at hrest
    obtain rfl : found.flatten = rest := Except.ok.inj hrest
    rfl

/-- What is given properly can be read, range by range. -/
theorem exists_patches (e : Encoding) (lines : List String) {g : Given} (hg : g.IsProper) :
    ∃ ps : List Patch, List.Forall₂ (Reads e lines) g.ranges ps ∧
      regions lines (.text e.name) g.wire = .ok (ps.map Patch.region) := by
  induction g with
  | nil => exact ⟨[], .nil, rfl⟩
  | cons entry g ih =>
    obtain ⟨name, ranges⟩ := entry
    obtain ⟨⟨status, hname⟩, hranges⟩ := hg _ List.mem_cons_self
    obtain rfl : status.name = name := hname
    obtain ⟨ps, hps, hregion⟩ := exists_patches_of_status e lines status hranges
    obtain ⟨qs, hqs, hregions⟩ := ih fun entry hentry => hg entry (List.mem_cons_of_mem _ hentry)
    refine ⟨ps ++ qs, List.rel_append hps hqs, ?_⟩
    rw [List.map_append]
    exact regions_cons hregion hregions

theorem reads_unique {e : Encoding} {lines : List String} {given : List (String × Json)} {ps qs : List Patch}
    (hps : List.Forall₂ (Reads e lines) given ps) (hqs : List.Forall₂ (Reads e lines) given qs) : ps = qs := by
  induction hps generalizing qs with
  | nil =>
    cases hqs
    rfl
  | cons hread _ ih =>
    cases hqs with
    | cons hread' hrest => rw [hread.unique hread', ih hrest]

/-- Ranges in another order have their patches in another order. -/
theorem perm_of_reads {e : Encoding} {lines : List String} {given given' : List (String × Json)} {ps qs : List Patch}
    (hps : List.Forall₂ (Reads e lines) given ps) (hqs : List.Forall₂ (Reads e lines) given' qs)
    (hperm : given'.Perm given) : qs.Perm ps := by
  obtain ⟨rs, hrs, hmoved⟩ := List.perm_comp_forall₂ hperm hps
  exact reads_unique hrs hqs ▸ hmoved

theorem sort_eq_of_perm {ps qs : List Patch} (h : qs.Perm ps) :
    (qs.mergeSort fun p q => decide (p ≤ q)) = ps.mergeSort fun p q => decide (p ≤ q) :=
  List.Perm.eq_of_pairwise' (List.pairwise_mergeSort' (· ≤ ·) qs) (List.pairwise_mergeSort' (· ≤ ·) ps)
    ((List.mergeSort_perm qs _).trans (h.trans (List.mergeSort_perm ps _).symm))

/-! ## What is painted -/

/-- The marks that are set for what is given properly. -/
theorem apply_wire {κ : Type} (e : Encoding) (b : Buffer κ Mark) (ns : String) {g : Given} (hg : g.IsProper) :
    ∃ ps : List Patch, List.Forall₂ (Reads e b.lines) g.ranges ps ∧
      apply b ns g.wire (.text e.name) =
        .ok (b.setMarks ns ((ps.mergeSort fun p q => decide (p ≤ q)).map Patch.mark)) := by
  obtain ⟨ps, hreads, hregions⟩ := exists_patches e b.lines hg
  refine ⟨ps, hreads, ?_⟩
  unfold apply
  rw [hregions, ← marks_patches]
  rfl

theorem exists_setMarks_of_apply {ns : String} {b b' : Buffer κ Mark} {highlights : List (String × Json)} {encoding : Json}
    (h : apply b ns highlights encoding = .ok b') : ∃ marks, b' = b.setMarks ns marks := by
  unfold apply at h
  cases hregions : regions b.lines encoding highlights with
  | error cause =>
    rw [hregions] at h
    cases h
  | ok found =>
    rw [hregions] at h
    exact ⟨_, (Except.ok.inj h).symm⟩

end Progress

/-! ## Marks that are set -/

namespace Buffer

variable {κ μ : Type} (b : Buffer κ μ) (ns : String) (marks : List μ)

theorem marksIn_setMarks : (b.setMarks ns marks).marksIn ns = marks := by
  unfold setMarks marksIn
  cases marks with
  | nil => simp [Keyed.get?_erase]
  | cons m marks => simp [Keyed.get?_put]

theorem marksIn_setMarks_of_ne {other : String} (h : other ≠ ns) :
    (b.setMarks ns marks).marksIn other = b.marksIn other := by
  unfold setMarks marksIn
  cases marks with
  | nil => simp [Keyed.get?_erase, h]
  | cons m marks => simp [Keyed.get?_put, Ne.symm h]

theorem setMarks_setMarks : (b.setMarks ns marks).setMarks ns marks = b.setMarks ns marks := by
  unfold setMarks
  cases marks with
  | nil => simp [Keyed.erase_erase]
  | cons m marks => simp [Keyed.put_put]

end Buffer
end CoqConsole
