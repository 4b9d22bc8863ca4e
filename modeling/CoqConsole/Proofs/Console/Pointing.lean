import CoqConsole.Proofs.Console.Outcomes
import CoqConsole.Proofs.Console.Shelving
import CoqConsole.Proofs.Session.Mirroring

/-!
# Two ways to point at a place

In continuous mode a file is checked up to a place by a move of the cursor there, or by a request for a check. Both take a
line and a column that are counted from one, and both take numbers below one for one and columns past the end of a line for
its end. A line past the last one is the last one to the cursor, but to the request there is no such line, and what it asks
for is a check up to the beginning of the text.

* `placeAt` : the place of a row and a column in some lines; `toWire_position` : as a position is sent;
* `placeAt_clamped_iff` : when the place on the last line is the place of the row itself;
* `Bound.run_moveCursor_checked`, `run_interpretTo_checked` : what is sent to the server;
* `Console.Points` : a call for a line and a column of an open file; `Points.run_eq` : it does its task there;
* `pointing` : what the two calls send, after every run.
-/

namespace CoqConsole

/-! ## Whole numbers -/

theorem Scalar.max_whole (m n : Int) : Scalar.max (.whole m) (.whole n) = .whole (Max.max m n) := by
  unfold Scalar.max
  rw [lt_whole]
  by_cases h : m < n
  · rw [if_pos (decide_eq_true h), max_eq_right (le_of_lt h)]
  · rw [if_neg (by simpa using h), max_eq_left (not_lt.mp h)]

theorem Scalar.min_whole (m n : Int) : Scalar.min (.whole m) (.whole n) = .whole (Min.min m n) := by
  unfold Scalar.min
  rw [lt_whole]
  by_cases h : n < m
  · rw [if_pos (decide_eq_true h), min_eq_right (le_of_lt h)]
  · rw [if_neg (by simpa using h), min_eq_left (not_lt.mp h)]

theorem Buffer.clampTo_whole (top n : Int) : clampTo top (.whole n) = .whole (max 0 (min n top)) := by
  unfold clampTo
  rw [Scalar.min_whole]
  exact Scalar.max_whole 0 _

/-- A line or a column counted from one as a row or a column counted from zero. -/
theorem Tool.fromOne_whole (n : Int) : Tool.fromOne (.whole n) = .whole ((n - 1).toNat : Int) := by
  show (Scalar.max (.whole n) (.whole 1)).add (-1) = _
  rw [Scalar.max_whole, Scalar.add]
  congr 1
  omega

theorem Tool.position_int (line col : Int) :
    Tool.position (.int line) (.int col) =
      .ok ⟨.whole ((line - 1).toNat : Int), .whole ((col - 1).toNat : Int)⟩ := by
  show Except.ok (Position.mk (fromOne (.whole line)) (fromOne (.whole col))) = _
  rw [fromOne_whole, fromOne_whole]

theorem Encoding.units_take_eq_zero_iff {e : Encoding} {cs : List Char} {k : Nat} :
    e.units (cs.take k) = 0 ↔ k = 0 ∨ cs = [] := by
  cases cs with
  | nil => simp [units]
  | cons c cs =>
    cases k with
    | zero => simp [units]
    | succ k =>
      have hwidth := e.width_pos c
      rw [List.take_succ_cons, units_cons]
      simp
      omega

/-! ## Places -/

/-- The place of a row and a column, as the server is told; the beginning of the text if there is no such row. -/
def placeAt (e : Encoding) (lines : List String) (row col : Nat) : Json :=
  match lines[row]? with
  | some line => Position.wire (.whole row) (e.units (line.toList.take col))
  | none => Position.wire 0 0

theorem toWire_position (e : Encoding) (lines : List String) (row col : Nat) :
    Position.toWire lines ⟨.whole row, .whole col⟩ (.text e.name) = .ok (placeAt e lines row col) := by
  have hline : lineAt? lines row = lines[row]? := by
    rw [lineAt?, if_neg (by omega), Int.toNat_natCast]
  rw [Position.toWire_whole, hline, placeAt, Int.toNat_natCast]
  cases lines[row]? <;> rfl

/-- The cursor goes no further than the last line and the end of it. -/
theorem Buffer.nearest_whole {κ μ : Type} (b : Buffer κ μ) (row col : Nat) :
    b.nearest ⟨.whole row, .whole col⟩ =
      ⟨.whole (min row (b.lines.length - 1) : Nat),
        .whole (min col (b.lines[min row (b.lines.length - 1)]?.getD "").length : Nat)⟩ := by
  have hrow : clampTo (b.lines.length - 1) (.whole row) = .whole (min row (b.lines.length - 1) : Nat) := by
    rw [clampTo_whole]
    congr 1
    omega
  have hline : b.lineOr (.whole (min row (b.lines.length - 1) : Nat)) =
      b.lines[min row (b.lines.length - 1)]?.getD "" := by
    simp only [lineOr, Scalar.index?, Option.bind_some, line?, lineAt?]
    rw [if_neg (by omega), Int.toNat_natCast]
  unfold nearest
  rw [hrow]
  simp only [hline, clampTo_whole]
  congr 2
  omega

/-- A column past the end of a line is at the end of it. -/
theorem placeAt_nearest (e : Encoding) (lines : List String) (row col : Nat) :
    placeAt e lines row (min col (lines[row]?.getD "").length) = placeAt e lines row col := by
  unfold placeAt
  cases lines[row]? with
  | none => rfl
  | some line =>
    simp only [Option.getD_some]
    rw [← String.length_toList, ← List.take_take, List.take_length]

/-- The last line is taken for one past it to no difference only if the text is a single line, and the place on it is its
beginning. -/
theorem placeAt_clamped_iff (e : Encoding) (lines : List String) (row col : Nat) :
    placeAt e lines (min row (lines.length - 1)) col = placeAt e lines row col ↔
      row < lines.length ∨ lines.length ≤ 1 ∧ (col = 0 ∨ lines.headD "" = "") := by
  by_cases hrow : row < lines.length
  · rw [min_eq_left (by omega)]
    simp [hrow]
  · have hnone : lines[row]? = none := List.getElem?_eq_none (by omega)
    rw [min_eq_right (by omega), placeAt, placeAt, hnone]
    simp only [hrow, false_or]
    cases lines with
    | nil => simp
    | cons l ls =>
      cases ls with
      | nil =>
        have hempty : l.toList = [] ↔ l = "" := by simp
        simp [Position.wire, Json.ofScalar, Encoding.units_take_eq_zero_iff, hempty]
      | cons l' ls =>
        simp [Position.wire, Json.ofScalar]
        omega

/-! ## What is sent -/

namespace Desk

variable {d : Desk Wired} {n p : Nat} {e : Encoding}

theorem run_interpretTo_checked (hrunning : d.link.running? = some p) {place : Place} {at' : Json}
    (hplace : place.toWire (d.bufferAt n).lines (d.bufferAt n).cursor (lineCarrier.named d.link) = .ok at') :
    (interpretTo lineCarrier n place).run.run d = (.ok (), d.written p (checkOf (d.bufferAt n) at')) := by
  rw [run_interpretTo, hplace]
  exact run_send_running hrunning _ _

/-- In continuous mode the session also asks for a check up to the cursor. -/
theorem run_follow_of_continuous {L : Type} {carrier : Carrier L} {d : Desk L} (n : Nat)
    (hmode : Settings.proofMode d.session.settings = .ok .continuous) :
    (react carrier n .follow).run.run d =
      (interpretTo carrier n .cursor).run.run
        { d with session := { d.session with active := some (d.bufferAt n).uri } } := by
  simp only [react, run_bind, run_buffer, run_editSession, run_proofMode, hmode]
  rfl

theorem Bound.run_moveCursor_checked (h : d.Bound) (hn : d.Holds n) (hrunning : d.link.running? = some p)
    (hmode : Settings.proofMode d.session.settings = .ok .continuous)
    (hencoding : lineCarrier.named d.link = .text e.name) (row col : Nat) :
    ∃ d', (moveCursor lineCarrier n ⟨.whole row, .whole col⟩).run.run d = (.ok (), d') ∧
      d'.link.host.wire = d.link.host.wire ++
        [(p, checkOf (d.bufferAt n) (placeAt e (d.bufferAt n).lines (min row ((d.bufferAt n).lines.length - 1)) col))] := by
  have hindex : ((d.bufferAt n).nearest ⟨.whole row, .whole col⟩).row.index? =
      some (min row ((d.bufferAt n).lines.length - 1) : Nat) := by
    rw [Buffer.nearest_whole]
    rfl
  let b' : Buffer Reaction Mark := { d.bufferAt n with cursor := (d.bufferAt n).nearest ⟨.whole row, .whole col⟩ }
  have hlt : n < d.buffers.length := by
    obtain ⟨⟨uri, a⟩, hmem, rfl⟩ := hn
    exact h.toFiled.lt_of_mem hmem
  have hat : (d.withBuffer n b').bufferAt n = b' := by rw [bufferAt_withBuffer, if_pos ⟨rfl, hlt⟩]
  let place := placeAt e b'.lines (min row (b'.lines.length - 1)) col
  have hplace : Place.cursor.toWire b'.lines b'.cursor (lineCarrier.named d.link) = .ok place := by
    rw [hencoding, show b'.cursor = _ from Buffer.nearest_whole (d.bufferAt n) row col]
    exact (toWire_position e b'.lines _ _).trans (congrArg _ (placeAt_nearest e b'.lines _ col))
  let moved : Desk Wired :=
    { d.withBuffer n b' with session := { d.session with active := some ((d.withBuffer n b').bufferAt n).uri } }
  have hmoved : moved.bufferAt n = b' := hat
  refine ⟨moved.written p (checkOf (moved.bufferAt n) place), ?_, ?_⟩
  · rw [h.run_moveCursor, Buffer.moveTo_of_index? hindex]
    simp only [if_pos hn]
    rw [run_follow_of_continuous n (show Settings.proofMode (d.withBuffer n b').session.settings = _ from hmode)]
    exact run_interpretTo_checked (d := moved) hrunning (hmoved.symm ▸ hplace)
  · rw [hmoved]
    rfl

end Desk

namespace Console

open Desk (checkOf)

variable {c : Console} {args : Tool.Arguments} {line col : Int} {k n p : Nat} {e : Encoding}

theorem host_stand (c : Console) (n : Nat) (r : Except Failure Turn) : (c.stand n r).host = c.host := by
  rcases r with cause | (text | errand) <;> rfl

theorem wire_putDesk (c : Console) (k : Nat) (d : Desk Wired) : (c.putDesk k d).host.wire = d.link.host.wire := by
  show (List.foldl (fun h n => Host.record h (.notice n)) d.link.host _).wire = _
  rw [records_notices]

theorem looks_awaitView (k : Nat) (timeout room : Json) : Looks (awaitView k timeout room) :=
  .bind .get fun _ => .bind (.lift _) fun _ => .pure _

/-- A call gives a line and a column of a file that is open in a session in continuous mode, whose server runs as a process
and counts in an encoding. -/
structure Points (c : Console) (args : Tool.Arguments) (line col : Int) (k n p : Nat) (e : Encoding) : Prop where
  allowed : Tool.fits ["file", "line"] ["col", "timeout", "max_output", "session"] args = true
  line : Tool.lineArg args = .int line
  col : Tool.colArg args = .int col
  session : c.find? (Tool.sessionArg args) = .ok (some k)
  file : ∃ path, c.resolve (Tool.fileArg args) = .ok path ∧ c.files.exists? path = true ∧
    Keyed.get? path (c.seatAt k).documents = some n
  running : (c.wired k).running? = some p
  mode : Settings.proofMode (c.seatAt k).session.settings = .ok .continuous
  encoding : lineCarrier.named (c.wired k) = .text e.name

namespace Points

theorem ofCall_goto (h : c.Points args line col k n p e) : ∃ timeout room,
    Tool.ofCall "coq_goto" args = .ok (Tool.visiting args (.moveTo (.int line) (.int col) timeout room)) := by
  refine ⟨Tool.timeoutArg args Tool.defaultWait, Tool.roomArg args, ?_⟩
  rw [← h.line, ← h.col]
  show (if Tool.fits _ _ args = true then Tool.ofArguments "coq_goto" args else _) = _
  rw [if_pos h.allowed]
  rfl

/-- What the one tool takes, the other does. -/
theorem ofCall_interpret (h : c.Points args line col k n p e) : ∃ timeout room,
    Tool.ofCall "coq_interpret_to_point" args =
      .ok (Tool.visiting args (.interpret (.int line) (.int col) timeout room)) := by
  have hallowed : Tool.fits ["file"] ["line", "col", "timeout", "max_output", "session"] args = true := by
    have hfits := h.allowed
    simp only [Tool.fits, List.contains_cons, List.contains_nil, Bool.or_false, Bool.and_eq_true, List.all_cons,
      List.all_nil, Bool.and_true, Bool.or_assoc] at hfits ⊢
    exact ⟨hfits.1, hfits.2.1⟩
  refine ⟨Tool.timeoutArg args Tool.defaultWait, Tool.roomArg args, ?_⟩
  rw [← h.line, ← h.col]
  show (if Tool.fits _ _ args = true then Tool.ofArguments "coq_interpret_to_point" args else _) = _
  rw [if_pos hallowed]
  rfl

/-- A task with the file is done there and then. -/
theorem run_eq (h : c.Points args line col k n p e) (task : Task) :
    (run (Tool.visiting args task)).run.run c = (perform k n task).run.run c := by
  obtain ⟨path, hresolve, hexists, hget⟩ := h.file
  have hrunning : (c.wired k).isRunning = true := by rw [Wired.isRunning, h.running, Option.isSome_some]
  show (visit ⟨Tool.fileArg args, Tool.arg args "workdir" .null, Tool.sessionArg args, task⟩).run.run c = _
  simp only [visit, run_bind, run_get, run_lift, hresolve, hexists, h.session, hrunning, run_ite]
  simp only [enter, run_bind, run_get, run_lift, hresolve, hget]
  rfl

/-- The server is asked for a check up to the cursor, which is on the last line if the line is past it. -/
theorem wire_goto (h : c.Points args line col k n p e) (hbound : (c.desk k).Bound) (hn : (c.desk k).Holds n) :
    let b := (c.desk k).bufferAt n
    (c.after (.call "coq_goto" args)).host.wire = c.host.wire ++
      [(p, checkOf b (placeAt e b.lines (min (line - 1).toNat (b.lines.length - 1)) (col - 1).toNat))] := by
  obtain ⟨timeout, room, hcall⟩ := h.ofCall_goto
  obtain ⟨d, hmove, hwire⟩ := hbound.run_moveCursor_checked hn h.running h.mode h.encoding (line - 1).toNat (col - 1).toNat
  have hperform : ((perform k n (.moveTo (.int line) (.int col) timeout room)).run.run c).2 = c.putDesk k d := by
    rw [perform, Tool.position_int, run_bind, run_lift]
    simp only
    rw [run_bind, run_withDesk, hmove]
    have hrest (mode : ProofMode) (other : Console → Op Turn) (hother : ∀ c, Looks (other c)) :
        Looks (if mode = .continuous then awaitView k timeout room else get >>= other) :=
      .ite (looks_awaitView k timeout room) (.bind .get hother)
    exact Looks.bind looks_proofMode (fun mode => hrest mode _ fun _ => .pure _) (c.putDesk k d)
  rw [after_call hcall, host_stand, h.run_eq, hperform]
  exact (wire_putDesk c k d).trans hwire

/-- The server is asked for a check up to the place itself, or up to the beginning if there is no such line. -/
theorem wire_interpret (h : c.Points args line col k n p e) :
    let b := (c.desk k).bufferAt n
    (c.after (.call "coq_interpret_to_point" args)).host.wire = c.host.wire ++
      [(p, checkOf b (placeAt e b.lines (line - 1).toNat (col - 1).toNat))] := by
  obtain ⟨timeout, room, hcall⟩ := h.ofCall_interpret
  let b := (c.desk k).bufferAt n
  let place := placeAt e b.lines (line - 1).toNat (col - 1).toNat
  have hplace : (Place.ofPosition ⟨.whole ((line - 1).toNat : Int), .whole ((col - 1).toNat : Int)⟩).toWire b.lines b.cursor
      (lineCarrier.named (c.desk k).link) = .ok place := by
    rw [show lineCarrier.named (c.desk k).link = .text e.name from h.encoding]
    exact toWire_position e b.lines _ _
  have hsent := Desk.run_interpretTo_checked h.running hplace
  have hperform : ((perform k n (.interpret (.int line) (.int col) timeout room)).run.run c).2 =
      c.putDesk k ((c.desk k).written p (checkOf b place)) := by
    have hpoint : Tool.place (.int line) (.int col) = .ok (.ofPosition _) :=
      congrArg (Except.map Place.ofPosition) (Tool.position_int line col)
    simp only [perform, hpoint, run_bind, run_lift, run_withDesk, hsent]
    exact looks_awaitView k timeout room _
  rw [after_call hcall, host_stand, h.run_eq, hperform]
  exact wire_putDesk c k _

end Points

/-- After every run, a file that is open in a session whose server runs is held by the session. -/
theorem Points.held (hc : c.IsUnused) (hclear : c.host.cwd.IsClear) (es : List Event)
    (h : (c.afterAll es).Points args line col k n p e) :
    ((c.afterAll es).desk k).Bound ∧ ((c.afterAll es).desk k).Holds n := by
  obtain ⟨path, -, -, hget⟩ := h.file
  have hrunning : ((c.afterAll es).wired k).isRunning = true := by rw [Wired.isRunning, h.running, Option.isSome_some]
  have htidy := ordered_afterAll hc.regular (hc.ordered hclear) es
  have hheld := (htidy.agrees k (mem_of_find h.session)).held path n (Keyed.mem_of_get? hget)
  exact ⟨htidy.bound k, hheld.resolve_right (Bool.not_eq_false _ |>.mpr hrunning)⟩

/-! ## Two lines -/

/-- A call with the file and the session that are named would be about a buffer of a seat, as `Points` says. -/
def isPointedAt (c : Console) (session file : Json) (k n p : Nat) (e : Encoding) : Bool :=
  (match c.find? session with
    | .ok found => decide (found = some k)
    | .error _ => false) &&
  (match c.resolve file with
    | .ok path => c.files.exists? path && decide (Keyed.get? path (c.seatAt k).documents = some n)
    | .error _ => false) &&
  decide ((c.wired k).running? = some p) &&
  (match Settings.proofMode (c.seatAt k).session.settings with
    | .ok mode => decide (mode = .continuous)
    | .error _ => false) &&
  (match lineCarrier.named (c.wired k) with
    | .text s => decide (s = e.name)
    | _ => false)

theorem Points.of_isPointedAt (h : c.isPointedAt (Tool.sessionArg args) (Tool.fileArg args) k n p e = true)
    (hallowed : Tool.fits ["file", "line"] ["col", "timeout", "max_output", "session"] args = true)
    (hline : Tool.lineArg args = .int line) (hcol : Tool.colArg args = .int col) : c.Points args line col k n p e := by
  simp only [isPointedAt, Bool.and_eq_true] at h
  obtain ⟨⟨⟨⟨hsession, hfile⟩, hrunning⟩, hmode⟩, hencoding⟩ := h
  refine ⟨hallowed, hline, hcol, ?_, ?_, of_decide_eq_true hrunning, ?_, ?_⟩
  · split at hsession
    · next found hfound => rw [hfound, of_decide_eq_true hsession]
    · cases hsession
  · split at hfile
    · next path hpath =>
      rw [Bool.and_eq_true] at hfile
      exact ⟨path, hpath, hfile.1, of_decide_eq_true hfile.2⟩
    · cases hfile
  · split at hmode
    · next mode hread => rw [hread, of_decide_eq_true hmode]
    · cases hmode
  · split at hencoding
    · next s hnamed => rw [hnamed, of_decide_eq_true hencoding]
    · cases hencoding

def openedPair : List Event :=
  [.store ⟨[(⟨["ws", "A.v"]⟩, Utf8.encode "ab\ncd".toList)], []⟩, starting] ++ welcomed 0 ++
    [.call "coq_open" [("file", .text "/ws/A.v")]]

theorem lines_openedPair : ((quiet.afterAll openedPair).desk 0 |>.bufferAt 0).lines = ["ab", "cd"] := by
  decide +kernel

theorem points_openedPair (line col : Int) : (quiet.afterAll openedPair).Points
    [("file", .text "/ws/A.v"), ("line", .int line), ("col", .int col)] line col 0 0 0 .utf16 := by
  have hpointed : (quiet.afterAll openedPair).isPointedAt (.text Tool.defaultSession) (.text "/ws/A.v") 0 0 0 .utf16 =
      true := by
    decide +kernel
  exact .of_isPointedAt hpointed rfl rfl rfl

/-! ## Every file -/

/-- After every run, both calls ask the server for one check of the open file. They ask for it at the same place exactly
if the line is there or before the first; or if the text is a single line and the place on it is its beginning, as the
cursor goes to the last line and the request to the beginning of the text. -/
theorem pointing (hc : c.IsUnused) (hclear : c.host.cwd.IsClear) (es : List Event)
    (h : (c.afterAll es).Points args line col k n p e) :
    let c' := c.afterAll es
    let b := (c'.desk k).bufferAt n
    let moved := placeAt e b.lines (min (line - 1).toNat (b.lines.length - 1)) (col - 1).toNat
    let asked := placeAt e b.lines (line - 1).toNat (col - 1).toNat
    (c'.after (.call "coq_goto" args)).host.wire = c'.host.wire ++ [(p, checkOf b moved)] ∧
      (c'.after (.call "coq_interpret_to_point" args)).host.wire = c'.host.wire ++ [(p, checkOf b asked)] ∧
      (moved = asked ↔ line ≤ b.lines.length ∨ b.lines.length ≤ 1 ∧ (col ≤ 1 ∨ b.lines.headD "" = "")) := by
  intro c' b moved asked
  obtain ⟨hbound, hholds⟩ := h.held hc hclear es
  refine ⟨h.wire_goto hbound hholds, h.wire_interpret, ?_⟩
  rw [placeAt_clamped_iff]
  cases hlines : b.lines with
  | nil => simp
  | cons l ls =>
    have hrow : (line - 1).toNat < (l :: ls).length ↔ line ≤ (l :: ls).length := by
      rw [List.length_cons]
      omega
    have hcol : (col - 1).toNat = 0 ↔ col ≤ 1 := by omega
    rw [hrow, hcol]

/-- A column past the end of the last line is its end for both. -/
theorem pointing_past_column :
    let c := quiet.afterAll openedPair
    let args : Tool.Arguments := [("file", .text "/ws/A.v"), ("line", .int 2), ("col", .int 9)]
    let b := (c.desk 0).bufferAt 0
    (c.after (.call "coq_goto" args)).host.wire = c.host.wire ++ [(0, checkOf b (Position.wire 1 2))] ∧
      (c.after (.call "coq_interpret_to_point" args)).host.wire = c.host.wire ++ [(0, checkOf b (Position.wire 1 2))] := by
  intro c args b
  obtain ⟨hgoto, hinterpret, -⟩ :=
    pointing (c := quiet) ⟨rfl, rfl, rfl, rfl⟩ quiet_isClear openedPair (points_openedPair 2 9)
  rw [lines_openedPair] at hgoto hinterpret
  exact ⟨hgoto, hinterpret⟩

/-- For the fourth of two lines, the cursor goes to the last, and the request to the beginning of the text. -/
theorem pointing_past_end :
    let c := quiet.afterAll openedPair
    let args : Tool.Arguments := [("file", .text "/ws/A.v"), ("line", .int 4), ("col", .int 1)]
    let b := (c.desk 0).bufferAt 0
    c.Points args 4 1 0 0 0 .utf16 ∧ b.lines = ["ab", "cd"] ∧
      (c.after (.call "coq_goto" args)).host.wire = c.host.wire ++ [(0, checkOf b (Position.wire 1 0))] ∧
      (c.after (.call "coq_interpret_to_point" args)).host.wire = c.host.wire ++ [(0, checkOf b (Position.wire 0 0))] ∧
      Position.wire 1 0 ≠ Position.wire 0 0 := by
  intro c args b
  have hpoints := points_openedPair 4 1
  obtain ⟨hbound, hholds⟩ := Points.held (c := quiet) ⟨rfl, rfl, rfl, rfl⟩ quiet_isClear openedPair hpoints
  have hgoto := hpoints.wire_goto hbound hholds
  have hinterpret := hpoints.wire_interpret
  simp only [lines_openedPair] at hgoto hinterpret
  have hdiffer : Position.wire 1 0 ≠ Position.wire 0 0 := by simp [Position.wire, Json.ofScalar]
  exact ⟨hpoints, lines_openedPair, hgoto, hinterpret, hdiffer⟩

end Console
end CoqConsole
