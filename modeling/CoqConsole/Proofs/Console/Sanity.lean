import CoqConsole.Proofs.Console.Losing
import CoqConsole.Proofs.Line.Counting
import CoqConsole.Proofs.Session.Copying
import CoqConsole.Proofs.Session.Hazards

/-!
# Seats that are in order

At every seat the desk is sound, and whatever is done at one seat leaves the others so. What can go wrong at a seat shows
in its settings, on its line, or in the answers that its line has kept.

* `Console.Sane` : all seats are in order, and sessions have names that are texts;
* `Sane.edit`, `Sane.append`, `Sane.enroll`, `Sane.dismiss` : so it stays;
* `Console.Outset` : where a turn sets out; `Outset.Shows` : how its seat shows the hazards; `Outset.Blamed` : an operation
  fails for some of them only;
* `blamed_withDesk`, `at_withLine` : what is done at the desk of a seat, and on its line.
-/

namespace CoqConsole

/-! ## Sending on a line -/

theorem lineCarrier_send (method : String) (params : Json) (w : Wired) :
    lineCarrier.send method params w =
      match w.running? with
      | some p => .ok { w with host := w.host.deliver p (Line.notification (.text method) params) }
      | none => .error .notRunning := by
  simp only [lineCarrier, Line.notify, Line.run_write]
  cases w.running? <;> rfl

theorem steady_lineCarrier : Desk.Steady lineCarrier := by
  intro method params w w' hsend
  rw [lineCarrier_send] at hsend
  cases hp : w.running? with
  | none =>
    rw [hp] at hsend
    cases hsend
  | some p =>
    rw [hp] at hsend
    cases hsend
    rfl

/-- A message is not taken where there is no process to write to. -/
theorem not_running_of_send {method : String} {params : Json} {w : Wired} {cause : Failure}
    (h : lineCarrier.send method params w = .error cause) : w.isRunning = false ∧ cause = .notRunning := by
  rw [lineCarrier_send] at h
  cases hp : w.running? with
  | none =>
    rw [hp] at h
    cases h
    exact ⟨Option.isSome_eq_false_iff.mpr (Option.isNone_iff_eq_none.mpr hp), rfl⟩
  | some p =>
    rw [hp] at h
    cases h

theorem Wired.isRunning_of_processes {h h' : Host} {l : Line} (hsame : h'.processes = h.processes) :
    Wired.isRunning ⟨h', l⟩ = Wired.isRunning ⟨h, l⟩ := by
  have halive (p : Nat) : h'.isAlive p = h.isAlive p := by
    rw [Host.isAlive, Host.isAlive, Host.process?, Host.process?, hsame]
  unfold isRunning running?
  simp only [halive]

namespace Console

variable {c c' : Console} {k : Nat}

/-! ## Seats in order -/

/-- Every desk is sound, and every registered session has a seat and a name that is a text. -/
structure Sane (c : Console) : Prop where
  desks : ∀ k, (c.desk k).Sound lineCarrier
  named : ∀ entry ∈ c.registry, ∃ s, entry.2.name = .text s
  seated : c.Seated

theorem desk_eq_of_seatAt {j : Nat} (h : c'.seatAt j = c.seatAt j) :
    (c'.desk j).session = (c.desk j).session ∧ (c'.desk j).buffers = (c.desk j).buffers ∧
      (c'.desk j).link.line = (c.desk j).link.line := by
  simp only [desk, wired, h, and_self]

theorem sound_of_seatAt {j : Nat} (hsound : (c.desk j).Sound lineCarrier) (h : c'.seatAt j = c.seatAt j) :
    (c'.desk j).Sound lineCarrier := by
  obtain ⟨hsession, hbuffers, hline⟩ := desk_eq_of_seatAt h
  refine hsound.of_eq hbuffers (by rw [hsession]) (by rw [hsession]) ?_
  show (c'.desk j).link.line.encoding = (c.desk j).link.line.encoding
  rw [hline]

namespace Sane

/-- One seat changed, and is in order again. -/
theorem edit (h : c.Sane) (k : Nat) (hregistry : c'.registry = c.registry) (hseats : c'.seats.length = c.seats.length)
    (hk : (c'.desk k).Sound lineCarrier) (hother : ∀ j ≠ k, c'.seatAt j = c.seatAt j) : c'.Sane where
  desks j := by
    by_cases hj : j = k
    · exact hj ▸ hk
    · exact sound_of_seatAt (h.desks j) (hother j hj)
  named := by
    rw [hregistry]
    exact h.named
  seated entry hentry := by
    rw [hseats]
    exact h.seated entry (hregistry ▸ hentry)

theorem of_seats (h : c.Sane) (hregistry : c'.registry = c.registry) (hseats : c'.seats = c.seats) : c'.Sane := by
  have hseat (j : Nat) : c'.seatAt j = c.seatAt j := by rw [seatAt, hseats, ← seatAt]
  exact h.edit 0 hregistry (congrArg List.length hseats) (sound_of_seatAt (h.desks 0) (hseat 0)) fun j _ => hseat j

/-- A new seat is in order. -/
theorem append (h : c.Sane) {s : Seat} (hs : Desk.Sound lineCarrier ⟨s.session, s.buffers, ⟨c.host, s.line⟩⟩) :
    Sane { c with seats := c.seats ++ [s] } where
  desks j := by
    by_cases hj : j = c.seats.length
    · have hseat : seatAt { c with seats := c.seats ++ [s] } j = s := by rw [seatAt_append, if_pos hj]
      have hdesk : desk { c with seats := c.seats ++ [s] } j = ⟨s.session, s.buffers, ⟨c.host, s.line⟩⟩ := by
        rw [desk, wired, hseat]
      rw [hdesk]
      exact hs
    · exact sound_of_seatAt (h.desks j) (by rw [seatAt_append, if_neg hj])
  named := h.named
  seated entry hentry := by
    rw [List.length_append]
    exact Nat.lt_add_right _ (h.seated entry hentry)

theorem dismiss (h : c.Sane) (name : Json) : (c.dismiss name).Sane := by
  unfold Console.dismiss
  cases name.key with
  | error cause => exact h
  | ok key =>
    exact
      { desks := fun j => sound_of_seatAt (h.desks j) rfl
        named := fun entry hentry => h.named entry (Keyed.mem_erase.mp hentry).1
        seated := fun entry hentry => h.seated entry (Keyed.mem_erase.mp hentry).1 }

theorem enroll (h : c.Sane) (name : String) (hk : k < c.seats.length) : (c.enroll (.text name) k).Sane := by
  obtain ⟨first, hfirst, henroll⟩ : ∃ first, (∃ s, first = .text s) ∧
      c.enroll (.text name) k = { c with registry := Keyed.put (.text name) ⟨first, k⟩ c.registry } := by
    refine ⟨_, ?_, rfl⟩
    cases hget : Keyed.get? (Key.text name) c.registry with
    | none => exact ⟨name, rfl⟩
    | some r => exact h.named _ (Keyed.mem_of_get? hget)
  have hmem {entry : Key × Registration} (hentry : entry ∈ Keyed.put (Key.text name) ⟨first, k⟩ c.registry) :
      entry ∈ c.registry ∨ entry.2 = ⟨first, k⟩ := by
    rcases Keyed.mem_put hentry with hmem | heq
    · exact .inl hmem
    · exact .inr (congrArg Prod.snd heq)
  rw [henroll]
  refine ⟨fun j => sound_of_seatAt (h.desks j) rfl, fun entry hentry => ?_, fun entry hentry => ?_⟩
  · rcases hmem hentry with hin | heq
    · exact h.named entry hin
    · rw [heq]
      exact hfirst
  · rcases hmem hentry with hin | heq
    · exact h.seated entry hin
    · rw [heq]
      exact hk

end Sane

/-- All seats are in order, and there is one of that number. -/
structure At (k : Nat) (c : Console) : Prop extends Sane c where
  there : k < c.seats.length

namespace At

theorem edit (h : c.At k) (hregistry : c'.registry = c.registry) (hseats : c'.seats.length = c.seats.length)
    (hk : (c'.desk k).Sound lineCarrier) (hother : ∀ j ≠ k, c'.seatAt j = c.seatAt j) : c'.At k :=
  ⟨h.toSane.edit k hregistry hseats hk hother, hseats ▸ h.there⟩

theorem editSeat (h : c.At k) {f : Seat → Seat}
    (hf : Desk.Sound lineCarrier ⟨(f (c.seatAt k)).session, (f (c.seatAt k)).buffers, ⟨c.host, (f (c.seatAt k)).line⟩⟩) :
    (c.editSeat k f).At k := by
  refine h.edit rfl (length_editSeat c k f) ?_ fun j hj => by rw [seatAt_editSeat, if_neg fun he => hj he.1]
  have hseat : (c.editSeat k f).seatAt k = f (c.seatAt k) := by rw [seatAt_editSeat, if_pos ⟨rfl, h.there⟩]
  have hdesk : (c.editSeat k f).desk k =
      ⟨(f (c.seatAt k)).session, (f (c.seatAt k)).buffers, ⟨c.host, (f (c.seatAt k)).line⟩⟩ := by
    rw [desk, wired, hseat]
    rfl
  rw [hdesk]
  exact hf

theorem of_host (h : c.At k) (host : Host) : At k { c with host } := ⟨h.toSane.of_seats rfl rfl, h.there⟩

theorem rewire (h : c.At k) {w : Wired} (hw : w.Counts) : (c.rewire k w).At k := by
  have hdesk := h.desks k
  have hedit : (c.editSeat k fun s => { s with line := w.line }).At k :=
    h.editSeat ⟨hdesk.bound.of_eq rfl rfl rfl, hdesk.whole, hw⟩
  exact hedit.of_host w.host

theorem putDesk (h : c.At k) {d : Desk Wired} (hd : d.Sound lineCarrier) : (c.putDesk k d).At k := by
  have hedit : (c.editSeat k fun s => { s with session := d.session, buffers := d.buffers }).At k :=
    h.editSeat ⟨hd.bound.of_eq rfl rfl rfl, hd.whole, (h.desks k).counted⟩
  exact hedit.rewire hd.counted

end At

theorem editSeat_of_le {k : Nat} (h : c.seats.length ≤ k) (f : Seat → Seat) : c.editSeat k f = c := by
  rw [editSeat, List.modify_eq_self h]

namespace Sane

/-- What is done on a line is done at its seat, if there is one. -/
theorem rewire (h : c.Sane) {w : Wired} (hw : w.Counts) : (c.rewire k w).Sane := by
  by_cases hk : k < c.seats.length
  · exact (At.rewire ⟨h, hk⟩ hw).toSane
  · rw [Console.rewire, editSeat_of_le (Nat.not_lt.mp hk)]
    exact h.of_seats rfl rfl

theorem putDesk (h : c.Sane) {d : Desk Wired} (hd : d.Sound lineCarrier) : (c.putDesk k d).Sane := by
  by_cases hk : k < c.seats.length
  · exact (At.putDesk ⟨h, hk⟩ hd).toSane
  · rw [Console.putDesk, editSeat_of_le (Nat.not_lt.mp hk)]
    exact h.rewire hd.counted

end Sane

/-! ## Where hazards show -/

def modeAt (c : Console) (k : Nat) : Except Failure ProofMode := Settings.proofMode (c.seatAt k).session.settings

/-- Where a turn of a call sets out: at its start, or as a wait is over, on the line as it stands then. -/
inductive Outset
  | start
  | wait (w : Wired) (s : Suspended)

namespace Outset

def Answered (o : Outset) (message : Json) : Prop :=
  ∃ w s id, o = .wait w s ∧ id ∈ s.plan.ids ∧ Keyed.get? id w.line.settled = some (.ok message)

/-- The pipe broke while the request of the call was flushed. -/
def Broke (o : Outset) : Prop :=
  ∃ w s id p cleared timeout, o = .wait w s ∧ s.wait = .flush id p cleared timeout ∧ w.isLate s.wait = true

/-- The process that the call asked to terminate may not be killed. -/
def Withstood (o : Outset) : Prop :=
  ∃ w s p result, o = .wait w s ∧ s.plan = .terminating result ∧ w.line.process = some p ∧ w.host.refusesKill p = true

def Shows (o : Outset) (k : Nat) (c : Console) : Hazard → Failure → Prop
  | .mode, cause => c.modeAt k = .error cause
  | .link, cause => (c.wired k).isRunning = false ∧ cause = .notRunning
  | .pipe, cause =>
    ((∃ p message, (c.seatAt k).line.process = some p ∧ c.host.breaks p message = true) ∨ o.Broke) ∧ cause = .brokenPipe
  | .refusal, cause => ∃ method params message, o.Answered message ∧ message.IsOddRefusal ∧
    Line.resultOf method params message = .error cause
  | .display, cause => ∃ method params message value, o.Answered message ∧
    Line.resultOf method params message = .ok value ∧ renderAnswer value = .error cause
  | .file file, cause => ∃ path, c.resolve file = .ok path ∧ c.files.readText path = .error cause
  | .kill, cause => o.Withstood ∧ cause = .notPermitted

/-- All is in order, and if there was a failure the seat shows one of the hazards. -/
abbrev Blamed (o : Outset) (k : Nat) (hazards : List Hazard) {α : Type} (r : Except Failure α) (c : Console) : Prop :=
  CoqConsole.Blamed (At k) (o.Shows k) hazards r c

end Outset

variable {o : Outset}

theorem At.seatAt_putDesk (h : c.At k) (d : Desk Wired) :
    (c.putDesk k d).seatAt k = { c.seatAt k with session := d.session, buffers := d.buffers, line := d.link.line } :=
  (Console.seatAt_putDesk c k d k).trans (if_pos ⟨rfl, h.there⟩)

theorem editSeat_self {f : Seat → Seat} (hf : f (c.seatAt k) = c.seatAt k) : c.editSeat k f = c := by
  have hseats : c.seats.modify k f = c.seats := by
    refine List.ext_getElem? fun j => ?_
    rw [List.getElem?_modify]
    by_cases hj : k = j
    · subst hj
      cases hs : c.seats[k]? with
      | none => rfl
      | some s =>
        rw [seatAt, hs, Option.getD_some] at hf
        simp [hf]
    · simp [hj]
  rw [editSeat, hseats]

/-- A desk that did not change leaves all as it is. -/
theorem putDesk_desk (c : Console) (k : Nat) : c.putDesk k (c.desk k) = c := by
  have hnotices : (c.desk k).session.notices.drop (c.seatAt k).session.notices.length = [] := List.drop_length
  unfold putDesk
  rw [hnotices]
  simp only [List.foldl_nil]
  rw [editSeat_self (k := k) rfl, rewire, editSeat_self (k := k) rfl]
  rfl

theorem shows_putDesk (h : c.At k) {d : Desk Wired} {hazard : Hazard} {cause : Failure}
    (hshows : d.Shows lineCarrier hazard cause) : o.Shows k (c.putDesk k d) hazard cause := by
  have hseat := h.seatAt_putDesk d
  cases hazard with
  | mode =>
    show Settings.proofMode ((c.putDesk k d).seatAt k).session.settings = .error cause
    rw [hseat]
    exact hshows
  | link =>
    obtain ⟨method, params, hsend⟩ := hshows
    obtain ⟨hrunning, hcause⟩ := not_running_of_send hsend
    refine ⟨?_, hcause⟩
    rw [wired, hseat]
    exact (Wired.isRunning_of_processes (grows_records _ _).1).trans hrunning
  | _ => exact hshows.elim

theorem blamed_withDesk_at {α : Type} {op : Desk.Op Wired α} {hazards : List Hazard} (h : c.At k)
    (hop : Desk.Blamed lineCarrier hazards (op.run.run (c.desk k)).1 (op.run.run (c.desk k)).2) :
    o.Blamed k hazards ((withDesk k op).run.run c).1 ((withDesk k op).run.run c).2 := by
  rw [run_withDesk]
  exact ⟨h.putDesk hop.1, fun cause he => (hop.2 cause he).imp fun _ hf => ⟨hf.1, shows_putDesk h hf.2⟩⟩

theorem blamed_withDesk {α : Type} {op : Desk.Op Wired α} {hazards : List Hazard}
    (hop : Ensures (Desk.Sound lineCarrier) op (Desk.Blamed lineCarrier hazards)) :
    Ensures (At k) (withDesk k op) (o.Blamed k hazards) :=
  fun c h => blamed_withDesk_at h (hop (c.desk k) (h.desks k))

/-- What is done on a line leaves it in order. -/
theorem at_withLine {α : Type} {op : Line.Op α} (hop : Ensures Wired.Counts op fun _ => Wired.Counts) :
    Ensures (At k) (withLine k op) fun _ => At k := by
  intro c h
  rw [run_withLine]
  exact h.rewire (hop (c.wired k) (h.desks k).counted)

/-- All is in order, and the session of a seat holds nothing. -/
structure Vacant (k : Nat) (c : Console) : Prop extends At k c where
  vacant : (c.desk k).session.attachments = []

/-- Nor does the session of the seat come to hold anything by it. -/
theorem vacant_withLine {α : Type} {op : Line.Op α} (hop : Ensures Wired.Counts op fun _ => Wired.Counts) :
    Ensures (Vacant k) (withLine k op) fun _ => Vacant k := by
  intro c h
  refine ⟨at_withLine hop c h.toAt, ?_⟩
  rw [run_withLine, (desk_rewire _ _ _ _).1]
  exact h.vacant

end Console
end CoqConsole
