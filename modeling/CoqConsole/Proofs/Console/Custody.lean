import CoqConsole.Console.Schedule
import CoqConsole.Proofs.Console.Abiding

/-!
# Who looks after a server

A server is looked after by the session that is registered with its seat, or by the one call that starts or stops it.
Within a turn its seat can be out of all hands for a while, as one that is lost.

* `Console.attended` : the seats that somebody looks after;
* `Errand.Fits` : what a call that starts or stops a server waits for;
* `Console.Kept` : every process has one seat, and every seat with a process that runs is looked after or lost;
* `Kept.rewire`, `Kept.append` : a seat changes its process, and a new seat has none;
* `Kept.free`, `Kept.take` : seats change hands; so they do in `Kept.forgo`, `Kept.dismiss`, `Kept.enroll`,
  `Kept.enlist`.
-/

namespace CoqConsole

def Errand.tended (e : Errand) : List Nat := if e.purpose.tends then [e.seat] else []

theorem Errand.mem_tended {e : Errand} {k : Nat} : k ∈ e.tended ↔ e.purpose.tends = true ∧ e.seat = k := by
  unfold tended
  split
  · next htends => rw [List.mem_singleton, htends, eq_comm, and_iff_right rfl]
  · next htends => exact ⟨fun h => absurd h List.not_mem_nil, fun h => absurd h.1 htends⟩

/-- What a call that starts or stops a server waits for. -/
inductive Errand.Fits : Errand → Prop
  | plain {e : Errand} (h : e.IsPlain) : Fits e
  | starting {k id : Nat} {wait : Wait} {params name : Json} {next : Option Visit} {key : Key}
      (hkey : name.key = .ok key) : Fits ⟨k, .line ⟨wait, .greeting id params false⟩, .starting name next⟩
  | failing {k : Nat} {s : Suspended} {cause : Failure} (hresult : s.plan.result? = some .null) :
    Fits ⟨k, .line s, .failing cause⟩
  | stopping {k : Nat} {s : Suspended} {name : Json} (hresult : s.plan.result? = some .null) :
    Fits ⟨k, .line s, .stopping name⟩

theorem Errand.Fits.isPlain {e : Errand} (h : e.Fits) (hpurpose : e.purpose.tends = false) : e.IsPlain := by
  cases h with
  | plain h => exact h
  | starting _ => cases hpurpose
  | failing _ => cases hpurpose
  | stopping _ => cases hpurpose

/-- What a call knows of its process holds as long as the process does not come back to life. -/
theorem Wired.Minds.of_host {w : Wired} {s : Suspended} (h : w.Minds s) {host : Host}
    (hended : ∀ p, w.line.process = some p → w.host.isAlive p = false → host.isAlive p = false) :
    Wired.Minds ⟨host, w.line⟩ s := by
  cases h with
  | request => exact .request
  | greeting => exact .greeting
  | parting htimed => exact .parting htimed
  | leaving hp => exact .leaving hp
  | terminating hp => exact .terminating hp
  | closing hp hdead => exact .closing hp (hended _ hp hdead)

namespace Console

def attended (c : Console) : List Nat :=
  c.registry.map (fun entry => entry.2.seat) ++ c.calls.flatMap fun call => call.2.tended

/-- Every process has one seat, and every seat whose process runs is looked after by one registered session or one
call, unless it is lost. -/
structure Kept (c : Console) (lost : List Nat) : Prop where
  numbered : ∀ k p, (c.seatAt k).line.process = some p → p < c.host.processes.length
  sole : ∀ j k p, (c.seatAt j).line.process = some p → (c.seatAt k).line.process = some p → j = k
  held : ∀ p, c.host.isAlive p = true → ∃ k, (c.seatAt k).line.process = some p
  reached : ∀ k p, (c.seatAt k).line.process = some p → c.host.isAlive p = true → k ∈ c.attended ∨ k ∈ lost
  single : c.attended.Nodup
  seated : ∀ k ∈ c.attended, k < c.seats.length
  gone : ∀ k ∈ lost, k ∉ c.attended ∧ k < c.seats.length
  named : (Keyed.keys c.registry).Nodup
  calls_single : (Keyed.keys c.calls).Nodup
  calls_made : ∀ n ∈ Keyed.keys c.calls, n < c.made
  fits : ∀ call ∈ c.calls, call.2.Fits
  minds : ∀ call ∈ c.calls, ∀ s, call.2.wait = .line s → (c.wired call.2.seat).Minds s
  truthful : ∀ k i cause, (i, .error cause) ∈ (c.seatAt k).line.settled → cause = .lostConnection ∨ cause = .stopped
  filed : c.Filed

variable {c c' : Console} {lost : List Nat} {k : Nat}

theorem seatAt_append (c : Console) (s : Seat) (j : Nat) :
    seatAt { c with seats := c.seats ++ [s] } j = if j = c.seats.length then s else c.seatAt j := by
  unfold seatAt
  rw [List.getElem?_append]
  split
  · next hlt => rw [if_neg (Nat.ne_of_lt hlt)]
  · next hlt =>
    rw [List.getElem?_singleton]
    split
    · next hzero => rw [if_pos (by omega), Option.getD_some]
    · next hzero => rw [if_neg (by omega), List.getElem?_eq_none (Nat.not_lt.mp hlt)]

theorem mem_attended_of_call {call : Nat × Errand} (hcall : call ∈ c.calls) (htends : call.2.purpose.tends = true) :
    call.2.seat ∈ c.attended :=
  List.mem_append_right _ (List.mem_flatMap.mpr ⟨call, hcall, Errand.mem_tended.mpr ⟨htends, rfl⟩⟩)

theorem mem_attended_of_find {name : Json} (h : c.find? name = .ok (some k)) : k ∈ c.attended :=
  List.mem_append_left _ (List.mem_map.mpr (mem_of_find h))

theorem dismiss_eq {name : Json} {key : Key} (hkey : name.key = .ok key) :
    c.dismiss name = { c with registry := Keyed.erase key c.registry } := by
  simp only [Console.dismiss, hkey]

theorem enroll_eq {name : Json} {key : Key} (hkey : name.key = .ok key) (k : Nat) :
    ∃ first, c.enroll name k = { c with registry := Keyed.put key ⟨first, k⟩ c.registry } := by
  simp only [Console.enroll, hkey]
  exact ⟨_, rfl⟩

theorem find_dismiss {name : Json} {found : Option Nat} (h : c.find? name = .ok found) :
    (c.dismiss name).find? name = .ok none := by
  obtain ⟨key, hkey, -⟩ := key_of_find h
  have hnone : Keyed.get? key (Keyed.erase key c.registry) = none :=
    Keyed.get?_eq_none.mpr fun hmem => (Keyed.mem_keys_erase.mp hmem).2 rfl
  rw [dismiss_eq hkey, find?, hkey]
  simp only [Except.map, hnone, Option.map_none]

namespace Kept

theorem isForgiven (h : c.Kept lost) (k i : Nat) (cause : Failure)
    (hmem : (i, .error cause) ∈ (c.seatAt k).line.settled) : Line.isForgiven cause = true := by
  rcases h.truthful k i cause hmem with rfl | rfl <;> rfl

/-- What a call looks after is not lost. -/
theorem not_lost (h : c.Kept lost) {call : Nat × Errand} (hcall : call ∈ c.calls) : ∀ k ∈ call.2.tended, k ∉ lost :=
  fun k hk hlost => (h.gone k hlost).1 (List.mem_append_right _ (List.mem_flatMap.mpr ⟨_, hcall, hk⟩))

/-- A call with a seat in nobody's hands neither starts nor stops a server. -/
theorem isPlain_of_out (h : c.Kept lost) {call : Nat × Errand} (hcall : call ∈ c.calls) (hout : call.2.seat ∉ c.attended) :
    call.2.IsPlain := by
  refine (h.fits call hcall).isPlain ?_
  rw [← Bool.not_eq_true]
  exact fun htends => hout (mem_attended_of_call hcall htends)

theorem isSeated (h : c.Kept lost) : c.Seated := fun entry hentry =>
  h.seated _ (List.mem_append_left _ (List.mem_map.mpr ⟨entry, hentry, rfl⟩))

/-- Where nothing is started or stopped, all stays as it is. -/
theorem abides (h : c.Kept lost) (ha : c.Abides c') : c'.Kept lost := by
  have hattended : c'.attended = c.attended := by rw [attended, attended, ha.registry, ha.calls]
  have hprocess (k : Nat) : (c'.seatAt k).line.process = (c.seatAt k).line.process := (ha.lines k).process
  have halive (p : Nat) : c'.host.isAlive p = true → c.host.isAlive p = true :=
    Host.alive_of_ended ((ha.lines 0).ended p)
  constructor
  case numbered =>
    intro k p hp
    exact Nat.lt_of_lt_of_le (h.numbered k p ((hprocess k).symm.trans hp)) (ha.lines k).count
  case sole =>
    intro j k p hj hk
    exact h.sole j k p ((hprocess j).symm.trans hj) ((hprocess k).symm.trans hk)
  case held =>
    intro p hp
    obtain ⟨k, hk⟩ := h.held p (halive p hp)
    exact ⟨k, (hprocess k).trans hk⟩
  case reached =>
    intro k p hk hp
    rw [hattended]
    exact h.reached k p ((hprocess k).symm.trans hk) (halive p hp)
  case single =>
    rw [hattended]
    exact h.single
  case seated =>
    rw [hattended, ha.seats]
    exact h.seated
  case gone =>
    rw [hattended, ha.seats]
    exact h.gone
  case named =>
    rw [ha.registry]
    exact h.named
  case calls_single =>
    rw [ha.calls]
    exact h.calls_single
  case calls_made =>
    rw [ha.calls, ha.made]
    exact h.calls_made
  case fits =>
    rw [ha.calls]
    exact h.fits
  case minds =>
    rw [ha.calls]
    intro call hcall s hs
    exact (h.minds call hcall s hs).abides (ha.lines _)
  case truthful =>
    intro k i cause hmem
    exact ((ha.lines k).truthful i cause hmem).elim (h.truthful k i cause) fun h => h
  case filed => exact ha.filed

/-- A seat in nobody's hands can be taken for lost. -/
theorem lose (h : c.Kept lost) (hout : k ∉ c.attended) (hlt : k < c.seats.length) : c.Kept (k :: lost) :=
  { h with
    reached := fun j p hj hp => (h.reached j p hj hp).imp_right (List.mem_cons_of_mem _)
    gone := List.forall_mem_cons.mpr ⟨⟨hout, hlt⟩, h.gone⟩ }

/-- A seat whose process has ended is not lost. -/
theorem recover (h : c.Kept (k :: lost))
    (hdead : ∀ p, (c.seatAt k).line.process = some p → c.host.isAlive p = false) : c.Kept lost :=
  { h with
    reached := fun j p hj hp => by
      rcases h.reached j p hj hp with hin | hlost
      · exact .inl hin
      · rcases List.mem_cons.mp hlost with rfl | hlost
        · rw [hdead p hj] at hp
          cases hp
        · exact .inr hlost
    gone := fun j hj => h.gone j (List.mem_cons_of_mem _ hj) }

/-- The processes of the seats once one of them has another line. -/
theorem process_rewire (h : c.Kept (k :: lost)) (w : Wired) (j p : Nat) :
    ((c.rewire k w).seatAt j).line.process = some p ↔
      j = k ∧ w.line.process = some p ∨ j ≠ k ∧ (c.seatAt j).line.process = some p := by
  obtain ⟨-, hlt⟩ := h.gone k List.mem_cons_self
  rw [line_rewire]
  simp only [hlt, and_true]
  split
  · next hj => simp only [hj, true_and, not_true_eq_false, ne_eq, false_and, or_false]
  · next hj => simp only [hj, false_and, ne_eq, not_false_eq_true, true_and, false_or]

/-- The line of a seat that is in nobody's hands lets its process go, once it has ended, or has a new one. -/
theorem rewire (h : c.Kept (k :: lost)) {w : Wired} (hcount : c.host.processes.length ≤ w.host.processes.length)
    (hended : ∀ n, w.line.process ≠ some n → c.host.isAlive n = false → w.host.isAlive n = false)
    (hprocess : ∀ p, w.line.process = some p → c.host.processes.length ≤ p ∧ p < w.host.processes.length)
    (hgone : ∀ p, (c.seatAt k).line.process = some p → w.host.isAlive p = false)
    (htruthful : (c.seatAt k).line.Truthful w.line) : (c.rewire k w).Kept (k :: lost) := by
  obtain ⟨hout, -⟩ := h.gone k List.mem_cons_self
  have hlength : (c.rewire k w).seats.length = c.seats.length := length_editSeat c k _
  -- The new process has a number that no line knows.
  have hnew {j p : Nat} (hj : (c.seatAt j).line.process = some p) : w.line.process ≠ some p := by
    intro hp
    exact Nat.lt_irrefl _ (Nat.lt_of_lt_of_le (h.numbered j p hj) (hprocess p hp).1)
  have halive {p : Nat} (hp : w.host.isAlive p = true) (hne : w.line.process ≠ some p) : c.host.isAlive p = true :=
    Host.alive_of_ended (hended p hne) hp
  exact
    { h with
      numbered := fun j p hp => by
        rcases (h.process_rewire w j p).mp hp with ⟨-, hp⟩ | ⟨-, hp⟩
        · exact (hprocess p hp).2
        · exact Nat.lt_of_lt_of_le (h.numbered j p hp) hcount
      sole := fun i j p hi hj => by
        rcases (h.process_rewire w i p).mp hi with ⟨hik, hi⟩ | ⟨-, hi⟩ <;>
          rcases (h.process_rewire w j p).mp hj with ⟨hjk, hj⟩ | ⟨-, hj⟩
        · rw [hik, hjk]
        · exact absurd hi (hnew hj)
        · exact absurd hj (hnew hi)
        · exact h.sole i j p hi hj
      held := fun p hp => by
        by_cases hne : w.line.process = some p
        · exact ⟨k, (h.process_rewire w k p).mpr (.inl ⟨rfl, hne⟩)⟩
        · obtain ⟨j, hj⟩ := h.held p (halive hp hne)
          refine ⟨j, (h.process_rewire w j p).mpr (.inr ⟨?_, hj⟩)⟩
          rintro rfl
          have hdead := hgone p hj
          rw [show w.host.isAlive p = true from hp] at hdead
          cases hdead
      reached := fun j p hj hp => by
        rcases (h.process_rewire w j p).mp hj with ⟨rfl, -⟩ | ⟨-, hj⟩
        · exact .inr List.mem_cons_self
        · exact h.reached j p hj (halive hp (hnew hj))
      seated := fun j hj => by
        rw [hlength]
        exact h.seated j hj
      gone := fun j hj => by
        rw [hlength]
        exact h.gone j hj
      minds := fun call hcall s hs => by
        by_cases hjk : call.2.seat = k
        · exact Wired.minds_of_not_tends _ ((h.isPlain_of_out hcall (hjk ▸ hout)).plan s hs)
        · have hwired : (c.rewire k w).wired call.2.seat = ⟨w.host, (c.seatAt call.2.seat).line⟩ := by
            rw [wired, line_rewire, if_neg fun hk => hjk hk.1]
            rfl
          rw [hwired]
          exact (h.minds call hcall s hs).of_host fun p hp hdead => hended p (hnew hp) hdead
      truthful := fun j i cause hmem => by
        rw [line_rewire] at hmem
        split at hmem
        · exact (htruthful i cause hmem).elim (h.truthful k i cause) fun h => h
        · exact h.truthful j i cause hmem
      filed := fun j => by
        refine (h.filed j).of_eq ?_ ?_
        · rw [(desk_rewire c k w j).2]
        · rw [(desk_rewire c k w j).1] }

/-- Seats come out of somebody's hands, and are lost until they are in other hands. -/
theorem free (h : c.Kept lost) (registry : List (Key × Registration)) (calls : List (Nat × Errand)) {freed : List Nat}
    (hperm : c.attended.Perm (freed ++ attended { c with registry, calls })) (named : (Keyed.keys registry).Nodup)
    (hcalls : calls.Sublist c.calls) : Kept { c with registry, calls } (freed ++ lost) :=
  have hin {j : Nat} (hj : j ∈ freed ++ attended { c with registry, calls }) : j ∈ c.attended := hperm.mem_iff.mpr hj
  have hnodup := List.nodup_append.mp (hperm.nodup_iff.mp h.single)
  { h with
    reached := fun j p hj hp => by
      rcases h.reached j p hj hp with hmem | hlost
      · rcases List.mem_append.mp (hperm.mem_iff.mp hmem) with hfreed | hmem
        · exact .inr (List.mem_append_left _ hfreed)
        · exact .inl hmem
      · exact .inr (List.mem_append_right _ hlost)
    single := hnodup.2.1
    seated := fun j hj => h.seated j (hin (List.mem_append_right _ hj))
    gone := fun j hj => by
      rcases List.mem_append.mp hj with hfreed | hlost
      · exact ⟨fun hmem => hnodup.2.2 j hfreed j hmem rfl, h.seated j (hin (List.mem_append_left _ hfreed))⟩
      · exact ⟨fun hmem => (h.gone j hlost).1 (hin (List.mem_append_right _ hmem)), (h.gone j hlost).2⟩
    named
    calls_single := h.calls_single.sublist (hcalls.map Prod.fst)
    calls_made := fun n hn => h.calls_made n ((hcalls.map Prod.fst).subset hn)
    fits := fun call hcall => h.fits call (hcalls.subset hcall)
    minds := fun call hcall => h.minds call (hcalls.subset hcall) }

/-- Seats come into somebody's hands. -/
theorem take (h : c.Kept lost) {registry : List (Key × Registration)} {calls : List (Nat × Errand)} {taken : List Nat}
    (htaken : taken ⊆ lost) (hsingle : taken.Nodup)
    (hperm : (attended { c with registry, calls }).Perm (taken ++ c.attended)) (named : (Keyed.keys registry).Nodup)
    (calls_single : (Keyed.keys calls).Nodup) (calls_made : ∀ n ∈ Keyed.keys calls, n < c.made)
    (fits : ∀ call ∈ calls, call.2.Fits)
    (minds : ∀ call ∈ calls, ∀ s, call.2.wait = .line s → (c.wired call.2.seat).Minds s)
    {rest : List Nat} (hrest : ∀ j, j ∈ rest ↔ j ∈ lost ∧ j ∉ taken) : Kept { c with registry, calls } rest :=
  { h with
    reached := fun j p hj hp => by
      by_cases hmem : j ∈ taken
      · exact .inl (hperm.mem_iff.mpr (List.mem_append_left _ hmem))
      · rcases h.reached j p hj hp with hin | hlost
        · exact .inl (hperm.mem_iff.mpr (List.mem_append_right _ hin))
        · exact .inr ((hrest j).mpr ⟨hlost, hmem⟩)
    single := by
      refine hperm.nodup_iff.mpr (List.nodup_append.mpr ⟨hsingle, h.single, fun a ha b hb => ?_⟩)
      rintro rfl
      exact (h.gone a (htaken ha)).1 hb
    seated := fun j hj => by
      rcases List.mem_append.mp (hperm.mem_iff.mp hj) with hmem | hmem
      · exact (h.gone j (htaken hmem)).2
      · exact h.seated j hmem
    gone := fun j hj => by
      obtain ⟨hlost, hout⟩ := (hrest j).mp hj
      refine ⟨fun hmem => ?_, (h.gone j hlost).2⟩
      exact (List.mem_append.mp (hperm.mem_iff.mp hmem)).elim hout (h.gone j hlost).1
    named
    calls_single
    calls_made
    fits
    minds }

/-! ## Changes of hands -/

/-- A call that goes on has its seat in no hands until it waits again. -/
theorem forgo (h : c.Kept lost) {n : Nat} {e : Errand} (hs : Keyed.get? n c.calls = some e) :
    Kept { c with calls := Keyed.erase n c.calls } (e.tended ++ lost) := by
  refine h.free c.registry (Keyed.erase n c.calls) ?_ h.named List.filter_sublist
  have hcalls := (Keyed.perm_erase h.calls_single hs).flatMap_right fun call => call.2.tended
  exact (List.Perm.append_left _ hcalls.symm).trans (List.perm_append_comm_assoc _ _ _)

/-- The seat of a name that is forgotten is in no hands. -/
theorem dismiss (h : c.Kept lost) {name : Json} {found : Option Nat} (hfind : c.find? name = .ok found) :
    (c.dismiss name).Kept (found.toList ++ lost) := by
  obtain ⟨key, hkey, rfl⟩ := key_of_find hfind
  rw [dismiss_eq hkey]
  refine h.free (Keyed.erase key c.registry) c.calls ?_ (Keyed.nodup_erase h.named) (List.Sublist.refl _)
  cases hget : Keyed.get? key c.registry with
  | none =>
    rw [Keyed.erase_of_notMem (Keyed.get?_eq_none.mp hget)]
    exact .refl _
  | some r =>
    have hregistry := (Keyed.perm_erase h.named hget).map fun entry => entry.2.seat
    exact hregistry.symm.append_right _

/-- A name is registered for a seat; whatever seat it was registered for before is in no hands. -/
theorem enroll (h : c.Kept (k :: lost)) (hk : k ∉ lost) {name : Json} {found : Option Nat}
    (hfind : c.find? name = .ok found) : (c.enroll name k).Kept (found.toList ++ lost) := by
  have hdismissed := h.dismiss hfind
  have hout : k ∉ found.toList := by
    intro hmem
    rw [Option.mem_toList.mp hmem] at hfind
    exact (h.gone k List.mem_cons_self).1 (mem_attended_of_find hfind)
  obtain ⟨key, hkey, -⟩ := key_of_find hfind
  obtain ⟨first, henroll⟩ := enroll_eq (c := c) hkey k
  rw [dismiss_eq hkey] at hdismissed
  rw [henroll]
  refine hdismissed.take ?_ (List.nodup_singleton k) ?_ (Keyed.nodup_put _ h.named) h.calls_single
    h.calls_made h.fits h.minds ?_
  · exact List.cons_subset.mpr ⟨List.mem_append_right _ List.mem_cons_self, List.nil_subset _⟩
  · have hput := (Keyed.perm_put key ⟨first, k⟩ h.named).map fun entry => entry.2.seat
    exact hput.append_right _
  · intro j
    rw [List.mem_append, List.mem_append, List.mem_cons, List.mem_singleton]
    constructor
    · rintro (hj | hj)
      · exact ⟨.inl hj, fun e => hout (e ▸ hj)⟩
      · exact ⟨.inr (.inr hj), fun e => hk (e ▸ hj)⟩
    · rintro ⟨hj | rfl | hj, hne⟩
      · exact .inl hj
      · exact absurd rfl hne
      · exact .inr hj

/-- A call waits, with its seat in its hands if it starts or stops a server. -/
theorem enlist {n : Nat} {e : Errand} (h : c.Kept (e.tended ++ lost)) (hout : ∀ k ∈ e.tended, k ∉ lost)
    (hn : n ∉ Keyed.keys c.calls) (hmade : n < c.made) (hfits : e.Fits)
    (hminds : ∀ s, e.wait = .line s → (c.wired e.seat).Minds s) : Kept { c with calls := c.calls ++ [(n, e)] } lost := by
  have hattended : attended { c with calls := c.calls ++ [(n, e)] } = c.attended ++ e.tended := by
    simp [attended, List.flatMap_append]
  have hsingle : e.tended.Nodup := by
    unfold Errand.tended
    split
    · exact List.nodup_singleton _
    · exact List.nodup_nil
  refine h.take (List.subset_append_left _ _) hsingle ?_ h.named
    (Keyed.nodup_append_single h.calls_single hn) (Keyed.forall_keys_append_single h.calls_made hmade)
    (List.forall_mem_append.mpr ⟨h.fits, List.forall_mem_singleton.mpr hfits⟩)
    (List.forall_mem_append.mpr ⟨h.minds, List.forall_mem_singleton.mpr hminds⟩) ?_
  · rw [hattended]
    exact List.perm_append_comm
  · intro j
    rw [List.mem_append]
    constructor
    · exact fun hj => ⟨.inr hj, fun hmem => hout j hmem hj⟩
    · exact fun hj => hj.1.resolve_left hj.2

/-- A new seat has no server yet. -/
theorem append (h : c.Kept lost) {s : Seat} (hprocess : s.line.process = none) (hsettled : s.line.settled = [])
    (hattachments : s.session.attachments = []) :
    Kept { c with seats := c.seats ++ [s] } (c.seats.length :: lost) := by
  have hout : c.seats.length ∉ c.attended := fun hmem => Nat.lt_irrefl _ (h.seated _ hmem)
  have hlength : List.length (c.seats ++ [s]) = c.seats.length + 1 := List.length_append
  have hlast : (c.seatAt c.seats.length).line.process = none := by
    rw [seatAt, List.getElem?_eq_none (Nat.le_refl _)]
    rfl
  have hline (j : Nat) : (seatAt { c with seats := c.seats ++ [s] } j).line.process = (c.seatAt j).line.process := by
    rw [seatAt_append]
    split
    · next hj => rw [hj, hprocess, hlast]
    · rfl
  exact
    { h with
      numbered := fun k p hp => h.numbered k p ((hline k).symm.trans hp)
      sole := fun i j p hi hj => h.sole i j p ((hline i).symm.trans hi) ((hline j).symm.trans hj)
      held := fun p hp => by
        obtain ⟨j, hj⟩ := h.held p hp
        exact ⟨j, (hline j).trans hj⟩
      reached := fun j p hj hp =>
        (h.reached j p ((hline j).symm.trans hj) hp).imp_right (List.mem_cons_of_mem _)
      seated := fun j hj => hlength ▸ Nat.lt_succ_of_lt (h.seated j hj)
      gone := fun j hj => by
        rcases List.mem_cons.mp hj with rfl | hj
        · exact ⟨hout, hlength ▸ Nat.lt_succ_self _⟩
        · exact ⟨(h.gone j hj).1, hlength ▸ Nat.lt_succ_of_lt (h.gone j hj).2⟩
      minds := fun call hcall s' hs => by
        by_cases hnew : call.2.seat = c.seats.length
        · exact Wired.minds_of_not_tends _ ((h.isPlain_of_out hcall (hnew ▸ hout)).plan s' hs)
        · have hwired : wired { c with seats := c.seats ++ [s] } call.2.seat = c.wired call.2.seat := by
            rw [wired, seatAt_append, if_neg hnew]
            rfl
          rw [hwired]
          exact h.minds call hcall s' hs
      truthful := fun j i cause hmem => by
        rw [seatAt_append] at hmem
        split at hmem
        · rw [hsettled] at hmem
          cases hmem
        · exact h.truthful j i cause hmem
      filed := fun j => by
        have hdesk : (desk { c with seats := c.seats ++ [s] } j).session.attachments =
              (if j = c.seats.length then s else c.seatAt j).session.attachments ∧
            (desk { c with seats := c.seats ++ [s] } j).buffers =
              (if j = c.seats.length then s else c.seatAt j).buffers := by
          simp only [desk, seatAt_append, and_self]
        split at hdesk
        · exact .of_empty (hdesk.1.trans hattachments)
        · exact (h.filed j).of_eq (congrArg (List.map Buffer.uri) hdesk.2) hdesk.1 }

end Kept

end Console
end CoqConsole
