import CoqConsole.Proofs.Line.Cleaning
import CoqConsole.Proofs.Line.Sparing

/-!
# Calls that wait on a dead line

Once nothing is read any more, or the server was stopped, no answer can come. Then each call that waits for one has it,
be it a failure, unless its request was given up before: that one is known to nobody, and its call is not woken. A call
whose request is still being flushed has its answer too, and gets it when the request got through.

* `Circuit.lost` : the requests of a run that were given up while they were open;
* `Circuit.Steps`, `steps_after` : what an event leaves known, pending and dead;
* `Circuit.Watched`, `watched_follow` : whoever waits for an answer, the line knows the request, or it is lost;
* `Circuit.halting_after` : a call that stops the server and returns leaves a dead line; `isDead_follow` : it stays so;
* `Wired.HoldsBack` : a live process has not taken what was written to it;
* `Circuit.Relieved`, `waiting_relieved` : what becomes of the calls of a run on a dead line.
-/

namespace CoqConsole

/-! ## Requests that are held back -/

namespace Wired

/-- A live process still holds back what was written to it. -/
def HoldsBack (w : Wired) (p cleared : Nat) : Prop :=
  w.host.isAlive p = true ∧ (w.host.intake p).1 ≠ .closed ∧ (w.host.intake p).2 ≤ cleared

instance (w : Wired) (p cleared : Nat) : Decidable (w.HoldsBack p cleared) := inferInstanceAs (Decidable (_ ∧ _ ∧ _))

/-- A request gets through, or cannot any more, unless a live process holds it back. -/
theorem isOver_or_holdsBack (w : Wired) (i p cleared : Nat) (timeout : Json) :
    (∃ late, w.isOver late (.flush i p cleared timeout) = true) ∨ w.HoldsBack p cleared := by
  by_cases hcleared : cleared < (w.host.intake p).2
  · exact .inl ⟨false, decide_eq_true hcleared⟩
  · by_cases hgone : (!w.host.isAlive p || (w.host.intake p).1 == .closed) = true
    · refine .inl ⟨true, ?_⟩
      show (!decide (cleared < (w.host.intake p).2) && (!w.host.isAlive p || (w.host.intake p).1 == .closed)) = true
      rw [hgone, decide_eq_false hcleared]
      rfl
    · rw [Bool.or_eq_true, Bool.not_eq_true', beq_iff_eq, not_or, Bool.not_eq_false] at hgone
      exact .inr ⟨hgone.1, hgone.2, Nat.not_lt.mp hcleared⟩

end Wired

/-- A wait with a request that no limit ends. -/
def Wait.IsUnlimited (i : Nat) : Wait → Prop
  | .flush id _ _ timeout => id = i ∧ timeout = .null
  | .answer id limit => id = i ∧ limit = .never
  | _ => False

namespace Circuit

variable {c c₁ c' : Circuit} {gone : List Nat} {n : Nat} {r : Except Failure Standing}

/-! ## Requests that are lost -/

/-- The request that an event gives up while it waits for its first answer. -/
def lost? (c : Circuit) : Event → Option Nat
  | .cancel id =>
    (Line.cancelled? id).filter fun i => c.wired.line.pending.contains i && !Keyed.has i c.wired.line.settled
  | _ => none

/-- The requests that are given up in a run while they wait for their first answers. -/
def lost (c : Circuit) : List Event → List Nat
  | [] => []
  | e :: es => (c.lost? e).toList ++ (c.after e).lost es

theorem lost?_cancel {id : Json} {i : Nat} :
    c.lost? (.cancel id) = some i ↔ Line.cancelled? id = some i ∧ c.wired.books.IsOpen i := by
  rw [lost?, Option.filter_eq_some_iff, Bool.and_eq_true, List.contains_iff_mem, Bool.not_eq_true', ← Bool.not_eq_true,
    Keyed.has_eq_true]
  rfl

def Event.starts : Event → Bool
  | .start .. => true
  | _ => false

/-! ## What an event does -/

/-- From one state to the next: all requests that calls wait for are known as before but for the one that was given up,
none has come back, and nothing is pending on a dead line, which stays so unless a server is started. -/
structure Steps (c : Circuit) (e : Event) (c' : Circuit) : Prop where
  known : ∀ i ∈ c'.waited, c'.wired.books.Knows i ∨
    i ∈ c.waited ∧ (c.wired.books.Knows i → c'.wired.books.Knows i ∨ c.lost? e = some i)
  gone : ∀ i < c.wired.books.nextId, c'.wired.books.Knows i → c.wired.books.Knows i
  lost : ∀ i, c.lost? e = some i → ¬ c'.wired.books.Knows i
  quiet : c'.wired.IsDead → c'.wired.line.pending = []
  dead : e.starts = false → c.wired.IsDead → c'.wired.IsDead
  truthful : c.wired.line.Truthful c'.wired.line

/-- The calls of an event that gives up no request wait on, or for what is pending, and all others are spared. -/
theorem steps_of_spared (hbelow : ∀ i ∈ c.waited, i < c.wired.books.nextId) {own : List Nat} {e : Event}
    (hspared : Line.Spared own c.wired.books (e.starts = false ∧ c.wired.IsDead) c'.wired) (hlost : c.lost? e = none)
    (hwaited : ∀ i ∈ c'.waited, i ∈ c'.wired.books.pending ∨ i ∈ c.waited ∧ i ∉ own) : Steps c e c' where
  known i hi := (hwaited i hi).imp Or.inl fun h =>
    ⟨h.1, fun hknown => .inl (hspared.spares.known i h.2 (hbelow i h.1) hknown)⟩
  gone := hspared.spares.gone
  lost i hi := by
    rw [hlost] at hi
    cases hi
  quiet := hspared.quiet
  dead hstarts hdead := hspared.dead ⟨hstarts, hdead⟩
  truthful := hspared.spares.truthful

theorem steps_stand (hbelow : ∀ i ∈ c.waited, i < c.wired.books.nextId) {own : List Nat} {e : Event}
    (hawaits : Line.Awaits own c.wired.books (e.starts = false ∧ c.wired.IsDead) r c₁.wired) (hlost : c.lost? e = none)
    (hwaited : ∀ i ∈ c₁.waited, i ∈ c.waited ∧ i ∉ own) : Steps c e (c₁.stand n r) := by
  have hwired : (c₁.stand n r).wired = c₁.wired := wired_stand c₁ n r
  have hspared : Line.Spared own c.wired.books (e.starts = false ∧ c.wired.IsDead) (c₁.stand n r).wired := by
    rw [hwired]
    exact hawaits.spared
  refine steps_of_spared hbelow hspared hlost fun i hi => ?_
  rw [hwired]
  rcases mem_waited_stand hi with hi | ⟨s, hs, hi⟩
  · exact .inr (hwaited i hi)
  · exact .inl (hawaits.waits s hs i hi)

section Steps

variable (h : Sound c) (hquiet : c.wired.IsDead → c.wired.line.pending = [])
include h hquiet

theorem spared_before (own : List Nat) {dead : Prop} (hdead : dead → c.wired.IsDead) :
    Line.Spared own c.wired.books dead c.wired :=
  ⟨.refl own _, fun i hi => h.fit.below i (h.fit.pending_waited i hi), hquiet, hdead⟩

theorem steps_call {op : Line.Op Standing} {e : Event} (hlost : c.lost? e = none)
    (hop : Ensures (Line.Spared [] c.wired.books (e.starts = false ∧ c.wired.IsDead)) op
      (Line.Awaits [] c.wired.books (e.starts = false ∧ c.wired.IsDead))) : Steps c e (c.call op).2 := by
  rw [call_eq]
  exact steps_stand h.fit.below (hop c.wired (spared_before h hquiet [] And.right)) hlost
    fun i hi => ⟨hi, List.not_mem_nil⟩

/-- What leaves the calls alone and spares all requests. -/
theorem steps_spared {e : Event} (hlost : c.lost? e = none) (hcalls : c'.calls = c.calls)
    (hspared : Line.Spared [] c.wired.books (e.starts = false ∧ c.wired.IsDead) c.wired →
      Line.Spared [] c.wired.books (e.starts = false ∧ c.wired.IsDead) c'.wired) : Steps c e c' := by
  refine steps_of_spared h.fit.below (hspared (spared_before h hquiet [] And.right)) hlost fun i hi => ?_
  rw [waited, hcalls] at hi
  exact .inr ⟨hi, List.not_mem_nil⟩

theorem steps_cancel (id : Json) : Steps c (.cancel id) (c.after (.cancel id)) := by
  have hbooks : (c.after (.cancel id)).wired.books =
      (Line.cancelled? id).elim c.wired.books (Books.drop · c.wired.books) := Line.books_cancel id c.wired
  have hown : ∀ i, Line.cancelled? id = some i →
      i ∈ (Line.cancelled? id).toList ∨ c.wired.books.nextId ≤ i := fun i hi => .inl (Option.mem_toList.mpr hi)
  have hspared : Line.Spared (Line.cancelled? id).toList c.wired.books c.wired.IsDead (c.after (.cancel id)).wired :=
    Line.spared_cancel hown c.wired (spared_before h hquiet _ fun hdead => hdead)
  refine ⟨fun i hi => .inr ⟨hi, fun hknown => ?_⟩, hspared.spares.gone, fun i hi => ?_, hspared.quiet,
    fun _ => hspared.dead, hspared.spares.truthful⟩
  · by_cases hid : Line.cancelled? id = some i
    · -- What is kept stays, so a request that was given up is lost only if it was open.
      by_cases hopen : c.wired.books.IsOpen i
      · exact .inr (lost?_cancel.mpr ⟨hid, hopen⟩)
      · refine .inl (.inr ?_)
        have hsettled : (c.after (.cancel id)).wired.books.settled = c.wired.books.settled := by
          rw [hbooks, hid]
          rfl
        rw [hsettled]
        by_contra hnot
        exact hopen ⟨hknown.resolve_right hnot, hnot⟩
    · refine .inl (hspared.spares.known i (fun hmem => hid (Option.mem_toList.mp hmem)) (h.fit.below i hi) hknown)
  · obtain ⟨hid, hopen⟩ := lost?_cancel.mp hi
    rw [hbooks, hid]
    rintro (hmem | hmem)
    · exact ((List.Nodup.mem_erase_iff h.fit.pending_single).mp hmem).1 rfl
    · exact hopen.2 hmem

theorem steps_resume {s : Suspended} (hs : Keyed.get? n c.calls = some s) (late : Bool) :
    Steps c (.move (.resume n late)) (c.resumed n s late) := by
  have hperm := waited_perm h.calls_single hs
  have hplan : s.ids = s.plan.ids := h.planned (n, s) (Keyed.mem_of_get? hs)
  have hother (i : Nat) (hi : i ∈ waited { c with calls := Keyed.erase n c.calls }) : i ∈ c.waited :=
    hperm.mem_iff.mp (List.mem_append_right _ hi)
  rw [resumed_eq]
  rcases Line.resume_cases late s c.wired with ⟨ending, -, heq⟩ | ⟨id, p, cleared, timeout, limit, hwait, -, -, heq⟩
  · rw [heq]
    have hawaits : Line.Awaits s.ids c.wired.books (false = false ∧ c.wired.IsDead)
        ((Line.conclude ending s.plan).run.run c.wired).1 ((Line.conclude ending s.plan).run.run c.wired).2 :=
      Line.awaits_conclude (fun i hi => hplan ▸ hi) ending c.wired (spared_before h hquiet _ And.right)
    refine steps_stand h.fit.below hawaits rfl fun i hi => ⟨hother i hi, fun hmem => ?_⟩
    exact (List.nodup_append.mp (hperm.nodup_iff.mpr h.fit.single)).2.2 i hmem i hi rfl
  · -- The request got through: its call waits for it as before, and nothing else is changed.
    rw [heq]
    refine steps_of_spared h.fit.below (spared_before h hquiet [] And.right) rfl fun i hi => .inr ⟨?_, List.not_mem_nil⟩
    rcases mem_waited_stand hi with hi | ⟨s', hs', hi⟩
    · exact hother i hi
    · cases hs'
      refine hperm.mem_iff.mp (List.mem_append_left _ ?_)
      rw [Suspended.ids, hwait]
      exact hi

theorem steps_move (m : Move) : Steps c (.move m) (c.apply m) := by
  cases m with
  | wake p => exact steps_spared h hquiet rfl rfl fun h => h.of_eq rfl rfl rfl
  | read =>
    unfold apply
    simp only
    split
    · next w handed hread =>
      have hhand : Steps c (.move .read) (({ c with wired := w } : Circuit).hand handed) := by
        refine steps_spared h hquiet rfl (calls_hand _ handed) fun h => ?_
        have honward := onward_hand c w handed
        have hbooks : (({ c with wired := w } : Circuit).hand handed).wired.books = w.books := by
          cases handed with
          | none => rfl
          | some handed =>
            unfold hand handle
            simp only
            split <;> rfl
        exact (h.read hread).of_eq hbooks honward.process honward.reading
      cases handed <;> exact hhand
    · exact steps_spared h hquiet rfl rfl fun h => h
  | listen p =>
    unfold apply
    simp only
    split
    · next w hlisten =>
      refine steps_spared h hquiet rfl rfl fun h => ?_
      have hbooks := Wired.books_listen hlisten
      obtain ⟨host, listening, rfl, -⟩ := Wired.eq_of_listen hlisten
      exact h.of_eq hbooks rfl rfl
    · exact steps_spared h hquiet rfl rfl fun h => h
  | resume n late =>
    rcases c.resume_cases n late with heq | ⟨s, hs, -, heq⟩
    · rw [heq]
      exact steps_spared h hquiet rfl rfl fun h => h
    · rw [heq]
      exact steps_resume h hquiet hs late

theorem steps_after (e : Event) : Steps c e (c.after e) := by
  cases e with
  | ask method params timeout => exact steps_call h hquiet rfl (Line.awaits_ask method params timeout)
  | start options timeout brief =>
    have hnot (own : List Nat) {w : Wired} :
        Line.Spared own c.wired.books (true = false ∧ c.wired.IsDead) w ↔ Line.Spared own c.wired.books False w :=
      ⟨fun h => ⟨h.spares, h.below, h.quiet, nofun⟩, fun h => ⟨h.spares, h.below, h.quiet, nofun⟩⟩
    refine steps_call h hquiet rfl ((Line.awaits_start options timeout brief).imp (fun _ => (hnot []).mp) fun _ _ h => ?_)
    exact ⟨(hnot []).mpr h.spared, h.waits⟩
  | stop => exact steps_call h hquiet rfl ((Line.closes_stop .null).imp (fun _ h => h) fun _ _ h => h.toAwaits)
  | notify method params =>
    exact steps_spared h hquiet rfl rfl (Line.spared_notify method params c.wired)
  | cancel id => exact steps_cancel h hquiet id
  | move m => exact steps_move h hquiet m
  | act p acts => exact steps_spared h hquiet rfl rfl fun h => h.of_eq rfl rfl rfl
  | tick now => exact steps_spared h hquiet rfl rfl fun h => h.of_eq rfl rfl rfl
  | queue rota => exact steps_spared h hquiet rfl rfl fun h => h

end Steps

/-! ## What a run keeps -/

/-- Whoever waits for an answer, the line knows the request, or it is one of those that are gone; and on a dead line
nothing is pending. -/
structure Watched (c : Circuit) (gone : List Nat) : Prop where
  quiet : c.wired.IsDead → c.wired.line.pending = []
  known : ∀ i ∈ c.waited, i ∈ gone ∨ c.wired.books.Knows i
  gone : ∀ i ∈ gone, i < c.wired.books.nextId ∧ ¬ c.wired.books.Knows i
  truthful : ∀ i cause, (i, .error cause) ∈ c.wired.line.settled → cause = .lostConnection ∨ cause = .stopped

theorem watched_after (h : Sound c) (hwatched : Watched c gone) (e : Event) :
    Watched (c.after e) (gone ++ (c.lost? e).toList) := by
  have hsteps := steps_after h hwatched.quiet e
  have hprogress := progress_after h e
  refine ⟨hsteps.quiet, fun i hi => ?_, fun i hi => ?_, fun i cause hmem => ?_⟩
  · rcases hsteps.known i hi with hknown | ⟨hbefore, hkept⟩
    · exact .inr hknown
    · rcases hwatched.known i hbefore with hgone | hknown
      · exact .inl (List.mem_append_left _ hgone)
      · rcases hkept hknown with hknown | hlost
        · exact .inr hknown
        · exact .inl (List.mem_append_right _ (Option.mem_toList.mpr hlost))
  · rcases List.mem_append.mp hi with hi | hi
    · obtain ⟨hlt, hnot⟩ := hwatched.gone i hi
      exact ⟨Nat.lt_of_lt_of_le hlt hprogress.nextId_le, fun hknown => hnot (hsteps.gone i hlt hknown)⟩
    · have hlost := Option.mem_toList.mp hi
      cases e with
      | cancel id =>
        have hpending := (lost?_cancel.mp hlost).2.1
        have hlt := h.fit.below i (h.fit.pending_waited i hpending)
        exact ⟨Nat.lt_of_lt_of_le hlt hprogress.nextId_le, hsteps.lost i hlost⟩
      | _ => cases hlost
  · rcases hsteps.truthful i cause hmem with hmem | hcause
    · exact hwatched.truthful i cause hmem
    · exact hcause

theorem watched_follow (h : Sound c) (hwatched : Watched c gone) (es : List Event) :
    Watched (c.follow es) (gone ++ c.lost es) := by
  induction es generalizing c gone with
  | nil =>
    rw [lost, List.append_nil]
    exact hwatched
  | cons e es ih =>
    rw [lost, ← List.append_assoc]
    exact ih (progress_after h e).sound (watched_after h hwatched e)

theorem IsFresh.watched (h : c.IsFresh) : Watched c [] := by
  refine ⟨fun _ => h.pending, fun i hi => ?_, fun i hi => (by cases hi), fun i cause hmem => ?_⟩
  · rw [waited, h.calls] at hi
    cases hi
  · rw [h.settled] at hmem
    cases hmem

/-- A dead line stays so until a server is started. -/
theorem isDead_follow (h : Sound c) (hwatched : Watched c gone) (hdead : c.wired.IsDead) {es : List Event}
    (hes : ∀ e ∈ es, e.starts = false) : (c.follow es).wired.IsDead := by
  induction es generalizing c gone with
  | nil => exact hdead
  | cons e es ih =>
    have hsteps := steps_after h hwatched.quiet e
    exact ih (progress_after h e).sound (watched_after h hwatched e) (hsteps.dead (hes e List.mem_cons_self) hdead)
      fun e' he' => hes e' (List.mem_cons_of_mem _ he')

/-! ## Calls that stop the server -/

theorem halting_stand (own : List Nat) {dead : Prop}
    (hcloses : Line.Closes own c.wired.books dead .null r c₁.wired) :
    Stopping (c₁.stand n r) n ∨ ∃ r', (n, r') ∈ (c₁.stand n r).done ∧
      ∀ v, r' = .ok v → (c₁.stand n r).wired.line.process = none := by
  rcases r with cause | (v | s)
  · exact .inr ⟨.error cause, List.mem_append_right _ (List.mem_singleton.mpr rfl), nofun⟩
  · exact .inr ⟨.ok v, List.mem_append_right _ (List.mem_singleton.mpr rfl), fun _ _ => hcloses.ends v rfl⟩
  · exact .inl ⟨s, List.mem_append_right _ (List.mem_singleton.mpr rfl), hcloses.goes s rfl⟩

/-- A call that stops the server goes on to do so, or ends; if it returns, there is no process. -/
theorem halting_after (h : Sound c) (hwatched : Watched c gone) {e : Event} (hn : Stopping c n ∨ c.stop? e = some n) :
    Stopping (c.after e) n ∨ ∃ r, (n, r) ∈ (c.after e).done ∧ ∀ v, r = .ok v → (c.after e).wired.line.process = none := by
  have hspared (own : List Nat) : Line.Spared own c.wired.books False c.wired :=
    spared_before h hwatched.quiet own nofun
  rcases hn with ⟨s, hcall, hresult⟩ | hstop
  · rcases (progress_after h e).calls _ hcall with hcall' | ⟨late, -, heq⟩
    · exact .inl ⟨s, hcall', hresult⟩
    · rw [heq, resumed_eq]
      rcases Line.resume_cases late s c.wired with ⟨ending, -, hrun⟩ | ⟨_, _, _, _, _, -, -, -, hrun⟩
      · rw [hrun]
        exact halting_stand s.plan.ids (Line.closes_conclude .null hresult (fun _ hi => hi) ending c.wired (hspared _))
      · rw [hrun]
        exact .inl ⟨_, List.mem_append_right _ (List.mem_singleton.mpr rfl), hresult⟩
  · cases e with
    | stop =>
      cases hstop
      rw [after, call_eq]
      exact halting_stand [] (Line.closes_stop .null c.wired (hspared _))
    | _ => cases hstop

theorem halting_follow (h : Sound c) (hwatched : Watched c gone) {es : List Event}
    (hn : Stopping c n ∨ n ∈ Keyed.keys c.done ∨ n ∈ c.stops es) :
    Stopping (c.follow es) n ∨ n ∈ Keyed.keys (c.follow es).done := by
  induction es generalizing c gone with
  | nil =>
    rcases hn with hn | hn | hn
    · exact .inl hn
    · exact .inr hn
    · cases hn
  | cons e es ih =>
    have hprogress := progress_after h e
    refine ih hprogress.sound (watched_after h hwatched e) ?_
    have hhalting (hn : Stopping c n ∨ c.stop? e = some n) :
        Stopping (c.after e) n ∨ n ∈ Keyed.keys (c.after e).done ∨ n ∈ (c.after e).stops es := by
      rcases halting_after h hwatched hn with hn | ⟨r, hr, -⟩
      · exact .inl hn
      · exact .inr (.inl (List.mem_map.mpr ⟨_, hr, rfl⟩))
    rcases hn with hn | hn | hn
    · exact hhalting (.inl hn)
    · obtain ⟨entry, hentry, rfl⟩ := List.mem_map.mp hn
      exact .inr (.inl (List.mem_map.mpr ⟨entry, hprogress.done entry hentry, rfl⟩))
    · rcases List.mem_append.mp hn with hn | hn
      · exact hhalting (.inr (Option.mem_toList.mp hn))
      · exact .inr (.inr hn)

/-- Whatever else is under way, a call that stops the server and returns leaves the line without a process. -/
theorem process_of_stopped (hc : c.IsFresh) (before : List Event) (e : Event) {v : Json}
    (hn : n ∈ c.stops (before ++ [e])) (hunder : n ∉ Keyed.keys (c.follow before).done)
    (hv : (n, .ok v) ∈ (c.follow (before ++ [e])).done) : (c.follow (before ++ [e])).wired.line.process = none := by
  have hsound := sound_follow hc.sound before
  have hwatched := watched_follow hc.sound hc.watched before
  have hhalting : Stopping (c.follow before) n ∨ (c.follow before).stop? e = some n := by
    rw [stops_append] at hn
    rcases List.mem_append.mp hn with hn | hn
    · exact .inl ((halting_follow hc.sound hc.watched (.inr (.inr hn))).resolve_right hunder)
    · rw [stops, stops, List.append_nil] at hn
      exact .inr (Option.mem_toList.mp hn)
  have hafter : c.follow (before ++ [e]) = (c.follow before).after e := follow_append c before [e]
  rw [hafter] at hv ⊢
  have hsound' := (progress_after hsound e).sound
  rcases halting_after hsound hwatched hhalting with ⟨s, hcall, -⟩ | ⟨r, hr, hprocess⟩
  · exact absurd hcall (hsound'.notMem_calls hv s)
  · exact hprocess v (hsound'.eq_of_done hr hv)

/-! ## Calls on a dead line -/

/-- Whoever asks or tells the server something fails at once. Nothing is left of it but a number that is used up. -/
structure Refuses (w : Wired) : Prop where
  request : ∀ method params timeout, (Line.post method params timeout).run.run w =
    (.error .notRunning, { w with line := { w.line with nextId := w.line.nextId + 1 } })
  notification : ∀ method params, (Line.notify method params).run.run w = (.error .notRunning, w)

theorem refuses_of_isDead (h : Sound c) (hdead : c.wired.IsDead) : Refuses c.wired where
  request method params timeout := by
    have hfresh : c.wired.line.nextId ∉ c.waited := fun hmem => Nat.lt_irrefl _ (h.fit.below _ hmem)
    have hnew : c.wired.line.nextId ∉ c.wired.line.pending := fun hmem => hfresh (h.fit.pending_waited _ hmem)
    have hpending : (c.wired.line.pending ++ [c.wired.line.nextId]).erase c.wired.line.nextId = c.wired.line.pending := by
      rw [List.erase_append_right _ hnew, List.erase_cons_head, List.append_nil]
    have hsettled : Keyed.erase c.wired.line.nextId c.wired.line.settled = c.wired.line.settled :=
      Keyed.erase_of_notMem fun hmem => hfresh (h.fit.settled_waited _ hmem)
    have hissued : (Line.issued c.wired).running? = none := hdead.not_running
    have hforget : ((Line.forget c.wired.line.nextId).run.run (Line.issued c.wired)).2 =
        { c.wired with line := { c.wired.line with
          nextId := c.wired.line.nextId + 1
          pending := (c.wired.line.pending ++ [c.wired.line.nextId]).erase c.wired.line.nextId
          settled := Keyed.erase c.wired.line.nextId c.wired.line.settled } } := rfl
    rw [Line.run_post, Line.transmit_of_not_running _ _ _ _ hissued]
    simp only [hforget, hpending, hsettled]
  notification method params := by
    rw [Line.notify, Line.run_write, hdead.not_running]

/-- A wait whose answer is there is over, if not by its answer then by its limit. -/
theorem exists_isOver {w : Wired} {i : Nat} {limit : Limit} (h : Keyed.has i w.line.settled = true) :
    ∃ late, w.isOver late (.answer i limit) = true := by
  cases limit with
  | passed => exact ⟨true, rfl⟩
  | _ => exact ⟨false, h⟩

/-- What becomes of the calls of a run, once nothing is read any more or the server was stopped. -/
structure Relieved (c : Circuit) (es : List Event) : Prop where
  /-- Nothing is pending. -/
  quiet : (c.follow es).wired.IsDead → (c.follow es).wired.line.pending = []
  /-- A call that waits with a request has an answer to it, unless the request was given up while it was open; and it can
  go on, unless a live process still holds the request back. -/
  woken : (c.follow es).wired.IsDead → ∀ call ∈ (c.follow es).calls, ∀ i ∈ call.2.ids, i ∉ c.lost es →
    Keyed.has i (c.follow es).wired.line.settled = true ∧
      ((∃ late, (c.follow es).wired.isOver late call.2.wait = true) ∨ ∃ p cleared timeout,
        call.2.wait = .flush i p cleared timeout ∧ (c.follow es).wired.HoldsBack p cleared)
  /-- Going on, a call that asked ends. -/
  ends : (c.follow es).wired.IsDead → ∀ n i limit method params,
    (n, ⟨.answer i limit, .request i method params⟩) ∈ (c.follow es).calls → i ∉ c.lost es →
      ∃ late r, (n, r) ∈ ((c.follow es).after (.move (.resume n late))).done
  /-- So does one whose request got through, or cannot any more: at once, or with the answer that it has. -/
  flushed : (c.follow es).wired.IsDead → ∀ n i p cleared timeout method params late,
    (n, ⟨.flush i p cleared timeout, .request i method params⟩) ∈ (c.follow es).calls → i ∉ c.lost es →
      (c.follow es).wired.isOver late (.flush i p cleared timeout) = true →
        (∃ r, (n, r) ∈ ((c.follow es).after (.move (.resume n late))).done) ∨ ∃ late' r,
          (n, r) ∈ (((c.follow es).after (.move (.resume n late))).after (.move (.resume n late'))).done
  /-- A request that was given up while it was open gets no answer, whatever comes; without a limit its call waits on. -/
  forsaken : ∀ i ∈ c.lost es, ∀ later, i ∉ (c.follow (es ++ later)).wired.line.pending ∧
    Keyed.has i (c.follow (es ++ later)).wired.line.settled = false ∧
    ∀ call ∈ (c.follow es).calls, call.2.wait = .answer i .never → call ∈ (c.follow (es ++ later)).calls
  /-- If it was given up while it was flushed, a call without a limit waits on, or ends with the pipe. -/
  deserted : ∀ i ∈ c.lost es, ∀ n wait method params, (n, ⟨wait, .request i method params⟩) ∈ (c.follow es).calls →
    wait.IsUnlimited i → ∀ later, (n, .error .brokenPipe) ∈ (c.follow (es ++ later)).done ∨ ∃ wait',
      wait'.IsUnlimited i ∧ (n, ⟨wait', .request i method params⟩) ∈ (c.follow (es ++ later)).calls
  /-- Requests and notifications fail from then on. -/
  refuses : (c.follow es).wired.IsDead → Refuses (c.follow es).wired
  /-- It is so when a call that stops the server has returned. -/
  stopped : ∀ before e later n v, es = before ++ e :: later → n ∈ c.stops (before ++ [e]) →
    n ∉ Keyed.keys (c.follow before).done → (n, .ok v) ∈ (c.follow (before ++ [e])).done →
      (c.follow (before ++ [e])).wired.IsDead
  /-- And it stays so until a server is started. -/
  stays : ∀ before later, es = before ++ later → (c.follow before).wired.IsDead → (∀ e ∈ later, e.starts = false) →
    (c.follow es).wired.IsDead

theorem not_isOver_of_gone (h : Watched c gone) {i : Nat} (hi : i ∈ gone) (late : Bool) :
    c.wired.isOver late (.answer i .never) = false := by
  cases late with
  | true => rfl
  | false =>
    rw [← Bool.not_eq_true]
    intro hmet
    have hmet : (true && Keyed.has i c.wired.line.settled) = true := hmet
    rw [Bool.true_and, Keyed.has_eq_true] at hmet
    exact (h.gone i hi).2 (.inr hmet)

/-- A call that waits without a limit for a request that is gone is not woken. -/
theorem mem_calls_follow (h : Sound c) (hwatched : Watched c gone) {i : Nat} (hi : i ∈ gone) {call : Nat × Suspended}
    (hcall : call ∈ c.calls) (hwait : call.2.wait = .answer i .never) (es : List Event) : call ∈ (c.follow es).calls := by
  induction es generalizing c gone with
  | nil => exact hcall
  | cons e es ih =>
    refine ih (progress_after h e).sound (watched_after h hwatched e) (List.mem_append_left _ hi) ?_
    rcases (progress_after h e).calls call hcall with hcall | ⟨late, hover, -⟩
    · exact hcall
    · rw [hwait, not_isOver_of_gone hwatched hi] at hover
      cases hover

section Asking

variable {i : Nat} {method params : Json}

/-- Where a request is gone, going on brings its call no answer. -/
theorem deserted_after (h : Sound c) (hwatched : Watched c gone) (hi : i ∈ gone) {wait : Wait}
    (hcall : (n, ⟨wait, .request i method params⟩) ∈ c.calls) (hwait : wait.IsUnlimited i) (e : Event) :
    (n, .error .brokenPipe) ∈ (c.after e).done ∨ ∃ wait',
      wait'.IsUnlimited i ∧ (n, ⟨wait', .request i method params⟩) ∈ (c.after e).calls := by
  rcases (progress_after h e).calls _ hcall with hcall | ⟨late, hover, heq⟩
  · exact .inr ⟨wait, hwait, hcall⟩
  · rw [heq]
    cases wait with
    | answer id limit =>
      obtain ⟨rfl, rfl⟩ := hwait
      rw [not_isOver_of_gone hwatched hi] at hover
      cases hover
    | flush id p cleared timeout =>
      obtain ⟨rfl, rfl⟩ := hwait
      rcases Line.resume_cases late ⟨.flush id p cleared .null, .request id method params⟩ c.wired with
        ⟨ending, hends, hrun⟩ | ⟨id', p', cleared', timeout, limit, hwait, -, hlimit, hrun⟩
      · rw [resumed_request n hrun]
        refine .inl (List.mem_append_right _ (List.mem_singleton.mpr ?_))
        cases hends with
        | plain hnot => exact absurd rfl (hnot _ _ _ _)
        | broken _ => rfl
        | unlimited hlimit => cases hlimit
        | there _ hthere => exact absurd (.inr (Keyed.has_eq_true.mp hthere)) (hwatched.gone _ hi).2
      · cases hwait
        cases hlimit
        rw [resumed_eq, hrun]
        have hunlimited : (Wait.answer id .never).IsUnlimited id := ⟨rfl, rfl⟩
        exact .inr ⟨_, hunlimited, List.mem_append_right _ (List.mem_singleton.mpr rfl)⟩
    | exit p limit => cases hwait
    | quiet p => cases hwait

theorem deserted_follow (h : Sound c) (hwatched : Watched c gone) (hi : i ∈ gone) {wait : Wait}
    (hcall : (n, ⟨wait, .request i method params⟩) ∈ c.calls) (hwait : wait.IsUnlimited i) (es : List Event) :
    (n, .error .brokenPipe) ∈ (c.follow es).done ∨ ∃ wait',
      wait'.IsUnlimited i ∧ (n, ⟨wait', .request i method params⟩) ∈ (c.follow es).calls := by
  induction es generalizing c gone wait with
  | nil => exact .inr ⟨wait, hwait, hcall⟩
  | cons e es ih =>
    have hsound := (progress_after h e).sound
    rcases deserted_after h hwatched hi hcall hwait e with hdone | ⟨wait', hwait', hcall'⟩
    · exact .inl (mem_done_follow hsound hdone es)
    · exact ih hsound (watched_after h hwatched e) (List.mem_append_left _ hi) hcall' hwait'

/-- A call that has its answer ends when it goes on, and it can. -/
theorem ends_of_settled (h : Sound c) {limit : Limit} (hcall : (n, ⟨.answer i limit, .request i method params⟩) ∈ c.calls)
    (hhas : Keyed.has i c.wired.line.settled = true) : ∃ late r, (n, r) ∈ (c.after (.move (.resume n late))).done := by
  obtain ⟨late, hover⟩ : ∃ late, c.wired.isOver late (.answer i limit) = true := exists_isOver hhas
  have hs := (Keyed.get?_eq_some h.calls_single).mpr hcall
  refine ⟨late, ((Line.collect i method params (.ofLate late)).run.run c.wired).1, ?_⟩
  rw [after, resume_of_over hs hover, resumed_request n rfl]
  exact List.mem_append_right _ (List.mem_singleton.mpr rfl)

/-- A call that has its answer and whose request got through, or cannot any more, ends. -/
theorem ends_of_flushed (h : Sound c) {p cleared : Nat} {timeout : Json} {late : Bool}
    (hcall : (n, ⟨.flush i p cleared timeout, .request i method params⟩) ∈ c.calls)
    (hhas : Keyed.has i c.wired.line.settled = true)
    (hover : c.wired.isOver late (.flush i p cleared timeout) = true) :
    (∃ r, (n, r) ∈ (c.after (.move (.resume n late))).done) ∨
      ∃ late' r, (n, r) ∈ ((c.after (.move (.resume n late))).after (.move (.resume n late'))).done := by
  have hs := (Keyed.get?_eq_some h.calls_single).mpr hcall
  have hsound := (progress_after h (.move (.resume n late))).sound
  have hafter : c.after (.move (.resume n late)) = c.resumed n _ late := resume_of_over hs hover
  rcases Line.resume_cases late ⟨.flush i p cleared timeout, .request i method params⟩ c.wired with
    ⟨ending, -, hrun⟩ | ⟨id, _, _, _, limit, hwait, -, -, hrun⟩
  · rw [hafter, resumed_request n hrun]
    exact .inl ⟨_, List.mem_append_right _ (List.mem_singleton.mpr rfl)⟩
  · cases hwait
    rw [hafter] at hsound ⊢
    rw [resumed_eq, hrun] at hsound ⊢
    exact .inr (ends_of_settled hsound (List.mem_append_right _ (List.mem_singleton.mpr rfl)) hhas)

end Asking

theorem waiting_relieved (hc : c.IsFresh) (es : List Event) : Relieved c es := by
  have hsound (es : List Event) := sound_follow hc.sound es
  have hwatched (es : List Event) : Watched (c.follow es) (c.lost es) := watched_follow hc.sound hc.watched es
  have hwoken (hdead : (c.follow es).wired.IsDead) {call : Nat × Suspended} (hcall : call ∈ (c.follow es).calls) {i : Nat}
      (hids : i ∈ call.2.ids) (hnot : i ∉ c.lost es) : Keyed.has i (c.follow es).wired.line.settled = true := by
    have hi : i ∈ (c.follow es).waited := List.mem_flatMap.mpr ⟨call, hcall, hids⟩
    have hpending : i ∉ (c.follow es).wired.line.pending := by
      rw [(hwatched es).quiet hdead]
      exact List.not_mem_nil
    exact Keyed.has_eq_true.mpr ((((hwatched es).known i hi).resolve_left hnot).resolve_left hpending)
  refine ⟨(hwatched es).quiet, fun hdead call hcall i hids hnot => ?_, ?_, ?_, fun i hi later => ?_, ?_,
    refuses_of_isDead (hsound es), ?_, ?_⟩
  · have hhas := hwoken hdead hcall hids hnot
    refine ⟨hhas, ?_⟩
    cases hwait : call.2.wait with
    | flush id p cleared timeout =>
      rw [Suspended.ids, hwait, Wait.ids, List.mem_singleton] at hids
      obtain rfl := hids
      exact (Wired.isOver_or_holdsBack _ i p cleared timeout).imp_right fun hback => ⟨p, cleared, timeout, rfl, hback⟩
    | answer id limit =>
      rw [Suspended.ids, hwait, Wait.ids, List.mem_singleton] at hids
      exact .inl (exists_isOver (hids ▸ hhas))
    | _ =>
      rw [Suspended.ids, hwait] at hids
      cases hids
  · intro hdead n i limit method params hcall hnot
    exact ends_of_settled (hsound es) hcall (hwoken hdead hcall (List.mem_singleton.mpr rfl) hnot)
  · intro hdead n i p cleared timeout method params late hcall hnot hover
    exact ends_of_flushed (hsound es) hcall (hwoken hdead hcall (List.mem_singleton.mpr rfl) hnot) hover
  · have hfollow := follow_append c es later
    have hlater := watched_follow (hsound es) (hwatched es) later
    rw [hfollow]
    obtain ⟨-, hnot⟩ := hlater.gone i (List.mem_append_left _ hi)
    refine ⟨fun hmem => hnot (.inl hmem), ?_, fun call hcall hwait => ?_⟩
    · rw [← Bool.not_eq_true, Keyed.has_eq_true]
      exact fun hmem => hnot (.inr hmem)
    · exact mem_calls_follow (hsound es) (hwatched es) hi hcall hwait later
  · intro i hi n wait method params hcall hwait later
    rw [follow_append]
    exact deserted_follow (hsound es) (hwatched es) hi hcall hwait later
  · intro before e later n v _ hn hunder hv
    exact .inr (process_of_stopped hc before e hn hunder hv)
  · intro before later hes hdead hlater
    rw [hes, follow_append]
    exact isDead_follow (hsound before) (hwatched before) hdead hlater

/-- Of three requests one is given up and one is held back; then the output of the server ends. -/
def abandoned : List Event :=
  [.start .null .null false] ++ spoken (answering (.int 1) "hello") ++
    [.ask (.text "a") .null .null, .ask (.text "b") .null .null, .cancel (.int 2), .act 0 [.intake .stalls],
      .ask (.text "c") .null .null, .act 0 [.closeOutput], .move .read]

theorem waiting_relieved_abandoned :
    (mute.follow abandoned).wired.IsDead ∧ mute.lost abandoned = [2] ∧
      (mute.follow abandoned).waited = [1, 2, 3, 4] ∧ (mute.follow abandoned).wired.HoldsBack 0 0 ∧
      (mute.follow abandoned).wired.line.pending = [] ∧
      Keyed.keys (mute.follow abandoned).wired.line.settled = [1, 3, 4] ∧ Relieved mute abandoned :=
  ⟨by decide +kernel, by decide +kernel, by decide +kernel, by decide +kernel, by decide +kernel, by decide +kernel,
    waiting_relieved ⟨rfl, rfl, rfl, rfl, rfl⟩ abandoned⟩

end Circuit
end CoqConsole
