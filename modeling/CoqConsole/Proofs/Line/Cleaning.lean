import CoqConsole.Proofs.Line.Correlation
import CoqConsole.Proofs.Line.Winding

/-!
# What is left of a stopped server

Servers are started and stopped one after the other, while whatever else happens. A call that stops the server leaves no
process, nothing that is read and nothing that is pending. What runs after it was left before, when a start put a new
process in its place. It fails only after an answer with an odd error, or when the process may not be killed.

* `Wired.Accounts` : what runs is held by the line, or was left;
* `Circuit.Sequential`, `left`, `stops` : the runs, the processes that were left, and the calls that stop the server;
* `Circuit.Tended`, `tended_after`, `tended_follow` : between the turns, whoever waits knows the process;
* `Circuit.Stopped`, `stopping_after` : how a call that stops the server ends;
* `Circuit.Cleaned`, `stops_clean` : what such calls leave behind.
-/

namespace CoqConsole

/-! ## Lines -/

namespace Wired

/-- What runs is held by the line or was left, and so is what it listens to. -/
structure Accounts (w : Wired) (left : List Nat) : Prop where
  held : ∀ p, w.host.isAlive p = true → w.line.process = some p ∨ p ∈ left
  listening : ∀ p ∈ w.line.listening, w.line.process = some p ∨ p ∈ left
  vacant : w.line.process = none → w.line.reading = false
  truthful : ∀ i cause, (i, .error cause) ∈ w.line.settled → cause = .lostConnection ∨ cause = .stopped

variable {w w' : Wired} {left : List Nat}

namespace Accounts

theorem mono (h : w.Accounts left) (more : List Nat) : w.Accounts (left ++ more) :=
  { h with
    held := fun p halive => (h.held p halive).imp_right (List.mem_append_left _)
    listening := fun p hmem => (h.listening p hmem).imp_right (List.mem_append_left _) }

theorem of_truthful (h : w.Accounts left) (htruthful : w.line.Truthful w'.line) (i : Nat) (cause : Failure)
    (hmem : (i, .error cause) ∈ w'.line.settled) : cause = .lostConnection ∨ cause = .stopped :=
  (htruthful i cause hmem).elim (h.truthful i cause) fun h => h

theorem abides (h : w.Accounts left) (habides : w.Abides w') : w'.Accounts left where
  held := fun p halive => by
    rw [habides.process]
    exact h.held p (Host.alive_of_ended (habides.ended p) halive)
  listening := fun p hmem => by
    rw [habides.process]
    exact h.listening p (habides.listening hmem)
  vacant := fun hnone => by
    rw [habides.process] at hnone
    rw [← Bool.not_eq_true]
    intro hreading
    have hreads := habides.reading hreading
    rw [h.vacant hnone] at hreads
    cases hreads
  truthful := h.of_truthful habides.truthful

theorem released (h : w.Accounts left) (hreleased : Line.Released w w') : w'.Accounts left where
  held := fun p halive => by
    rcases h.held p (Host.alive_of_ended (hreleased.ended p) halive) with hp | hleft
    · rw [(hreleased.gone p hp).1] at halive
      cases halive
    · exact .inr hleft
  listening := fun p hmem => by
    rcases h.listening p (hreleased.listening hmem) with hp | hleft
    · exact absurd hmem (hreleased.gone p hp).2.2
    · exact .inr hleft
  vacant := fun _ => by
    cases hp : w.line.process with
    | some p => exact (hreleased.gone p hp).2.1
    | none =>
      rw [← Bool.not_eq_true]
      intro hreading
      have hreads := hreleased.reading hreading
      rw [h.vacant hp] at hreads
      cases hreads
  truthful := h.of_truthful hreleased.truthful

/-- A call that stops a server loses none. -/
theorem winds (h : w.Accounts left) {result : Json} {r : Except Failure Standing} (hwinds : Line.Winds w result r w') :
    w'.Accounts left := by
  cases hwinds with
  | waits habides _ _ => exact h.abides habides
  | ends hreleased => exact h.released hreleased

theorem parts (h : w.Accounts left) {result : Json} {r : Except Failure Standing} {late : Bool} {plan : Plan}
    (hparts : Line.Parts w late plan result r w') : w'.Accounts left := by
  cases hparts with
  | winds hwinds => exact h.winds hwinds
  | refused habides _ _ _ _ | withstood habides _ _ _ _ _ => exact h.abides habides

/-- A new process takes the place of the one that the line had. -/
theorem spawned (h : w.Accounts left) {p : Nat} (hspawned : Line.Spawned w w' p) :
    w'.Accounts (left ++ (w.line.process.filter fun n => decide (w'.line.process ≠ some n)).toList) := by
  obtain ⟨-, -, hprocess, hended, hlistening, htruthful⟩ := hspawned
  have hmoved {n : Nat} (hn : n ≠ p) (hheld : w.line.process = some n ∨ n ∈ left) :
      w'.line.process = some n ∨
        n ∈ left ++ (w.line.process.filter fun n => decide (w'.line.process ≠ some n)).toList := by
    refine .inr ?_
    rcases hheld with hn' | hleft
    · have hne : w'.line.process ≠ some n := by
        rw [hprocess]
        intro heq
        exact hn (Option.some.inj heq).symm
      rw [hn', Option.filter_some, if_pos (decide_eq_true hne)]
      exact List.mem_append_right _ (List.mem_singleton.mpr rfl)
    · exact List.mem_append_left _ hleft
  refine ⟨fun n halive => ?_, fun n hmem => ?_, fun hnone => ?_, h.of_truthful htruthful⟩
  · by_cases hn : n = p
    · exact .inl (hn ▸ hprocess)
    · exact hmoved hn (h.held n (Host.alive_of_ended (hended n hn) halive))
  · by_cases hn : n = p
    · exact .inl (hn ▸ hprocess)
    · refine hmoved hn (h.listening n ?_)
      exact (List.mem_append.mp (hlistening hmem)).resolve_right fun h => hn (List.mem_singleton.mp h)
  · rw [hprocess] at hnone
    cases hnone

theorem greets (h : w.Accounts left) {brief : Bool} {r : Except Failure Standing} (hgreets : Line.Greets w brief r w') :
    w'.Accounts left := by
  cases hgreets with
  | ends habides => exact h.abides habides
  | fails habides => exact h.abides habides
  | winds _ hwinds => exact h.winds hwinds

theorem begins (h : w.Accounts left) {brief : Bool} {r : Except Failure Standing} (hbegins : Line.Begins w brief r w') :
    w'.Accounts (left ++ (w.line.process.filter fun n => decide (w'.line.process ≠ some n)).toList) := by
  cases hbegins with
  | greets hgreets => exact (h.greets hgreets).mono _
  | waits hspawned => exact h.spawned hspawned
  | fails hspawned => exact h.spawned hspawned

end Accounts

/-- Nothing is left of a process, except for those that were left for new ones. -/
structure Clean (w : Wired) (left : List Nat) : Prop where
  process : w.line.process = none
  reading : w.line.reading = false
  pending : w.line.pending = []
  listening : w.line.listening ⊆ left
  alive : ∀ p, w.host.isAlive p = true → p ∈ left

theorem Accounts.clean (h : w.Accounts left) (hreleased : Line.Released w w') : w'.Clean left := by
  have haccounts := h.released hreleased
  have hvacant {p : Nat} (hp : w'.line.process = some p ∨ p ∈ left) : p ∈ left := by
    rw [hreleased.process] at hp
    exact hp.resolve_left nofun
  exact
    { process := hreleased.process
      reading := haccounts.vacant hreleased.process
      pending := hreleased.pending
      listening := fun p hmem => hvacant (haccounts.listening p hmem)
      alive := fun p halive => hvacant (haccounts.held p halive) }

end Wired

namespace Circuit

variable {c c₁ : Circuit} {behind : List Nat} {n : Nat} {r : Except Failure Standing}

/-! ## Runs -/

/-- No call is under way that starts or stops a server. -/
def Idle (c : Circuit) : Prop := ∀ call ∈ c.calls, call.2.plan.tends = false

def Event.tends : Event → Bool
  | .start .. => true
  | .stop => true
  | _ => false

/-- Servers are started and stopped one after the other, whatever else happens meanwhile. -/
def Sequential (c : Circuit) : List Event → Prop
  | [] => True
  | e :: es => (e.tends = true → c.Idle) ∧ (c.after e).Sequential es

instance (c : Circuit) : Decidable c.Idle :=
  inferInstanceAs (Decidable (∀ call ∈ c.calls, call.2.plan.tends = false))

instance decidableSequential (c : Circuit) : (es : List Event) → Decidable (c.Sequential es)
  | [] => .isTrue trivial
  | e :: es =>
    have := decidableSequential (c.after e) es
    inferInstanceAs (Decidable ((e.tends = true → c.Idle) ∧ (c.after e).Sequential es))

def left? (c : Circuit) (e : Event) : Option Nat :=
  match e with
  | .start .. => c.wired.line.process.filter fun p => decide ((c.after e).wired.line.process ≠ some p)
  | _ => none

def left (c : Circuit) : List Event → List Nat
  | [] => []
  | e :: es => (c.left? e).toList ++ (c.after e).left es

/-- The call that an event makes to stop the server. -/
def stop? (c : Circuit) : Event → Option Nat
  | .stop => some c.made
  | _ => none

def stops (c : Circuit) : List Event → List Nat
  | [] => []
  | e :: es => (c.stop? e).toList ++ (c.after e).stops es

/-! ## What is known between the turns -/

/-- What runs is accounted for, one call at a time starts or stops a server, and whoever waits knows the process. -/
structure Tended (c : Circuit) (behind : List Nat) : Prop where
  accounts : c.wired.Accounts behind
  minds : ∀ call ∈ c.calls, c.wired.Minds call.2
  alone : ∀ call ∈ c.calls, ∀ other ∈ c.calls, call.2.plan.tends = true → other.2.plan.tends = true → call = other

theorem Idle.tended (h : c.Idle) (haccounts : c.wired.Accounts behind) : Tended c behind where
  accounts := haccounts
  minds := fun call hcall => c.wired.minds_of_not_tends (h call hcall)
  alone := fun call hcall other _ htends _ => by
    rw [h call hcall] at htends
    cases htends

theorem Tended.abides (h : Tended c behind) (hcalls : c₁.calls ⊆ c.calls) (habides : c.wired.Abides c₁.wired) :
    Tended c₁ behind where
  accounts := h.accounts.abides habides
  minds := fun call hcall => (h.minds call (hcalls hcall)).abides habides
  alone := fun call hcall other hother => h.alone call (hcalls hcall) other (hcalls hother)

theorem Tended.stand (h : Tended c behind)
    (hr : ∀ s, r = .ok (.waiting s) → c.wired.Minds s ∧ (s.plan.tends = true → c.Idle)) :
    Tended (c.stand n r) behind := by
  rcases r with cause | (v | s)
  · exact ⟨h.accounts, h.minds, h.alone⟩
  · exact ⟨h.accounts, h.minds, h.alone⟩
  · obtain ⟨hminds, hidle⟩ := hr s rfl
    have hother {call : Nat × Suspended} (hcall : call ∈ c.calls) (htends : call.2.plan.tends = true)
        (hs : s.plan.tends = true) : False := by
      rw [hidle hs call hcall] at htends
      cases htends
    refine ⟨h.accounts, List.forall_mem_append.mpr ⟨h.minds, List.forall_mem_singleton.mpr hminds⟩, ?_⟩
    intro call hcall other hcall' htends htends'
    rcases List.mem_append.mp hcall with hcall | hcall <;> rcases List.mem_append.mp hcall' with hcall' | hcall'
    · exact h.alone call hcall other hcall' htends htends'
    · rw [List.mem_singleton.mp hcall'] at htends'
      exact (hother hcall htends htends').elim
    · rw [List.mem_singleton.mp hcall] at htends
      exact (hother hcall' htends' htends).elim
    · rw [List.mem_singleton.mp hcall, List.mem_singleton.mp hcall']

/-- The other calls, while one that starts or stops a server has its turn, do neither. -/
theorem Tended.idle_erase (h : Tended c behind) {s : Suspended} (hs : Keyed.get? n c.calls = some s)
    (htends : s.plan.tends = true) {wired : Wired} : Idle { c with calls := Keyed.erase n c.calls, wired } := by
  intro call hcall
  obtain ⟨hmem, hne⟩ := Keyed.mem_erase.mp hcall
  rw [← Bool.not_eq_true]
  intro hother
  have heq := h.alone call hmem (n, s) (Keyed.mem_of_get? hs) hother htends
  rw [heq] at hne
  exact hne rfl

theorem Tended.isForgiven (h : Tended c behind) (i : Nat) (cause : Failure)
    (hmem : (i, .error cause) ∈ c.wired.line.settled) : Line.isForgiven cause = true := by
  rcases h.accounts.truthful i cause hmem with rfl | rfl <;> rfl

/-- Whoever starts or stops a server goes on with the line for itself. -/
theorem Idle.stand (h : c.Idle) (haccounts : c.wired.Accounts behind)
    (hminds : ∀ s, r = .ok (.waiting s) → c.wired.Minds s) : Tended (c.stand n r) behind :=
  (h.tended haccounts).stand fun s hs => ⟨hminds s hs, fun _ => h⟩

theorem calls_hand (c : Circuit) (handed : Option (String × Json)) : (c.hand handed).calls = c.calls := by
  cases handed with
  | none => rfl
  | some handed =>
    unfold hand handle
    simp only
    split <;> rfl

theorem tended_resumed (h : Tended c behind) {s : Suspended} (hs : Keyed.get? n c.calls = some s) {late : Bool}
    (hover : c.wired.isOver late s.wait = true) : Tended (c.resumed n s late) behind := by
  obtain ⟨wait, plan⟩ := s
  cases hplan : plan.result? with
  | some result =>
    have hparts := Line.parts_resume hplan (h.minds _ (Keyed.mem_of_get? hs)) hover h.isForgiven
    rw [resumed_eq]
    exact (h.idle_erase hs (plan.tends_of_result? hplan)).stand (h.accounts.parts hparts) fun _ => hparts.minds
  | none =>
    have herase {wired : Wired} (habides : c.wired.Abides wired) :
        Tended { c with calls := Keyed.erase n c.calls, wired } behind :=
      h.abides (fun _ hcall => (Keyed.mem_erase.mp hcall).1) habides
    rcases Line.resume_cases late ⟨wait, plan⟩ c.wired with
      ⟨ending, -, hrun⟩ | ⟨id, p, cleared, timeout, limit, hwait, -, -, hrun⟩
    · cases plan with
      | request id method params =>
        have honward := (Wired.Onward.traffic c.wired).collect id method params ending c.wired (.refl _)
        rw [resumed_request n hrun]
        exact ⟨(herase honward.abides).accounts, (herase honward.abides).minds, (herase honward.abides).alone⟩
      | greeting id params brief =>
        have hgreets := @Line.greets_greeting c.wired id params brief ending
        rw [resumed_eq, hrun]
        exact (h.idle_erase hs rfl).stand (h.accounts.greets hgreets) fun _ => hgreets.minds
      | _ => cases hplan
    · obtain rfl : wait = .flush id p cleared timeout := hwait
      have hminds := h.minds _ (Keyed.mem_of_get? hs)
      rw [resumed_eq, hrun]
      refine (herase (.refl _)).stand fun s hs' => ?_
      cases hs'
      exact ⟨hminds.flushed limit, fun htends => h.idle_erase hs htends⟩

theorem tended_move (h : Tended c behind) (m : Move) : Tended (c.apply m) behind := by
  cases m with
  | wake p => exact h.abides (fun _ h => h) (.of_host (.wake _ _) (List.length_modify _ _ _))
  | read =>
    unfold apply
    simp only
    split
    · next w handed hread =>
      have hhand : Tended (({ c with wired := w } : Circuit).hand handed) behind := by
        refine h.abides (fun call hcall => ?_) ((Wired.Abides.read hread).trans (onward_hand c w handed).abides)
        rw [calls_hand] at hcall
        exact hcall
      cases handed <;> exact hhand
    · exact h
  | listen p =>
    unfold apply
    simp only
    split
    · next w hlisten => exact h.abides (fun _ h => h) (.listen hlisten)
    · exact h
  | resume n late =>
    rcases c.resume_cases n late with heq | ⟨s, hs, hover, heq⟩
    · rw [heq]
      exact h
    · rw [heq]
      exact tended_resumed h hs hover

theorem tended_after (h : Tended c behind) {e : Event} (hidle : e.tends = true → c.Idle) :
    Tended (c.after e) (behind ++ (c.left? e).toList) := by
  have hkept (hleft : c.left? e = none) (h : Tended (c.after e) behind) :
      Tended (c.after e) (behind ++ (c.left? e).toList) := by
    rw [hleft, Option.toList_none, List.append_nil]
    exact h
  cases e with
  | ask method params timeout =>
    have honward := (Wired.Onward.traffic c.wired).ask method params timeout c.wired (.refl _)
    refine hkept rfl ?_
    rw [after, call_eq]
    refine Tended.stand (h.abides (fun _ h => h) honward.abides) fun s hs => ?_
    refine ⟨Wired.minds_of_not_tends _ (Line.plan_ask hs), fun htends => ?_⟩
    rw [Line.plan_ask hs] at htends
    cases htends
  | start options timeout brief =>
    have hbegins := Line.begins_start (w := c.wired) options timeout brief
    rw [left?, after, call_eq, wired_stand]
    exact Idle.stand (hidle rfl) (h.accounts.begins hbegins) fun _ => hbegins.minds
  | stop =>
    have hwinds : Line.Winds c.wired .null _ _ := Line.winds_stop (.refl c.wired)
    refine hkept rfl ?_
    rw [after, call_eq]
    exact Idle.stand (hidle rfl) (h.accounts.winds hwinds) fun _ => hwinds.minds
  | notify method params =>
    exact hkept rfl (h.abides (fun _ h => h) ((Wired.Onward.traffic c.wired).notify method params c.wired (.refl _)).abides)
  | cancel id =>
    exact hkept rfl (h.abides (fun _ h => h) ((Wired.Onward.traffic c.wired).cancel id c.wired (.refl _)).abides)
  | move m => exact hkept rfl (tended_move h m)
  | act p acts => exact hkept rfl (h.abides (fun _ h => h) (.of_host (.command _ _ _) (List.length_modify _ _ _)))
  | tick now => exact hkept rfl (h.abides (fun _ h => h) (.of_host (.of_eq rfl rfl) rfl))
  | queue rota => exact hkept rfl (h.abides (fun _ h => h) (.refl _))

theorem tended_follow (h : Tended c behind) {es : List Event} (hes : c.Sequential es) :
    Tended (c.follow es) (behind ++ c.left es) := by
  induction es generalizing c behind with
  | nil =>
    rw [left, List.append_nil]
    exact h
  | cons e es ih =>
    rw [left, ← List.append_assoc]
    exact ih (tended_after h hes.1) hes.2

/-! ## Calls that stop a server -/

def Stopping (c : Circuit) (n : Nat) : Prop := ∃ s, (n, s) ∈ c.calls ∧ s.plan.result? = some .null

/-- How a call ends that stops the server: nothing is left, or the server answered with an odd error, or may not be
killed, and its process stays. -/
inductive Stopped (c c' : Circuit) (behind : List Nat) : Except Failure Json → Prop
  | clean (h : c'.wired.Clean behind) : Stopped c c' behind (.ok .null)
  | refused {cause : Failure} {i : Nat} {message : Json}
      (hanswer : Keyed.get? i c.wired.line.settled = some (.ok message)) (hodd : message.IsOddRefusal)
      (hprocess : c'.wired.line.process = c.wired.line.process) : Stopped c c' behind (.error cause)
  | withstood {p : Nat} (hp : c.wired.line.process = some p) (hrefuses : c.wired.host.refusesKill p = true)
      (hprocess : c'.wired.line.process = some p) (halive : c'.wired.host.isAlive p = true) :
    Stopped c c' behind (.error .notPermitted)

/-- A call that stops the server stops it further, or ends so. -/
theorem stopping_winds (h : c.wired.Accounts behind) (hwinds : Line.Winds c.wired .null r c₁.wired) :
    Stopping (c₁.stand n r) n ∨ ∃ r', (n, r') ∈ (c₁.stand n r).done ∧ Stopped c (c₁.stand n r) behind r' := by
  cases hwinds with
  | waits _ hresult _ => exact .inl ⟨_, List.mem_append_right _ (List.mem_singleton.mpr rfl), hresult⟩
  | ends hreleased =>
    exact .inr ⟨_, List.mem_append_right _ (List.mem_singleton.mpr rfl), .clean (h.clean hreleased)⟩

theorem stopping_parts (h : c.wired.Accounts behind) {late : Bool} {plan : Plan}
    (hparts : Line.Parts c.wired late plan .null r c₁.wired) :
    Stopping (c₁.stand n r) n ∨ ∃ r', (n, r') ∈ (c₁.stand n r).done ∧ Stopped c (c₁.stand n r) behind r' := by
  cases hparts with
  | winds hwinds => exact stopping_winds h hwinds
  | refused habides _ hanswer hodd _ =>
    exact .inr ⟨_, List.mem_append_right _ (List.mem_singleton.mpr rfl), .refused hanswer hodd habides.process⟩
  | withstood habides _ _ hp hrefuses halive =>
    refine .inr ⟨_, List.mem_append_right _ (List.mem_singleton.mpr rfl), ?_⟩
    exact .withstood hp hrefuses (habides.process.trans hp) halive

theorem stopping_after (h : Tended c behind) (hsound : Sound c) {e : Event}
    (hn : Stopping c n ∨ c.stop? e = some n) :
    Stopping (c.after e) n ∨ ∃ r, (n, r) ∈ (c.after e).done ∧ Stopped c (c.after e) behind r := by
  rcases hn with ⟨s, hcall, hresult⟩ | hstop
  · rcases (progress_after hsound e).calls _ hcall with hcall' | ⟨late, hover, heq⟩
    · exact .inl ⟨s, hcall', hresult⟩
    · rw [heq, resumed_eq]
      exact stopping_parts h.accounts (Line.parts_resume hresult (h.minds _ hcall) hover h.isForgiven)
  · cases e with
    | stop =>
      cases hstop
      rw [after, call_eq]
      exact stopping_winds h.accounts (Line.winds_stop (.refl _))
    | _ => cases hstop

theorem stopping_follow (h : Tended c behind) (hsound : Sound c) {es : List Event} (hes : c.Sequential es)
    (hn : Stopping c n ∨ n ∈ Keyed.keys c.done ∨ n ∈ c.stops es) :
    Stopping (c.follow es) n ∨ n ∈ Keyed.keys (c.follow es).done := by
  induction es generalizing c behind with
  | nil =>
    rcases hn with hn | hn | hn
    · exact .inl hn
    · exact .inr hn
    · cases hn
  | cons e es ih =>
    have hprogress := progress_after hsound e
    refine ih (tended_after h hes.1) hprogress.sound hes.2 ?_
    have hstopping (hn : Stopping c n ∨ c.stop? e = some n) :
        Stopping (c.after e) n ∨ n ∈ Keyed.keys (c.after e).done ∨ n ∈ (c.after e).stops es := by
      rcases stopping_after h hsound hn with hn | ⟨r, hr, -⟩
      · exact .inl hn
      · exact .inr (.inl (List.mem_map.mpr ⟨_, hr, rfl⟩))
    rcases hn with hn | hn | hn
    · exact hstopping (.inl hn)
    · obtain ⟨entry, hentry, rfl⟩ := List.mem_map.mp hn
      exact .inr (.inl (List.mem_map.mpr ⟨entry, hprogress.done entry hentry, rfl⟩))
    · rcases List.mem_append.mp hn with hn | hn
      · exact hstopping (.inr (Option.mem_toList.mp hn))
      · exact .inr (.inr hn)

theorem stops_append (c : Circuit) (es fs : List Event) : c.stops (es ++ fs) = c.stops es ++ (c.follow es).stops fs := by
  induction es generalizing c with
  | nil => rfl
  | cons e es ih => rw [List.cons_append, stops, ih, stops, List.append_assoc, follow, follow, List.foldl_cons]

theorem Sequential.append {es fs : List Event} (h : c.Sequential (es ++ fs)) :
    c.Sequential es ∧ (c.follow es).Sequential fs := by
  induction es generalizing c with
  | nil => exact ⟨trivial, h⟩
  | cons e es ih =>
    obtain ⟨hes, hfs⟩ := ih h.2
    exact ⟨⟨h.1, hes⟩, hfs⟩

/-- Collecting an answer in time leaves the processes alone. -/
theorem host_collect (id : Nat) (method params : Json) (w : Wired) :
    ((Line.collect id method params .met).run.run w).2.host = w.host := by
  simp only [Line.collect, run_bind, run_get]
  cases Keyed.get? id w.line.settled with
  | none => rfl
  | some answer =>
    cases answer with
    | error cause => rfl
    | ok message =>
      simp only [run_lift]
      rfl

theorem resume_of_over {s : Suspended} (hs : Keyed.get? n c.calls = some s) {late : Bool}
    (hover : c.wired.isOver late s.wait = true) : c.apply (.resume n late) = c.resumed n s late := by
  rcases c.resume_cases n late with heq | ⟨s', hs', -, heq⟩
  · rw [apply, hs]
    exact if_pos hover
  · rw [hs] at hs'
    cases hs'
    exact heq

/-- A line without callers and requests that never had a process, on a host without processes. -/
structure IsUnused (c : Circuit) : Prop extends IsFresh c where
  process : c.wired.line.process = none
  reading : c.wired.line.reading = false
  listening : c.wired.line.listening = []
  processes : c.wired.host.processes = []

theorem IsUnused.tended (h : c.IsUnused) : Tended c [] := by
  have hidle : c.Idle := by
    intro call hcall
    rw [h.calls] at hcall
    cases hcall
  refine hidle.tended ⟨fun p halive => ?_, fun p hmem => ?_, fun _ => h.reading, fun i cause hmem => ?_⟩
  · rw [Host.isAlive, Host.process?, h.processes] at halive
    cases halive
  · rw [h.listening] at hmem
    cases hmem
  · rw [h.settled] at hmem
    cases hmem

/-- What the calls leave behind that stop the server. -/
structure Cleaned (c : Circuit) (es : List Event) : Prop where
  /-- Such a call is under way or has ended. -/
  called : ∀ n ∈ c.stops es, n ∈ Keyed.keys (c.follow es).calls ∨ n ∈ Keyed.keys (c.follow es).done
  /-- If it returns, there is no process any more and nothing that was done for it; what runs was left for a new process
  before. It fails only if the server answered a request with an error that is no object, or may not be killed. -/
  returned : ∀ before e later n r, es = before ++ e :: later → n ∈ c.stops (before ++ [e]) →
    n ∉ Keyed.keys (c.follow before).done → (n, r) ∈ (c.follow (before ++ [e])).done →
      let stopped := c.follow (before ++ [e])
      (r = .ok .null ∧ stopped.wired.Clean (c.left before)) ∨
        (∃ cause i message, r = .error cause ∧ (i, message) ∈ c.replies before ∧ message.IsOddRefusal ∧
          stopped.wired.line.process = (c.follow before).wired.line.process) ∨
        ∃ p, r = .error .notPermitted ∧ (c.follow before).wired.line.process = some p ∧
          (c.follow before).wired.host.refusesKill p = true ∧ stopped.wired.line.process = some p ∧
          stopped.wired.host.isAlive p = true
  /-- After such an answer to the request to shut down it does fail, and leaves the process as it is. -/
  refused : ∀ n limit id result message, (n, ⟨.answer id limit, .parting id result⟩) ∈ (c.follow es).calls →
    (c.follow es).wired.isMet (.answer id limit) = true →
    Keyed.get? id (c.follow es).wired.line.settled = some (.ok message) → message.IsOddRefusal →
      let stopped := (c.follow es).after (.move (.resume n false))
      stopped.wired.host = (c.follow es).wired.host ∧
        stopped.wired.line.process = (c.follow es).wired.line.process ∧ ∃ cause, (n, .error cause) ∈ stopped.done
  /-- It fails, too, if the process has not ended in time and may not be killed; it is alive then, and stays. -/
  withstood : ∀ n p limit result, (n, ⟨.exit p limit, .terminating result⟩) ∈ (c.follow es).calls →
    (c.follow es).wired.isLate (.exit p limit) = true → (c.follow es).wired.host.refusesKill p = true →
      let stopped := (c.follow es).after (.move (.resume n true))
      stopped.wired.line.process = some p ∧ stopped.wired.host.isAlive p = true ∧ (n, .error .notPermitted) ∈ stopped.done

/-- An answer with an odd error to the request to shut down ends the call that stops the server, and changes no process. -/
theorem refused_resume (h : Sound c) {limit : Limit} {id : Nat} {result message : Json}
    (hcall : (n, ⟨.answer id limit, .parting id result⟩) ∈ c.calls) (hmet : c.wired.isMet (.answer id limit) = true)
    (hanswer : Keyed.get? id c.wired.line.settled = some (.ok message)) (hodd : message.IsOddRefusal) :
    let stopped := c.after (.move (.resume n false))
    stopped.wired.host = c.wired.host ∧ stopped.wired.line.process = c.wired.line.process ∧
      ∃ cause, (n, .error cause) ∈ stopped.done := by
  have hs := (Keyed.get?_eq_some h.calls_single).mpr hcall
  obtain ⟨kind, hcause⟩ := Line.resultOf_of_odd (.text "shutdown") .null hodd
  have hnot : Line.isForgiven (.noOperation kind "get") = false := rfl
  have hresult := Line.collect_result id (.text "shutdown") .null .met c.wired
  have hhost := host_collect id (.text "shutdown") .null c.wired
  have honward := (Wired.Onward.traffic c.wired).collect id (.text "shutdown") .null .met c.wired (.refl _)
  simp only [hanswer] at hresult
  have hresume : Line.resume false ⟨.answer id limit, .parting id result⟩ = Line.conclude .met (.parting id result) := rfl
  have hover : c.wired.isOver false (.answer id limit) = true := hmet
  rw [after, resume_of_over hs hover, resumed_eq, hresume]
  simp only [Line.conclude, run_bind, Line.run_attempt]
  generalize (Line.collect id (.text "shutdown") .null .met).run.run c.wired = out at hresult hhost honward
  obtain ⟨r, w⟩ := out
  have hr : r = .error (.noOperation kind "get") := hresult.trans hcause
  subst hr
  simp only [hnot, Bool.false_eq_true, if_false, run_throw]
  exact ⟨hhost, honward.process, _, List.mem_append_right _ (List.mem_singleton.mpr rfl)⟩

/-- A process that may not be killed stays, and the call that stops the server fails. -/
theorem withstood_resume (h : Sound c) (htended : Tended c behind) {p : Nat} {limit : Limit} {result : Json}
    (hcall : (n, ⟨.exit p limit, .terminating result⟩) ∈ c.calls) (hlate : c.wired.isLate (.exit p limit) = true)
    (hrefuses : c.wired.host.refusesKill p = true) :
    let stopped := c.after (.move (.resume n true))
    stopped.wired.line.process = some p ∧ stopped.wired.host.isAlive p = true ∧
      (n, .error .notPermitted) ∈ stopped.done := by
  have hs := (Keyed.get?_eq_some h.calls_single).mpr hcall
  have hminds : c.wired.Minds ⟨.exit p limit, .terminating result⟩ := htended.minds _ hcall
  have hp : c.wired.line.process = some p := by
    cases hminds with
    | terminating hp => exact hp
  have hresume : Line.resume true ⟨.exit p limit, .terminating result⟩ = Line.kill result := rfl
  have hover : c.wired.isOver true (.exit p limit) = true := hlate
  rw [after, resume_of_over hs hover, resumed_eq, hresume, Line.run_kill hp, if_pos hrefuses]
  exact ⟨hp, (Host.isAlive_kill _ p).trans hrefuses, List.mem_append_right _ (List.mem_singleton.mpr rfl)⟩

theorem stops_clean (hc : c.IsUnused) {es : List Event} (hes : c.Sequential es) : Cleaned c es where
  called := fun n hn => by
    refine (stopping_follow hc.tended hc.sound hes (.inr (.inr hn))).imp_left fun ⟨s, hcall, _⟩ => ?_
    exact List.mem_map.mpr ⟨_, hcall, rfl⟩
  returned := fun before e later n r hes' hn hunder hr => by
    rw [hes'] at hes
    have hsound := sound_follow hc.sound before
    have htended := tended_follow hc.tended hes.append.1
    have hstopping : Stopping (c.follow before) n ∨ (c.follow before).stop? e = some n := by
      rw [stops_append] at hn
      rcases List.mem_append.mp hn with hn | hn
      · exact .inl ((stopping_follow hc.tended hc.sound hes.append.1 (.inr (.inr hn))).resolve_right hunder)
      · rw [stops, stops, List.append_nil] at hn
        exact .inr (Option.mem_toList.mp hn)
    have hafter : c.follow (before ++ [e]) = (c.follow before).after e := follow_append c before [e]
    rw [hafter] at hr ⊢
    have hsound' := (progress_after hsound e).sound
    rcases stopping_after htended hsound hstopping with ⟨s, hcall, -⟩ | ⟨r', hr', hstopped⟩
    · exact absurd hcall (hsound'.notMem_calls hr _)
    · rw [hsound'.eq_of_done hr hr']
      cases hstopped with
      | clean hclean => exact .inl ⟨rfl, hclean⟩
      | @refused cause i message hanswer hodd hprocess =>
        have hfirst := (told_follow hc.sound hc.told before).first i message (Keyed.mem_of_get? hanswer)
        exact .inr (.inl ⟨cause, i, message, rfl, Keyed.mem_of_get? hfirst, hodd, hprocess⟩)
      | withstood hp hrefuses hprocess halive => exact .inr (.inr ⟨_, rfl, hp, hrefuses, hprocess, halive⟩)
  refused := fun _ _ _ _ _ hcall hmet hanswer hodd =>
    refused_resume (sound_follow hc.sound es) hcall hmet hanswer hodd
  withstood := fun _ _ _ _ hcall hlate hrefuses =>
    withstood_resume (sound_follow hc.sound es) (tended_follow hc.tended hes) hcall hlate hrefuses

/-- The output of a server ends while it runs; another is started and stopped. -/
def replaced : List Event :=
  [.start .null .null false, .act 0 [.closeOutput], .move .read, .move (.resume 0 false),
    .start .null .null false, .act 1 [.closeOutput], .move .read, .move (.resume 1 false),
    .stop, .move (.resume 2 false), .move (.listen 1), .move (.resume 2 false)]

/-- A server answers the request to shut down with an error that is a text. -/
def rebuffed : List Event :=
  [.start .null .null false] ++ spoken (answering (.int 1) "hello") ++ [.move (.resume 0 false), .stop] ++
    spoken (.object [("id", .int 2), ("error", .text "no")]) ++ [.move (.resume 1 false)]

theorem stops_clean_replaced :
    let c := mute.follow replaced
    ((Keyed.get? 2 c.done).map fun r => r.isOk) = some true ∧ c.wired.line.process = none ∧
      mute.left replaced = [0] ∧ c.wired.host.isAlive 0 = true ∧ c.wired.host.isAlive 1 = false ∧
      Cleaned mute replaced := by
  refine ⟨?_, ?_, ?_, ?_, ?_, stops_clean ⟨isFresh_fresh rfl _ _ _ _ _, rfl, rfl, rfl, rfl⟩ (by decide +kernel)⟩
  all_goals decide +kernel

example : ((Keyed.get? 1 (mute.follow rebuffed).done).map fun r => r.isOk) = some false ∧
    (mute.follow rebuffed).wired.host.isAlive 0 = true ∧ (mute.follow rebuffed).wired.line.process = some 0 := by
  decide +kernel

end Circuit
end CoqConsole
