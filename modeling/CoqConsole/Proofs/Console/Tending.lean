import CoqConsole.Proofs.Console.Custody

/-!
# Turns that start and stop servers

Between two turns every server that runs is at the seat of a registered session or of the call that starts or stops it.
A turn leaves a server behind in four ways only: a session is started anew whose line is not read any more, a name is
registered twice, a server refuses to shut down, and one may not be killed.

* `Console.Settles` : a turn ends, and nothing is lost but what was;
* `Settles.kept_stand` : so it stays when its call is noted;
* `settles_started`, `settles_startSession`, `settles_stop`, ..., `settles_run` : the turns that begin;
* `settles_resume` : the turns that go on.
-/

namespace CoqConsole.Console

/-- The seats that a call looks after whose turn ends so. -/
def tendedBy : Except Failure Turn → List Nat
  | .ok (.awaits e) => e.tended
  | _ => []

/-- What a turn leaves: nothing is lost but what was, and what its call waits for fits. -/
structure Settles (c₀ : Console) (lost : List Nat) (r : Except Failure Turn) (c : Console) : Prop where
  kept : c.Kept (tendedBy r ++ lost)
  out : ∀ k ∈ tendedBy r, k ∉ lost
  ledger : c.ledger = c₀.ledger
  seats : c₀.seats.length ≤ c.seats.length
  fits : ∀ e, r = .ok (.awaits e) → e.Fits
  minds : ∀ e, r = .ok (.awaits e) → ∀ s, e.wait = .line s → (c.wired e.seat).Minds s

variable {c₀ c c' : Console} {lost : List Nat} {k : Nat} {r : Except Failure Turn}

namespace Settles

theorem calls (h : c₀.Settles lost r c) : c.calls = c₀.calls := congrArg Prod.fst h.ledger

theorem made (h : c₀.Settles lost r c) : c.made = c₀.made := congrArg (·.2.1) h.ledger

theorem trans (h : c'.Settles lost r c) (hledger : c'.ledger = c₀.ledger) (hseats : c₀.seats.length ≤ c'.seats.length) :
    c₀.Settles lost r c :=
  { h with
    ledger := h.ledger.trans hledger
    seats := Nat.le_trans hseats h.seats }

theorem error (h : c.Kept lost) (cause : Failure) : c.Settles lost (.error cause) c :=
  ⟨h, fun _ hk => absurd hk List.not_mem_nil, rfl, Nat.le_refl _, (fun _ he => by cases he), (fun _ he => by cases he)⟩

theorem said (h : c.Kept lost) (text : String) : c.Settles lost (.ok (.said text)) c :=
  ⟨h, fun _ hk => absurd hk List.not_mem_nil, rfl, Nat.le_refl _, (fun _ he => by cases he), (fun _ he => by cases he)⟩

theorem of_speech (h : c.Kept lost) (hspeech : c.Says r c') : c.Settles lost r c' := by
  obtain ⟨habides, hplain⟩ := hspeech
  have htended : tendedBy r = [] := by
    rcases r with cause | (text | e)
    · rfl
    · rfl
    · exact if_neg (Bool.eq_false_iff.mp (hplain e rfl).purpose)
  refine ⟨?_, ?_, habides.ledger, Nat.le_of_eq habides.seats.symm, fun e he => .plain (hplain e he), fun e he s hs => ?_⟩
  · rw [htended]
    exact h.abides habides
  · rw [htended]
    exact fun k hk => absurd hk List.not_mem_nil
  · exact Wired.minds_of_not_tends _ ((hplain e he).plan s hs)

/-- The call is noted, under a number that no other call under way has. -/
theorem kept_stand (h : c₀.Settles lost r c) {n : Nat} (made : Nat) (hn : n ∉ Keyed.keys c₀.calls) (hlt : n < made)
    (hle : c₀.made ≤ made) : (stand { c with made } n r).Kept lost := by
  have hkept : Kept { c with made } (tendedBy r ++ lost) :=
    { h.kept with calls_made := fun n hn => Nat.lt_of_lt_of_le (h.kept.calls_made n hn) (h.made ▸ hle) }
  rcases r with cause | (text | e)
  · exact { hkept with }
  · exact { hkept with }
  · exact hkept.enlist h.out (h.calls ▸ hn) hlt (h.fits e rfl) (h.minds e rfl)

end Settles

/-! ## The end of a server -/

/-- How a turn ends in which a call stops the server of a seat: the call waits with the same purpose, or says something. -/
structure Closes (k : Nat) (purpose : Purpose) (turn : Standing → Turn) : Prop where
  tends : purpose.tends = true
  fits : ∀ s : Suspended, s.plan.result? = some .null → Errand.Fits ⟨k, .line s, purpose⟩
  waits : ∀ s, turn (.waiting s) = .awaits ⟨k, .line s, purpose⟩
  ends : ∀ v, ∃ text, turn (.finished v) = .said text

theorem closes_failed (k : Nat) (cause : Failure) : Closes k (.failing cause) (failed k cause) :=
  ⟨rfl, fun _ => .failing, fun _ => rfl, fun _ => ⟨_, rfl⟩⟩

theorem closes_stopped (k : Nat) (name : Json) : Closes k (.stopping name) (stopped k name) :=
  ⟨rfl, fun _ => .stopping, fun _ => rfl, fun _ => ⟨_, rfl⟩⟩

variable {purpose : Purpose} {turn : Standing → Turn}

/-- The call waits on, with the seat in its hands, or there is no server any more. -/
theorem settles_winds (hcloses : Closes k purpose turn) (h : c.Kept (k :: lost)) (hk : k ∉ lost)
    {standing : Except Failure Standing} {w : Wired} (hwinds : Line.Winds (c.wired k) .null standing w) :
    c.Settles lost (standing.map turn) (c.rewire k w) := by
  have hlt := (h.gone k List.mem_cons_self).2
  cases hwinds with
  | @waits s w habides hresult hminds =>
    have hkept := h.abides (.rewire h.filed habides)
    have hturn : (Except.ok (.waiting s) : Except Failure Standing).map turn = .ok (.awaits ⟨k, .line s, purpose⟩) :=
      congrArg Except.ok (hcloses.waits s)
    rw [hturn]
    have htended : tendedBy (.ok (.awaits ⟨k, .line s, purpose⟩)) = [k] := if_pos hcloses.tends
    refine ⟨?_, ?_, rfl, Nat.le_of_eq (length_rewire c k _).symm, fun e he => ?_, fun e he s' hs => ?_⟩
    · rw [htended]
      exact hkept
    · rw [htended]
      exact List.forall_mem_singleton.mpr hk
    · cases he
      exact hcloses.fits s hresult
    · cases he
      cases hs
      rw [wired_rewire hlt]
      exact hminds
  | ends hreleased =>
    have hnone (p : Nat) : w.line.process ≠ some p := by
      rw [hreleased.process]
      exact (Option.some_ne_none p).symm
    have hkept := h.rewire hreleased.count (fun n _ => hreleased.ended n) (fun p hp => absurd hp (hnone p))
      (fun p hp => (hreleased.gone p hp).1) hreleased.truthful
    obtain ⟨text, htext⟩ := hcloses.ends .null
    have hturn : (Except.ok (.finished .null) : Except Failure Standing).map turn = .ok (.said text) :=
      congrArg Except.ok htext
    rw [hturn]
    refine (Settles.said (hkept.recover fun p hp => ?_) text).trans rfl (Nat.le_of_eq (length_rewire c k _).symm)
    rw [line_rewire, if_pos ⟨rfl, hlt⟩] at hp
    exact absurd hp (hnone p)

theorem run_turn (k : Nat) (op : Line.Op Standing) (turn : Standing → Turn) (c : Console) :
    (do return turn (← withLine k op) : Op Turn).run.run c =
      (((op.run.run (c.wired k)).1).map turn, c.rewire k (op.run.run (c.wired k)).2) := by
  simp only [run_bind, run_withLine]
  rcases op.run.run (c.wired k) with ⟨_ | _, w⟩ <;> rfl

theorem settles_failing (h : c.Kept (k :: lost)) (hk : k ∉ lost) (cause : Failure) :
    let op : Op Turn := do return failed k cause (← withLine k (Line.stop .null))
    c.Settles lost (op.run.run c).1 (op.run.run c).2 := by
  intro op
  rw [run_turn]
  exact settles_winds (closes_failed k cause) h hk (Line.winds_stop (.refl _))

/-! ## The start of a server -/

/-- The server runs, and its session is registered; a session that has the name is lost. -/
theorem settles_greeted (h : c.Kept (k :: lost)) (hk : k ∉ lost) {name : Json} {found : Option Nat}
    (hfind : c.find? name = .ok found) (next : Option Visit) (label : Json) :
    c.Settles (found.toList ++ lost) ((started k name next (.ok (.finished label))).run.run c).1
      ((started k name next (.ok (.finished label))).run.run c).2 := by
  let c₁ := c.editSeat k fun s => { s with started := c.host.now }
  have habides : c.Abides c₁ := .editSeat h.filed (fun _ => rfl) ((h.filed k).of_eq rfl rfl)
  have hkept : (c₁.enroll name k).Kept (found.toList ++ lost) := (h.abides habides).enroll hk hfind
  have hsame : (c₁.enroll name k).ledger = c.ledger ∧ (c₁.enroll name k).seats.length = c.seats.length := by
    obtain ⟨key, hkey, -⟩ := key_of_find hfind
    obtain ⟨first, henroll⟩ := enroll_eq (c := c₁) hkey k
    rw [henroll]
    exact ⟨rfl, length_editSeat c k _⟩
  have hproceed (text : String) := says_proceed hkept.isSeated text next (c₁.enroll name k) (.refl hkept.filed)
  simp only [started, seat, run_bind, run_modify, run_get, run_pure]
  exact (Settles.of_speech hkept (hproceed _)).trans hsame.1 (Nat.le_of_eq hsame.2.symm)

theorem settles_started (h : c.Kept (k :: lost)) (hk : k ∉ lost) {name : Json} {found : Option Nat}
    (hfind : c.find? name = .ok found) (next : Option Visit) {r : Except Failure Standing}
    (hwaits : ∀ s, r = .ok (.waiting s) → ∃ wait id params, s = ⟨wait, .greeting id params false⟩) :
    c.Settles lost ((started k name next r).run.run c).1 ((started k name next r).run.run c).2 ∨
      (∃ label, r = .ok (.finished label)) ∧ ∃ j, found = some j ∧
        c.Settles (j :: lost) ((started k name next r).run.run c).1 ((started k name next r).run.run c).2 := by
  rcases r with cause | (label | s)
  · exact .inl (settles_failing h hk cause)
  · have hgreeted := settles_greeted h hk hfind next label
    cases found with
    | none => exact .inl hgreeted
    | some j => exact .inr ⟨⟨label, rfl⟩, j, rfl, hgreeted⟩
  · obtain ⟨wait, id, params, rfl⟩ := hwaits s rfl
    obtain ⟨key, hkey, -⟩ := key_of_find hfind
    refine .inl ⟨h, List.forall_mem_singleton.mpr hk, rfl, Nat.le_refl _, fun e he => ?_, fun e he s hs => ?_⟩
    · cases he
      exact .starting hkey
    · cases he
      cases hs
      exact .greeting

/-- A line without a process gets a new one. -/
theorem Kept.spawn (h : c.Kept (k :: lost)) (hnone : (c.seatAt k).line.process = none) {w : Wired} {p : Nat}
    (hw : Line.Spawned (c.wired k) w p) : (c.rewire k w).Kept (k :: lost) := by
  refine h.rewire (Nat.le_of_lt (Nat.lt_of_le_of_lt hw.fresh hw.count)) (fun n hn => hw.ended n ?_) (fun p' hp => ?_)
    (fun p' hp => ?_) hw.truthful
  · rintro rfl
    exact hn hw.process
  · rw [hw.process] at hp
    cases hp
    exact ⟨hw.fresh, hw.count⟩
  · rw [hnone] at hp
    cases hp

/-- A session is started under a name that nobody has. -/
theorem settles_opening (h : c.Kept lost) {name : Json} (hfind : c.find? name = .ok none) (next : Option Visit)
    {s : Seat} (hprocess : s.line.process = none) (hsettled : s.line.settled = [])
    (hattachments : s.session.attachments = []) :
    let c₁ : Console := { c with seats := c.seats ++ [s] }
    let out := (Line.start s.session.settings Line.startTimeout false).run.run (c₁.wired c.seats.length)
    let ended := (started c.seats.length name next out.1).run.run (c₁.rewire c.seats.length out.2)
    c.Settles lost ended.1 ended.2 := by
  intro c₁ out ended
  let k := c.seats.length
  have hkept : c₁.Kept (k :: lost) := h.append hprocess hsettled hattachments
  have hk : k ∉ lost := fun hmem => Nat.lt_irrefl _ (h.gone k hmem).2
  have hnone : (c₁.seatAt k).line.process = none := by
    rw [seatAt_append, if_pos rfl]
    exact hprocess
  have hbegins : Line.Begins (c₁.wired k) false out.1 out.2 := Line.begins_start _ _ _
  clear_value out
  obtain ⟨r, w⟩ := out
  have habide (hw : (c₁.wired k).Abides w) : (c₁.rewire k w).Kept (k :: lost) := hkept.abides (.rewire hkept.filed hw)
  have hstarted (hw : (c₁.rewire k w).Kept (k :: lost))
      (hwaits : ∀ s, r = .ok (.waiting s) → ∃ wait id params, s = ⟨wait, .greeting id params false⟩) :
      c.Settles lost ((started k name next r).run.run (c₁.rewire k w)).1
        ((started k name next r).run.run (c₁.rewire k w)).2 := by
    rcases settles_started hw hk hfind next hwaits with hsettles | ⟨-, j, hj, -⟩
    · refine hsettles.trans rfl ?_
      rw [length_rewire, List.length_append]
      exact Nat.le_add_right _ _
    · cases hj
  cases hbegins with
  | greets hgreets =>
    cases hgreets with
    | ends habides => exact hstarted (habide habides) fun s hs => by cases hs
    | fails habides => exact hstarted (habide habides) fun s hs => by cases hs
    | winds hbrief _ => cases hbrief
  | waits hspawned =>
    refine hstarted (hkept.spawn hnone hspawned) fun s hs => ?_
    cases hs
    exact ⟨_, _, _, rfl⟩
  | fails hspawned => exact hstarted (hkept.spawn hnone hspawned) fun s hs => by cases hs

/-- A session that has the name, and whose line is not read any more, is lost. -/
theorem settles_startSession (h : c.Kept lost) (workdir name config environment : Json) (next : Option Visit) :
    let out := (startSession workdir name config environment next).run.run c
    c.Settles lost out.1 out.2 ∨
      ∃ k, c.find? name = .ok (some k) ∧ (c.wired k).isRunning = false ∧ c.Settles (k :: lost) out.1 out.2 := by
  intro out
  simp only [out, startSession, run_bind, run_get, run_lift]
  cases hfind : c.find? name with
  | error cause => exact .inl (.error h _)
  | ok found =>
    simp only
    by_cases hrunning : (found.map fun k => (c.wired k).isRunning).getD false = true
    · rw [if_pos hrunning]
      exact .inl (.of_speech h (says_proceed h.isSeated _ next c (.refl h.filed)))
    · rw [if_neg hrunning]
      obtain ⟨key, hkey, -⟩ := key_of_find hfind
      have hdismiss := dismiss_eq (c := c) hkey
      have hkept := h.dismiss hfind
      have hgone := find_dismiss hfind
      have hseats : c.seats.length = (c.dismiss name).seats.length := by rw [hdismiss]
      have hconclude {r : Except Failure Turn} {c' : Console}
          (hsettles : (c.dismiss name).Settles (found.toList ++ lost) r c') :
          c.Settles lost r c' ∨ ∃ k, (Except.ok found : Except Failure (Option Nat)) = .ok (some k) ∧
            (c.wired k).isRunning = false ∧ c.Settles (k :: lost) r c' := by
        have hsame : c.Settles (found.toList ++ lost) r c' := hsettles.trans (by rw [hdismiss]; rfl) (Nat.le_of_eq hseats)
        cases found with
        | none => exact .inl hsame
        | some k => exact .inr ⟨k, rfl, Bool.not_eq_true _ |>.mp hrunning, hsame⟩
      refine hconclude ?_
      simp only [run_bind, run_modify, run_lift, hseats]
      cases c.resolve workdir with
      | error cause => exact .error hkept _
      | ok path =>
        simp only [run_ite]
        by_cases hexists : (!c.files.exists? path) = true
        · rw [if_pos hexists]
          exact .said hkept _
        · rw [if_neg hexists]
          simp only [run_bind, run_lift]
          cases hcreate : Session.create config Progress.defaultNamespace with
          | error cause => exact .error hkept _
          | ok session =>
            let seat : Seat := ⟨.fresh path.text serverCommand environment [Encoding.defaultName], session, [], [],
              (c.dismiss name).host.now, path⟩
            simp only [run_modify, run_attempt, run_withLine]
            exact settles_opening (s := seat) hkept hgone next rfl rfl (Session.attachments_create hcreate).1

/-- A file is visited in a session that runs, or one is started for it. -/
theorem settles_visit (h : c.Kept lost) (v : Visit) :
    let out := (visit v).run.run c
    c.Settles lost out.1 out.2 ∨
      ∃ k, c.find? v.session = .ok (some k) ∧ (c.wired k).isRunning = false ∧ c.Settles (k :: lost) out.1 out.2 := by
  intro out
  simp only [out, visit, run_bind, run_get, run_lift]
  cases c.resolve v.file with
  | error cause => exact .inl (.error h _)
  | ok path =>
    simp only [run_ite]
    by_cases hexists : (!c.files.exists? path) = true
    · rw [if_pos hexists]
      exact .inl (.said h _)
    · rw [if_neg hexists]
      simp only [run_bind, run_lift]
      generalize (if v.workdir.truthy = true then v.workdir else .text path.parent.text) = workdir
      have hstart := settles_startSession h workdir v.session .null .null (some v)
      -- What is started is a name from here on, so that it is not run again where it is compared.
      obtain ⟨op, hop⟩ : ∃ op, startSession workdir v.session .null .null (some v) = op := ⟨_, rfl⟩
      rw [hop] at hstart ⊢
      cases hfind : c.find? v.session with
      | error cause => exact .inl (.error h _)
      | ok found =>
        rw [hfind] at hstart
        cases found with
        | none => exact hstart
        | some k =>
          simp only [run_ite]
          by_cases hrunning : (c.wired k).isRunning = true
          · rw [if_pos hrunning]
            exact .inl (.of_speech h (says_enter (h.isSeated.find hfind) v c (.refl h.filed)))
          · rw [if_neg hrunning]
            exact hstart

/-! ## Tools -/

theorem settles_stop (h : c.Kept lost) (name : Json) :
    c.Settles lost ((stop name).run.run c).1 ((stop name).run.run c).2 := by
  simp only [stop, run_bind, run_get, run_ite, run_pure, run_lift]
  by_cases hempty : c.registry.isEmpty = true
  · rw [if_pos hempty]
    exact .said h _
  · rw [if_neg hempty]
    cases hfind : c.find? name with
    | error cause => exact .error h _
    | ok found =>
      cases found with
      | none => exact .said h _
      | some k =>
        obtain ⟨key, hkey, -⟩ := key_of_find hfind
        have hdismissed := h.dismiss hfind
        have hk : k ∉ lost := fun hmem => (h.gone k hmem).1 (mem_attended_of_find hfind)
        have hsame : (c.dismiss name).ledger = c.ledger ∧ (c.dismiss name).seats = c.seats := by
          rw [dismiss_eq hkey]
          exact ⟨rfl, rfl⟩
        -- The session lets its buffers go, which cannot fail.
        obtain ⟨d, hd⟩ := Desk.run_shutdown (hdismissed.filed k)
        have habides : Ensures (c.dismiss name).Abides (withDesk k Desk.shutdown) fun _ => (c.dismiss name).Abides :=
          .withDesk fun _ u => u.shutdown
        have hshut := habides (c.dismiss name) (.refl hdismissed.filed)
        rw [run_withDesk, hd] at hshut
        have hkept := hdismissed.abides hshut
        have hrun : (do
              modify (·.dismiss name)
              withDesk k Desk.shutdown
              return stopped k name (← withLine k (Line.stop .null)) : Op Turn).run.run c =
            (do return stopped k name (← withLine k (Line.stop .null)) : Op Turn).run.run
              ((c.dismiss name).putDesk k d) := by
          rw [run_bind, run_modify]
          simp only
          rw [run_bind, run_withDesk, hd]
        simp only
        rw [hrun, run_turn]
        have hseats := hshut.seats.trans (congrArg List.length hsame.2)
        refine Settles.trans ?_ (hshut.ledger.trans hsame.1) (Nat.le_of_eq hseats.symm)
        exact settles_winds (closes_stopped k name) hkept hk (Line.winds_stop (.refl _))

/-- The session that a tool starts if it does not run. -/
def starts? : Tool → Option Json
  | .start _ name _ _ => some name
  | .visit v => some v.session
  | _ => none

theorem settles_run (h : c.Kept lost) (tool : Tool) :
    c.Settles lost ((run tool).run.run c).1 ((run tool).run.run c).2 ∨
      ∃ name k, starts? tool = some name ∧ c.find? name = .ok (some k) ∧ (c.wired k).isRunning = false ∧
        c.Settles (k :: lost) ((run tool).run.run c).1 ((run tool).run.run c).2 := by
  have hspeech {op : Op String} (hop : Ensures c.Abides op fun _ => c.Abides) :
      c.Settles lost ((do return .said (← op) : Op Turn).run.run c).1 ((do return .said (← op) : Op Turn).run.run c).2 :=
    .of_speech h (Ensures.step hop (fun _ => says_said _) says_error c (.refl h.filed))
  cases tool with
  | start workdir name config environment =>
    refine (settles_startSession h workdir name config environment none).imp_right ?_
    rintro ⟨k, hfind, hrunning, hsettles⟩
    exact ⟨name, k, rfl, hfind, hrunning, hsettles⟩
  | visit v =>
    refine (settles_visit h v).imp_right ?_
    rintro ⟨k, hfind, hrunning, hsettles⟩
    exact ⟨v.session, k, rfl, hfind, hrunning, hsettles⟩
  | stop name => exact .inl (settles_stop h name)
  | sessions => exact .inl (hspeech .sessionTable)
  | close file name => exact .inl (hspeech (.close file name))
  | reload file name => exact .inl (hspeech (.reload file name))
  | view room name => exact .inl (hspeech (.view room name))
  | highlights file name => exact .inl (hspeech (.highlights file name))
  | configure update toggle name => exact .inl (hspeech (.configure update toggle name))
  | refuse text => exact .inl (.said h _)

/-! ## Calls that go on -/

/-- The seats that are lost when a call goes on: a server runs now under a name that was registered for another one, or
a server does not stop, as it answered the request to shut down with an error that is no object, or has not ended in time
and may not be killed. -/
inductive Drops (c : Console) (late : Bool) : Errand → Nat → Prop
  | displaced {j k : Nat} {s : Suspended} {name label : Json} {next : Option Visit}
      (hgreets : ((Line.resume late s).run.run (c.wired k)).1 = .ok (.finished label))
      (hfind : c.find? name = .ok (some j)) : Drops c late ⟨k, .line s, .starting name next⟩ j
  | refused {k id : Nat} {wait : Wait} {purpose : Purpose} {message : Json} (htends : purpose.tends = true)
      (hanswer : Keyed.get? id (c.wired k).line.settled = some (.ok message)) (hodd : message.IsOddRefusal) :
    Drops c late ⟨k, .line ⟨wait, .parting id .null⟩, purpose⟩ k
  | withstood {k p : Nat} {wait : Wait} {purpose : Purpose} (htends : purpose.tends = true) (hlate : late = true)
      (hp : (c.wired k).line.process = some p) (hrefuses : c.host.refusesKill p = true) :
    Drops c late ⟨k, .line ⟨wait, .terminating .null⟩, purpose⟩ k

/-- A call that stops a server goes on. -/
theorem settles_parts (hcloses : Closes k purpose turn) (h : c.Kept (k :: lost)) (hk : k ∉ lost) {s : Suspended}
    {late : Bool}
    (hresult : s.plan.result? = some .null) (hminds : (c.wired k).Minds s)
    (hover : (if late then c.isLate ⟨k, .line s, purpose⟩ else c.isMet ⟨k, .line s, purpose⟩) = true) :
    let out := (do return turn (← withLine k (Line.resume late s)) : Op Turn).run.run c
    c.Settles lost out.1 out.2 ∨ ∃ j, Drops c late ⟨k, .line s, purpose⟩ j ∧ c.Settles (j :: lost) out.1 out.2 := by
  intro out
  have hparts := Line.parts_resume hresult hminds hover (h.isForgiven k)
  simp only [out, run_turn]
  generalize (Line.resume late s).run.run (c.wired k) = stood at hparts
  obtain ⟨standing, w⟩ := stood
  cases hparts with
  | winds hwinds => exact .inl (settles_winds hcloses h hk hwinds)
  | refused habides hplan hanswer hodd _ =>
    obtain ⟨wait, plan⟩ := s
    cases hplan
    refine .inr ⟨k, .refused hcloses.tends hanswer hodd, ?_⟩
    exact (Settles.error (h.abides (.rewire h.filed habides)) _).trans rfl (Nat.le_of_eq (length_rewire c k _).symm)
  | withstood habides hlate hplan hp hrefuses _ =>
    obtain ⟨wait, plan⟩ := s
    cases hplan
    refine .inr ⟨k, .withstood hcloses.tends hlate hp hrefuses, ?_⟩
    exact (Settles.error (h.abides (.rewire h.filed habides)) _).trans rfl (Nat.le_of_eq (length_rewire c k _).symm)

/-- A call that starts a server goes on. -/
theorem settles_greeting (h : c.Kept (k :: lost)) (hk : k ∉ lost) {name : Json} {key : Key} (hkey : name.key = .ok key)
    (id : Nat) (wait : Wait) (params : Json) (next : Option Visit) (late : Bool) :
    let e : Errand := ⟨k, .line ⟨wait, .greeting id params false⟩, .starting name next⟩
    let out := (resume late e).run.run c
    c.Settles lost out.1 out.2 ∨ ∃ j, Drops c late e j ∧ c.Settles (j :: lost) out.1 out.2 := by
  intro e out
  have hfind : c.find? name = .ok ((Keyed.get? key c.registry).map Registration.seat) := by
    rw [find?, hkey]
    rfl
  have hdisplaced {j : Nat} (hj : (Keyed.get? key c.registry).map Registration.seat = some j) {label : Json}
      (hlabel : ((Line.resume late ⟨wait, .greeting id params false⟩).run.run (c.wired k)).1 = .ok (.finished label)) :
      Drops c late e j := .displaced hlabel (hj ▸ hfind)
  have hresume := Line.resume_cases late ⟨wait, .greeting id params false⟩ (c.wired k)
  simp only [out, e, resume, onLine, run_bind, run_attempt, run_withLine]
  generalize (Line.resume late ⟨wait, .greeting id params false⟩).run.run (c.wired k) = stood at hresume hdisplaced
  obtain ⟨r, w⟩ := stood
  have hstarted (habides : (c.wired k).Abides w)
      (hwaits : ∀ s, r = .ok (.waiting s) → ∃ wait id params, s = ⟨wait, .greeting id params false⟩) :
      c.Settles lost ((started k name next r).run.run (c.rewire k w)).1
          ((started k name next r).run.run (c.rewire k w)).2 ∨
        ∃ j, Drops c late e j ∧ c.Settles (j :: lost) ((started k name next r).run.run (c.rewire k w)).1
          ((started k name next r).run.run (c.rewire k w)).2 := by
    have hkept : (c.rewire k w).Kept (k :: lost) := h.abides (.rewire h.filed habides)
    have hseats := Nat.le_of_eq (length_rewire c k w).symm
    rcases settles_started hkept hk hfind next hwaits with hsettles | ⟨⟨label, hlabel⟩, j, hj, hsettles⟩
    · exact .inl (hsettles.trans rfl hseats)
    · exact .inr ⟨j, hdisplaced hj hlabel, hsettles.trans rfl hseats⟩
  rcases hresume with ⟨ending, -, hrun⟩ | ⟨_, _, _, _, limit, -, -, -, hrun⟩
  · have hgreets := @Line.greets_greeting (c.wired k) id params false ending
    rw [← hrun] at hgreets
    cases hgreets with
    | ends habides => exact hstarted habides fun s hs => by cases hs
    | fails habides => exact hstarted habides fun s hs => by cases hs
    | winds hbrief _ => cases hbrief
  · cases hrun
    refine hstarted (.refl _) fun s hs => ?_
    cases hs
    exact ⟨_, _, _, rfl⟩

theorem settles_resume {e : Errand} (h : c.Kept (e.tended ++ lost)) (hout : ∀ k ∈ e.tended, k ∉ lost) (hfits : e.Fits)
    (hminds : ∀ s, e.wait = .line s → (c.wired e.seat).Minds s) {late : Bool}
    (hover : (if late then c.isLate e else c.isMet e) = true) :
    c.Settles lost ((resume late e).run.run c).1 ((resume late e).run.run c).2 ∨
      ∃ k, Drops c late e k ∧ c.Settles (k :: lost) ((resume late e).run.run c).1 ((resume late e).run.run c).2 := by
  cases hfits with
  | plain hplain =>
    have htended : e.tended = [] := if_neg (Bool.eq_false_iff.mp hplain.purpose)
    rw [htended] at h
    exact .inl (.of_speech h (says_resume late hplain c (.refl h.filed)))
  | @starting k id wait params name next key hkey =>
    exact settles_greeting h (hout k List.mem_cons_self) hkey id wait params next late
  | @failing k s cause hresult =>
    exact settles_parts (closes_failed k cause) h (hout k List.mem_cons_self) hresult (hminds s rfl) hover
  | @stopping k s name hresult =>
    exact settles_parts (closes_stopped k name) h (hout k List.mem_cons_self) hresult (hminds s rfl) hover

end CoqConsole.Console
