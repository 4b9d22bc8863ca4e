import CoqConsole.Proofs.Console.Arguments
import CoqConsole.Proofs.Console.Sanity

/-!
# What tasks have to fear

Each task and each call that waits fails for a few hazards only, if its arguments can be used; all other failures become
part of what is said.

* `Aim.hazards`, `Task.hazards`, `Visit.hazards`, `Tool.hazards` : the hazards of each;
* `Errand.Faces` : a call that waits, and has to fear no more than some hazards;
* `Outset.Answers` : a turn at a seat that fails for some hazards only, now or later;
* `answers_follow`, `answers_answered`, `answers_send`, `answers_perform` : what is done with an open file.
-/

namespace CoqConsole

/-! ## Hazards -/

/-- What can go wrong with the answer to a request. -/
def Aim.hazards : Aim → List Hazard
  | .question _ => [.refusal, .display]
  | _ => [.refusal]

namespace Request

/-- What can go wrong with the answer to a request. -/
def hazards : Request → List Hazard
  | .question .. => [.refusal, .display]
  | _ => [.refusal]

end Request

def Task.hazards : Task → List Hazard
  | .report => [.mode]
  | .moveTo .. => [.mode, .link]
  | .interpret .. => [.link]
  | .step .. => [.link]
  | .search .. => [.pipe, .refusal]
  | .question .. => [.pipe, .refusal, .display]
  | .reset _ => [.pipe, .refusal]

def Hazard.ofStopping : List Hazard := [.refusal, .kill]

/-- What can go wrong with a visit: its session may have to be started, and the file to be opened. -/
def Visit.hazards (v : Visit) : List Hazard := Hazard.ofStopping ++ [.file v.file, .link, .mode] ++ v.task.hazards

def Tool.hazards : Tool → List Hazard
  | .start .. => Hazard.ofStopping
  | .sessions => [.mode]
  | .stop _ => Hazard.ofStopping
  | .visit v => v.hazards
  | .close .. => [.link]
  | .reload file _ => [.file file, .link]
  | .view .. => []
  | .highlights .. => []
  | .configure .. => [.mode, .link]
  | .refuse _ => []

/-- What follows a request can be done. -/
inductive Sequel.IsApt : Sequel → Prop
  | collect {wait : Json} {room : Int} (hwait : wait.IsSeconds) : IsApt (.collect wait (.int room))
  | show {room : Int} : IsApt (.show (.int room))
  | confirm {uri : String} : IsApt (.confirm uri)

/-- A call that waits can go on, and has to fear no more than some hazards. -/
inductive Errand.Faces (hazards : List Hazard) : Errand → Prop
  | starting {k : Nat} {wait : Awaiting} {name : String} {next : Option Visit}
      (hnext : ∀ v, next = some v → v.IsApt ∧ v.session = .text name ∧ v.hazards ⊆ hazards)
      (hstops : Hazard.ofStopping ⊆ hazards) :
    Faces hazards ⟨k, wait, .starting (.text name) next⟩
  | failing {k : Nat} {wait : Awaiting} {cause : Failure} (hstops : Hazard.ofStopping ⊆ hazards) :
    Faces hazards ⟨k, wait, .failing cause⟩
  | settling {k n : Nat} {wait : Awaiting} {v : Visit} (htask : v.task.IsApt) (hsub : v.task.hazards ⊆ hazards) :
    Faces hazards ⟨k, wait, .settling v n⟩
  | viewing {k : Nat} {wait : Awaiting} {timeout : Json} {room : Int} : Faces hazards ⟨k, wait, .viewing timeout (.int room)⟩
  | asking {k : Nat} {wait : Awaiting} {query : Query} {sequel : Sequel} (hsequel : sequel.IsApt)
      (hpipe : .pipe ∈ hazards) (hsub : query.aim.hazards ⊆ hazards) (htimed : ∀ s, wait = .line s → s.wait.IsTimed) :
    Faces hazards ⟨k, wait, .asking query sequel⟩
  | collecting {k : Nat} {wait : Awaiting} {room : Int} : Faces hazards ⟨k, wait, .collecting (.int room)⟩
  | stopping {k : Nat} {wait : Awaiting} {name : Json} (hstops : Hazard.ofStopping ⊆ hazards) :
    Faces hazards ⟨k, wait, .stopping name⟩

namespace Console

variable {c : Console} {o : Outset} {k : Nat} {hazards : List Hazard}

/-- A turn at a seat fails for some hazards only, and so will its call, at that seat, if it waits. -/
def Outset.Answers (o : Outset) (k : Nat) (hazards : List Hazard) (r : Except Failure Turn) (c : Console) : Prop :=
  o.Blamed k hazards r c ∧ ∀ e, r = .ok (.awaits e) → e.seat = k ∧ e.Faces hazards

theorem answers_error {cause : Failure} (h : o.Blamed k hazards (.error cause : Except Failure Turn) c) :
    o.Answers k hazards (.error cause) c := ⟨h, fun _ he => by cases he⟩

theorem answers_said (text : String) : Ensures (At k) (Pure.pure (.said text) : Op Turn) (o.Answers k hazards) :=
  .pure fun _ h => ⟨.ok h _, fun _ he => by cases he⟩

theorem answers_awaits {e : Errand} (hseat : e.seat = k) (hfaces : e.Faces hazards) :
    Ensures (At k) (Pure.pure (.awaits e) : Op Turn) (o.Answers k hazards) :=
  .pure fun _ h => ⟨.ok h _, fun _ he => by
    cases he
    exact ⟨hseat, hfaces⟩⟩

/-- A step is to blame for no more than the turn. -/
theorem answers_bind {α : Type} {P : Console → Prop} {op : Op α} {next : α → Op Turn} {first : List Hazard}
    (hop : Ensures P op (o.Blamed k first)) (hsub : first ⊆ hazards)
    (hnext : ∀ a, Ensures (At k) (next a) (o.Answers k hazards)) : Ensures P (op >>= next) (o.Answers k hazards) :=
  hop.bind (fun a => (hnext a).imp (fun _ h => h.1) fun _ _ h => h) fun cause _ h => answers_error ⟨h.1, fun cause' he => by
    cases he
    exact (h.2 cause rfl).imp fun _ hf => ⟨hsub hf.1, hf.2⟩⟩

theorem answers_get {next : Console → Op Turn} (hnext : ∀ a, Ensures (At k) (next a) (o.Answers k hazards)) :
    Ensures (At k) (get >>= next) (o.Answers k hazards) :=
  answers_bind Blamed.get (List.nil_subset _) hnext

/-- Whatever comes of an attempt, what follows goes on with it. -/
theorem answers_attempt {α : Type} {P : Console → Prop} {op : Op α} {next : Except Failure α → Op Turn}
    (hop : Ensures P op fun _ => P) (hnext : ∀ r, Ensures P (next r) (o.Answers k hazards)) :
    Ensures P (attempt op >>= next) (o.Answers k hazards) := by
  intro c h
  rw [run_bind, run_attempt]
  exact hnext _ _ (hop c h)

/-! ## What is said -/

theorem exists_truncate (output : String) (room : Int) : ∃ text, Wording.truncate output (.int room) = .ok text := by
  simp only [Wording.truncate, Json.toScalar, Json.scalar?, bind, Except.bind]
  split
  · exact ⟨_, rfl⟩
  · split
    · exact ⟨_, rfl⟩
    · exact ⟨_, rfl⟩

theorem answers_say (output : String) (room : Int) : Ensures (At k) (say output (.int room)) (o.Answers k hazards) := by
  obtain ⟨text, htext⟩ := exists_truncate output room
  exact Ensures.lift_ok htext (answers_said text)

theorem answers_session {P : Console → Prop} {next : Session → Op Turn}
    (hnext : ∀ s, Ensures P (next s) (o.Answers k hazards)) : Ensures P (session k >>= next) (o.Answers k hazards) :=
  fun c h => hnext (c.seatAt k).session c h

theorem answers_showResults (room : Int) : Ensures (At k) (showResults k (.int room)) (o.Answers k hazards) :=
  answers_session fun _ => answers_say _ room

theorem answers_awaitView {timeout : Json} (htimeout : timeout.IsSeconds) (room : Int) :
    Ensures (At k) (awaitView k timeout (.int room)) (o.Answers k hazards) := by
  refine answers_get fun c => ?_
  obtain ⟨limit, hlimit⟩ := htimeout.exists_limit c.host.now
  exact Ensures.lift_ok hlimit (answers_awaits rfl .viewing)

/-! ## Requests -/

theorem answers_follow {sequel : Sequel} (h : sequel.IsApt) : Ensures (At k) (follow k sequel) (o.Answers k hazards) := by
  cases h with
  | @collect wait room hwait =>
    obtain ⟨pause, hpause⟩ := hwait
    refine Ensures.lift_ok hpause (.ite (fun _ => ?_) fun _ => answers_showResults room)
    exact answers_get fun c => answers_awaits rfl .collecting
  | @«show» room => exact answers_session fun _ => answers_say _ room
  | confirm => exact answers_said _

/-- A request ends by its answer. It fails as the failure is not noted, or as the answer to a question cannot be shown. -/
theorem answers_answered (h : c.At k) {query : Query} {sequel : Sequel} (hsequel : sequel.IsApt)
    {answer : Except Failure Json}
    (hfails : ∀ cause, answer = .error cause → cause.isNoted = false → ∃ hazard ∈ hazards, o.Shows k c hazard cause)
    (hshown : ∀ ticket value cause, query.aim = .question ticket → answer = .ok value → renderAnswer value = .error cause →
      ∃ hazard ∈ hazards, o.Shows k c hazard cause) :
    o.Answers k hazards ((answered k query sequel answer).run.run c).1 ((answered k query sequel answer).run.run c).2 := by
  have hsound := (Desk.Sound.upkeep steady_lineCarrier).note.finish query answer (c.desk k) (h.desks k)
  have hcause (cause : Failure) (he : ((Desk.finish query answer).run.run (c.desk k)).1 = .error cause) :=
    Desk.finish_fails he
  simp only [answered, run_bind, run_withDesk]
  generalize (Desk.finish query answer).run.run (c.desk k) = out at hsound hcause
  obtain ⟨r, d⟩ := out
  cases r with
  | error cause =>
    obtain ⟨hsame, hwhy⟩ := hcause cause rfl
    have hsame : d = c.desk k := hsame
    simp only [hsame, putDesk_desk]
    refine answers_error ⟨h, fun cause' he => ?_⟩
    cases he
    rcases hwhy with ⟨hanswer, hnoted⟩ | ⟨ticket, value, haim, hanswer, hrender⟩
    · exact hfails cause hanswer hnoted
    · exact hshown ticket value cause haim hanswer hrender
  | ok shown =>
    have hsaid : Ensures (At k) (if shown = true then follow k sequel
        else do return .said (Wording.lastNotice (← session k)) : Op Turn) (o.Answers k hazards) :=
      .ite (fun _ => answers_follow hsequel) fun _ => answers_session fun _ => answers_said _
    exact hsaid _ (h.putDesk hsound)

theorem answers_pursue (h : c.At k) {query : Query} {sequel : Sequel} (hsequel : sequel.IsApt)
    (hpipe : .pipe ∈ hazards) (hsub : query.aim.hazards ⊆ hazards) {r : Except Failure Standing}
    (htimed : ∀ s, r = .ok (.waiting s) → s.wait.IsTimed)
    (hfails : ∀ cause, r = .error cause → cause.isNoted = false → ∃ hazard ∈ hazards, o.Shows k c hazard cause)
    (hshown : ∀ ticket value cause, query.aim = .question ticket → r = .ok (.finished value) →
      renderAnswer value = .error cause → ∃ hazard ∈ hazards, o.Shows k c hazard cause) :
    o.Answers k hazards ((pursue k query sequel r).run.run c).1 ((pursue k query sequel r).run.run c).2 := by
  rcases r with cause | (value | call)
  · refine answers_answered h hsequel (fun cause' he => ?_) fun _ _ _ _ he => by cases he
    cases he
    exact hfails cause rfl
  · refine answers_answered h hsequel (fun _ he => by cases he) fun ticket value' cause haim he => ?_
    cases he
    exact hshown ticket value cause haim rfl
  · refine answers_awaits rfl (.asking hsequel hpipe hsub fun s hs => ?_) c h
    cases hs
    exact htimed call rfl

theorem hazards_begin {n : Nat} {timeout : Json} {request : Request} {d : Desk Wired} {query : Query}
    (h : ((Desk.begin lineCarrier n timeout request).run.run d).1 = .ok query) : query.aim.hazards = request.hazards := by
  obtain ⟨o, hrun, haim⟩ := Desk.run_begin lineCarrier d n timeout request
  rw [hrun] at h
  have haim := haim query h
  cases request with
  | search pattern p =>
    rw [← Option.some.inj haim]
    rfl
  | question kind pattern p =>
    unfold Tickets.aim? at haim
    simp only at haim
    split at haim
    · rw [← Option.some.inj haim]
      rfl
    · cases haim
  | reset =>
    rw [← Option.some.inj haim]
    rfl

/-- A request is made. A server that is not there is noted; a pipe that breaks is not. -/
theorem answers_send (n : Nat) {request : Request} (hplaced : request.IsPlaced) {timeout : Json}
    (htimeout : timeout.IsSeconds) {sequel : Sequel} (hsequel : sequel.IsApt) (hpipe : .pipe ∈ hazards)
    (hsub : request.hazards ⊆ hazards) : Ensures (At k) (send k n request timeout sequel) (o.Answers k hazards) := by
  intro c h
  have hbegin : Ensures (At k) (withDesk k (Desk.begin lineCarrier n timeout request)) (o.Blamed k []) :=
    blamed_withDesk (Desk.blamed_begin n timeout hplaced)
  have hbegun := hbegin c h
  have hquery (query : Query)
      (hq : ((withDesk k (Desk.begin lineCarrier n timeout request)).run.run c).1 = .ok query) :
      query.aim.hazards = request.hazards ∧ query.timeout = timeout := by
    rw [run_withDesk] at hq
    exact ⟨hazards_begin hq, (Desk.query_begin hq).2⟩
  simp only [send, run_bind]
  generalize (withDesk k (Desk.begin lineCarrier n timeout request)).run.run c = out at hbegun hquery
  obtain ⟨r, c₁⟩ := out
  cases r with
  | error cause =>
    obtain ⟨hazard, hmem, -⟩ := hbegun.2 cause rfl
    cases hmem
  | ok query =>
    obtain ⟨haim, hlimit⟩ := hquery query rfl
    have hcounts := Wired.Counts.service.ask (.text query.method) query.params query.timeout (c₁.wired k)
      (hbegun.1.desks k).counted
    have hlimit : ∀ now, ∃ limit, Limit.after now query.timeout = .ok limit := hlimit ▸ htimeout.exists_limit
    have hsends := Line.sends_ask (.text query.method) query.params hlimit (c₁.wired k)
    simp only [run_attempt, run_withLine]
    generalize (Line.ask (.text query.method) query.params query.timeout).run.run (c₁.wired k) = out at hcounts hsends
    obtain ⟨r, w⟩ := out
    obtain ⟨hsends, hunfinished, htimed⟩ := hsends
    have hat : (c₁.rewire k w).At k := hbegun.1.rewire hcounts
    refine answers_pursue hat hsequel hpipe (haim ▸ hsub) htimed (fun cause he hnoted => ?_)
      fun _ value _ _ he => absurd he (hunfinished value)
    cases he
    cases hsends with
    | silent _ => cases hnoted
    | broken hprocess hbreaks =>
      refine ⟨.pipe, hpipe, .inl ⟨_, _, ?_, hbreaks⟩, rfl⟩
      rw [line_rewire, if_pos ⟨rfl, hbegun.1.there⟩]
      exact hprocess

/-! ## Tasks -/

theorem blamed_proofMode : Ensures (At k) (proofMode k) (o.Blamed k [.mode]) := blamed_withDesk Desk.blamed_proofMode

theorem isWhole_fromOne (line col : Int) : (⟨Tool.fromOne (.whole line), Tool.fromOne (.whole col)⟩ : Position).IsWhole := by
  have hwhole (n : Int) : (Tool.fromOne (.whole n)).index?.isSome = true := by
    unfold Tool.fromOne Scalar.max
    split <;> rfl
  exact ⟨hwhole line, hwhole col⟩

/-- A line and a column that are whole numbers make a place; so does no line. -/
theorem exists_place {line : Json} (hline : line = .null ∨ ∃ n, line = .int n) (col : Int) :
    ∃ p, Tool.place line (.int col) = .ok p ∧ p.IsWhole := by
  rcases hline with rfl | ⟨n, rfl⟩
  · exact ⟨.cursor, rfl, .cursor⟩
  · exact ⟨.ofPosition ⟨Tool.fromOne (.whole n), Tool.fromOne (.whole col)⟩, rfl, .ofPosition (isWhole_fromOne n col)⟩

theorem answers_perform (n : Nat) {task : Task} (h : task.IsApt) (hsub : task.hazards ⊆ hazards) :
    Ensures (At k) (perform k n task) (o.Answers k hazards) := by
  have hmode (hmem : .mode ∈ hazards) : [Hazard.mode] ⊆ hazards := List.cons_subset.mpr ⟨hmem, List.nil_subset _⟩
  cases h with
  | report =>
    refine answers_bind blamed_proofMode hsub fun mode => ?_
    exact answers_get fun c => answers_said _
  | @moveTo line col room timeout htimeout =>
    refine Ensures.lift_ok (a := ⟨Tool.fromOne (.whole line), Tool.fromOne (.whole col)⟩) rfl ?_
    have hmove := Desk.blamed_moveCursor steady_lineCarrier n (isWhole_fromOne line col)
    refine answers_bind (blamed_withDesk hmove) hsub fun _ => ?_
    refine answers_bind blamed_proofMode (hmode (hsub List.mem_cons_self)) fun mode => ?_
    exact .ite (fun _ => answers_awaitView htimeout room) fun _ => answers_get fun c => answers_said _
  | @interpret line timeout col room hline htimeout =>
    obtain ⟨p, hplace, hp⟩ := exists_place hline col
    refine Ensures.lift_ok hplace ?_
    refine answers_bind (blamed_withDesk (Desk.blamed_interpretTo steady_lineCarrier n hp)) hsub fun _ => ?_
    exact answers_awaitView htimeout room
  | @step direction timeout room htimeout =>
    refine answers_bind (blamed_withDesk (Desk.blamed_step steady_lineCarrier n direction)) hsub fun _ => ?_
    exact answers_awaitView htimeout room
  | @search pattern line wait timeout col room hline hwait htimeout =>
    obtain ⟨p, hplace, hp⟩ := exists_place hline col
    refine Ensures.lift_ok hplace ?_
    exact answers_send n (.search hp) htimeout (.collect hwait) (hsub List.mem_cons_self) (List.subset_of_cons_subset hsub)
  | @question kind pattern line timeout col room hkind hline htimeout =>
    obtain ⟨p, hplace, hp⟩ := exists_place hline col
    refine Ensures.lift_ok hplace ?_
    exact answers_send n (.question hkind hp) htimeout .show (hsub List.mem_cons_self) (List.subset_of_cons_subset hsub)
  | reset htimeout =>
    refine answers_get fun c => ?_
    exact answers_send n .reset htimeout .confirm (hsub List.mem_cons_self) (List.subset_of_cons_subset hsub)

end Console
end CoqConsole
