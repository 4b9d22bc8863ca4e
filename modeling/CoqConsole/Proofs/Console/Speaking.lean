import CoqConsole.Proofs.Console.Answering

/-!
# Tools that end at once

Tools that do not wait say something, or fail for one of their hazards. For those that do not change the settings it is
known exactly when.

* `owns_close`, `owns_reload`, `owns_highlights`, `owns_view`, `owns_configure`, `owns_sessionTable` : what they fail for;
* `Console.Faults` : when those fail that leave the settings alone; `fails_close_iff`, `fails_reload_iff`,
  `fails_sessionTable_iff` : that they fail then;
* `ends_run` : how all tools end.
-/

namespace CoqConsole.Console

variable {c : Console} {k : Nat} {tool : Tool}

/-! ## Tools that end at once -/

theorem run_proofMode (c : Console) (k : Nat) :
    (proofMode k).run.run c = (c.modeAt k, c) := by
  rw [proofMode, run_withDesk, Desk.run_proofMode]
  exact congrArg (Prod.mk _) (putDesk_desk c k)

theorem owns_said (h : c.Sane) (text : String) : Ensures (· = c) (Pure.pure text : Op String) (c.Owns tool) :=
  .pure fun _ hs => ⟨hs ▸ h, fun _ he => by cases he⟩

theorem owns_of_blamed (hat : c.IsAt tool k) (h : c.At k) {op : Op String}
    (hop : Ensures (At k) op (Outset.start.Blamed k tool.hazards)) : Ensures (· = c) op (c.Owns tool) := by
  rintro _ rfl
  obtain ⟨hafter, hblamed⟩ := hop _ h
  exact ⟨hafter.toSane, fun cause he => ⟨k, hat, hblamed cause he⟩⟩

/-- The seat and the buffer of a file that is open in a session. -/
def openAt? (c : Console) (file name : String) : Option (Nat × Nat) :=
  ((Keyed.get? (.text name) c.registry).map Registration.seat).bind fun k =>
    (Keyed.get? (Path.resolve c.host.cwd file) (c.seatAt k).documents).map (k, ·)

theorem run_opened (c : Console) (file name : String) :
    (opened (.text name) (.text file)).run.run c = (.ok (Path.resolve c.host.cwd file, c.openAt? file name), c) := by
  have hsame : c.openAt? file name = (do
      let k ← (Keyed.get? (.text name) c.registry).map Registration.seat
      let n ← Keyed.get? (Path.resolve c.host.cwd file) (c.seatAt k).documents
      return (k, n)) := by
    unfold openAt?
    cases (Keyed.get? (.text name) c.registry).map Registration.seat with
    | none => rfl
    | some k => exact Option.map_eq_bind
  rw [hsame]
  rfl

theorem find_of_openAt {file name : String} {n : Nat} (h : c.openAt? file name = some (k, n)) :
    c.find? (.text name) = .ok (some k) := by
  obtain ⟨k', hk, hdocument⟩ := Option.bind_eq_some_iff.mp h
  obtain ⟨n', -, heq⟩ := Option.map_eq_some_iff.mp hdocument
  cases heq
  exact congrArg Except.ok hk

theorem owns_close (h : c.Sane) (file name : String) :
    Ensures (· = c) (close (.text file) (.text name)) (c.Owns (.close (.text file) (.text name))) := by
  refine ensures_ok (run_opened c file name) ?_
  rcases hopen : c.openAt? file name with _ | ⟨k, n⟩
  · exact owns_said h _
  · have hfind := find_of_openAt hopen
    refine owns_of_blamed (.found rfl hfind) (h.at_of_find hfind) ?_
    let forget (s : Seat) : Seat := { s with documents := Keyed.erase (Path.resolve c.host.cwd file) s.documents }
    have hforget : Ensures (At k) (modify (·.editSeat k forget) : Op PUnit) (Outset.start.Blamed k []) :=
      .modify fun c' h' => ⟨h'.editSeat ((h'.desks k).of_eq rfl rfl rfl rfl), fun _ he => by cases he⟩
    have hclose : Ensures (At k) (withDesk k (Desk.closeBuffer lineCarrier n)) (Outset.start.Blamed k [.link]) :=
      blamed_withDesk (Desk.blamed_closeBuffer steady_lineCarrier n)
    refine Blamed.bind hforget (List.nil_subset _) fun _ => Blamed.bind hclose (List.Subset.refl _) fun _ => ?_
    exact Blamed.bind Blamed.get (List.nil_subset _) fun _ => Blamed.pure _

theorem owns_reload (h : c.Sane) (file name : String) :
    Ensures (· = c) (reload (.text file) (.text name)) (c.Owns (.reload (.text file) (.text name))) := by
  refine ensures_ok (run_opened c file name) ?_
  rcases hopen : c.openAt? file name with _ | ⟨k, n⟩
  · exact owns_said h _
  · have hfind := find_of_openAt hopen
    have hat : c.At k := h.at_of_find hfind
    refine ensures_ok (run_get c) ?_
    cases hread : c.files.readText (Path.resolve c.host.cwd file) with
    | error cause =>
      have hshows : Outset.start.Shows k c (.file (.text file)) cause := ⟨_, rfl, hread⟩
      have hthrow : Ensures (· = c) (throw cause : Op String) (c.Owns (.reload (.text file) (.text name))) :=
        .throw fun s hs => by
          obtain rfl : c = s := hs.symm
          refine ⟨h, fun cause' he => ?_⟩
          cases he
          exact ⟨k, .found rfl hfind, .file (.text file), List.mem_cons_self, hshows⟩
      cases cause <;> first | exact owns_said h _ | exact hthrow
    | ok text =>
      refine .ite (fun _ => owns_said h _) fun _ => owns_of_blamed (.found rfl hfind) hat ?_
      have hreplace : Ensures (At k) (withDesk k (Desk.replaceText lineCarrier n text)) (Outset.start.Blamed k [.link]) :=
        blamed_withDesk (Desk.blamed_replaceText steady_lineCarrier n text)
      refine Blamed.bind hreplace (by simp [Tool.hazards]) fun _ => ?_
      exact Blamed.bind Blamed.get (List.nil_subset _) fun _ => Blamed.pure _

theorem owns_highlights (h : c.Sane) (file name : String) :
    Ensures (· = c) (highlights (.text file) (.text name)) (c.Owns (.highlights (.text file) (.text name))) := by
  refine ensures_ok (run_opened c file name) ?_
  rcases hopen : c.openAt? file name with _ | ⟨k, n⟩
  · exact owns_said h _
  · exact ensures_ok (run_get c) (.ite (fun _ => owns_said h _) fun _ => owns_said h _)

theorem owns_view (h : c.Sane) (room : Int) (name : String) :
    Ensures (· = c) (view (.int room) (.text name)) (c.Owns (.view (.int room) (.text name))) := by
  refine ensures_ok (run_get c) (Ensures.lift_ok (find_text c name) ?_)
  cases (Keyed.get? (Key.text name) c.registry).map Registration.seat with
  | none => exact owns_said h _
  | some k =>
    obtain ⟨text, htext⟩ := exists_truncate (Wording.proofView (c.seatAt k).session) room
    have hsession : (session k).run.run c = (.ok (c.seatAt k).session, c) := rfl
    refine ensures_ok hsession (.lift fun _ hs => ?_)
    rw [htext]
    exact ⟨hs ▸ h, fun _ he => by cases he⟩

/-- The failures that are told apart are the fault of the new settings; the others, and a mode that cannot be read in the
end, are not caught. -/
theorem owns_configure (h : c.Sane) {update : Json} (hupdate : update.IsOverlay) (toggle : Bool) (name : String) :
    Ensures (· = c) (configure update toggle (.text name)) (c.Owns (.configure update toggle (.text name))) := by
  have hfind := find_text c name
  refine ensures_ok (run_get c) (Ensures.lift_ok hfind ?_)
  cases hget : (Keyed.get? (Key.text name) c.registry).map Registration.seat with
  | none => exact owns_said h _
  | some k =>
    have hfind : c.find? (.text name) = .ok (some k) := congrArg Except.ok hget
    refine owns_of_blamed (.found rfl hfind) (h.at_of_find hfind) ?_
    dsimp -zeta only
    extract_lets report conclude
    have hmode : Ensures (At k) (proofMode k) (Outset.start.Blamed k [.mode]) := blamed_proofMode
    have hreport (u : Unit) : Ensures (At k) (report u) (Outset.start.Blamed k [.mode, .link]) :=
      Blamed.bind hmode (by simp) fun _ => Blamed.pure _
    have hdone : Ensures (At k) (conclude (.ok ())) (Outset.start.Blamed k [.mode, .link]) := by
      refine .ite (fun _ => ?_) fun _ => hreport ()
      have htoggle : Ensures (At k) (withDesk k (Desk.toggleMode lineCarrier)) (Outset.start.Blamed k [.mode, .link]) :=
        blamed_withDesk (Desk.blamed_toggleMode steady_lineCarrier)
      exact Blamed.bind (Blamed.bind htoggle (List.Subset.refl _) fun _ => Blamed.pure _) (List.Subset.refl _) hreport
    refine .ite (fun htruthy => ?_) fun _ => ?_
    · obtain ⟨members, rfl⟩ : ∃ members, update = .object members := by
        rcases hupdate with rfl | hobject
        · cases htruthy
        · exact hobject
      have hsettings : Ensures (At k) (withDesk k (Desk.updateSettings lineCarrier (.object members)))
          (Outset.start.Blamed k [.mode, .link]) := blamed_withDesk (Desk.blamed_updateSettings steady_lineCarrier members)
      intro c' h'
      have hblamed := hsettings c' h'
      rw [run_bind, run_attempt]
      generalize (withDesk k (Desk.updateSettings lineCarrier (.object members))).run.run c' = out at hblamed
      obtain ⟨r, c''⟩ := out
      cases r with
      | ok u => exact hdone c'' hblamed.1
      | error cause =>
        have hthrow : Ensures (· = c'') (conclude (.error cause)) (Outset.start.Blamed k [.mode, .link]) :=
          .ite (fun _ => .pure fun _ hs => .ok (hs ▸ hblamed.1) _) fun _ => .throw fun _ hs =>
            hs ▸ ⟨hblamed.1, fun cause' he => by
              cases he
              exact hblamed.2 cause rfl⟩
        exact hthrow c'' rfl
    · rw [pure_bind]
      exact hdone

/-- The table cannot be shown if the mode of one session cannot be read, and is shown otherwise. -/
theorem run_sessionTable_cases (h : c.Sane) :
    (∃ text, sessionTable.run.run c = (.ok text, c) ∧ ∀ entry ∈ c.registry, ∃ mode, c.modeAt entry.2.seat = .ok mode) ∨
      ∃ cause, sessionTable.run.run c = (.error cause, c) ∧ ∃ entry ∈ c.registry, c.modeAt entry.2.seat = .error cause := by
  let shown (entry : Key × Registration) (mode : ProofMode) : String :=
    let s := c.seatAt entry.2.seat
    Wording.sessionRow entry.2.name.shown s.workdir.text (Time.micros c.host.now - Time.micros s.started)
      (c.wired entry.2.seat).isRunning mode (s.documents.map (·.1.name))
  rw [sessionTable, run_bind, run_get]
  simp only
  split
  · next hempty =>
    rw [List.isEmpty_iff.mp hempty]
    exact .inl ⟨_, rfl, List.forall_mem_nil _⟩
  · rw [run_bind]
    generalize hrow : (fun entry : Key × Registration => (_ : Op String)) = row
    have hrow (entry : Key × Registration) (hentry : entry ∈ c.registry) :
        (row entry).run.run c = ((c.modeAt entry.2.seat).map (shown entry), c) := by
      obtain ⟨name, hname⟩ := h.named entry hentry
      have hcell : Wording.nameCell entry.2.name = .ok entry.2.name.shown := by rw [hname]; rfl
      rw [← hrow]
      simp only [run_bind, run_proofMode]
      cases c.modeAt entry.2.seat with
      | error cause => rfl
      | ok mode =>
        simp only [run_lift, hcell]
        rfl
    rcases run_mapM_cases c.registry hrow with ⟨rows, hrun, hall⟩ | ⟨cause, hrun, entry, hentry, hcause⟩
    · rw [hrun]
      refine .inl ⟨_, rfl, fun entry hentry => ?_⟩
      obtain ⟨text, htext⟩ := hall entry hentry
      cases hmode : c.modeAt entry.2.seat with
      | ok mode => exact ⟨mode, rfl⟩
      | error cause =>
        rw [hmode] at htext
        cases htext
    · rw [hrun]
      refine .inr ⟨cause, rfl, entry, hentry, ?_⟩
      cases hmode : c.modeAt entry.2.seat with
      | ok mode =>
        rw [hmode] at hcause
        cases hcause
      | error cause' =>
        rw [hmode] at hcause
        cases hcause
        rfl

theorem owns_sessionTable (h : c.Sane) : Ensures (· = c) sessionTable (c.Owns .sessions) := by
  rintro _ rfl
  rcases run_sessionTable_cases h with ⟨text, hrun, -⟩ | ⟨cause, hrun, entry, hentry, hmode⟩
  · rw [hrun]
    exact ⟨h, fun _ he => by cases he⟩
  · rw [hrun]
    refine ⟨h, fun cause' he => ?_⟩
    cases he
    exact ⟨_, .listed hentry, .mode, List.mem_cons_self, hmode⟩

/-! ## All tools -/

theorem ends_speech {op : Op String} (hop : Ensures (· = c) op (c.Owns tool)) :
    Ensures (· = c) (do return .said (← op) : Op Turn) (c.Ends tool) :=
  hop.bind (fun text => .pure fun _ howns => ends_said howns.sane text) fun cause _ howns =>
    { sane := howns.sane
      fails := fun cause' he => by
        cases he
        exact howns.fails cause rfl
      waits := fun _ he => by cases he }

/-- A tool that can use its arguments fails for its hazards only. -/
theorem ends_run (h : c.Sane) (hshelves : ∀ entry ∈ c.registry, c.Shelves entry.2.seat) (htool : tool.IsApt) :
    Ensures (· = c) (run tool) (c.Ends tool) := by
  cases htool with
  | start hconfig => exact ends_startSession h hshelves _ rfl _ hconfig (fun _ he => by cases he) (List.Subset.refl _)
  | sessions => exact ends_speech (owns_sessionTable h)
  | stop => exact ends_stop h _
  | visit hv => exact ends_visit h hshelves hv
  | close => exact ends_speech (owns_close h _ _)
  | reload => exact ends_speech (owns_reload h _ _)
  | view => exact ends_speech (owns_view h _ _)
  | highlights => exact ends_speech (owns_highlights h _ _)
  | configure hupdate => exact ends_speech (owns_configure h hupdate _ _)
  | refuse => exact .pure fun _ hs => ends_said (hs ▸ h) _

/-! ## When they fail -/

/-- The tools that end at once and leave the settings alone. -/
def isBrief : Tool → Bool
  | .sessions | .close .. | .reload .. | .view .. | .highlights .. | .refuse _ => true
  | _ => false

/-- When such a tool fails: the table of sessions if the mode of one cannot be read; closing a file that its session holds
and whose server is not there to be told; reading a file again that is there and cannot be read, or has a new text of which
the server cannot be told. -/
inductive Faults (c : Console) : Tool → Prop
  | sessions {entry : Key × Registration} {cause : Failure} (hentry : entry ∈ c.registry)
      (hmode : c.modeAt entry.2.seat = .error cause) : Faults c .sessions
  | close {file name : String} {k n : Nat} (hopen : c.openAt? file name = some (k, n))
      (hbuffer : ((c.desk k).bufferAt n).closed = false) (hholds : (c.desk k).Holds n)
      (hdead : (c.wired k).isRunning = false) : Faults c (.close (.text file) (.text name))
  | unreadable {file name : String} {k n : Nat} {cause : Failure} (hopen : c.openAt? file name = some (k, n))
      (hread : c.files.readText (Path.resolve c.host.cwd file) = .error cause)
      (hthere : ∀ path, cause ≠ .missingFile path) : Faults c (.reload (.text file) (.text name))
  | reload {file name : String} {k n : Nat} {text : String} (hopen : c.openAt? file name = some (k, n))
      (hread : c.files.readText (Path.resolve c.host.cwd file) = .ok text)
      (hchanged : Buffer.digest text ≠ ((c.desk k).bufferAt n).hash) (hholds : (c.desk k).Holds n)
      (hdead : (c.wired k).isRunning = false) : Faults c (.reload (.text file) (.text name))

theorem dead_iff (method : String) (params : Json) (w : Wired) :
    (∃ cause, lineCarrier.send method params w = .error cause) ↔ w.isRunning = false := by
  refine ⟨fun ⟨_, he⟩ => (not_running_of_send he).1, fun hrunning => ?_⟩
  have hnone : w.running? = none := Option.isNone_iff_eq_none.mp (Option.isSome_eq_false_iff.mp hrunning)
  rw [lineCarrier_send, hnone]
  exact ⟨_, rfl⟩

/-- What is done at a desk before something is said. -/
theorem fails_withDesk_iff {op : Desk.Op Wired Unit} {next : Unit → Op String}
    (hnext : ∀ u c, ∃ text, ((next u).run.run c).1 = .ok text) (c : Console) (k : Nat) :
    (∃ cause, ((withDesk k op >>= next).run.run c).1 = .error cause) ↔
      ∃ cause, (op.run.run (c.desk k)).1 = .error cause := by
  rw [fails_bind_iff hnext, run_withDesk]

theorem fails_sessionTable_iff (h : c.Sane) :
    (∃ cause, (sessionTable.run.run c).1 = .error cause) ↔ c.Faults .sessions := by
  rcases run_sessionTable_cases h with ⟨text, hrun, hall⟩ | ⟨cause, hrun, entry, hentry, hmode⟩
  · rw [hrun]
    refine ⟨fun ⟨_, he⟩ => (by cases he), fun hfault => ?_⟩
    cases hfault with
    | @sessions entry _ hentry hcause =>
      obtain ⟨mode, hmode⟩ := hall entry hentry
      rw [hmode] at hcause
      cases hcause
  · rw [hrun]
    exact ⟨fun _ => .sessions hentry hmode, fun _ => ⟨cause, rfl⟩⟩

theorem fails_close_iff (h : c.Sane) (file name : String) :
    (∃ cause, ((close (.text file) (.text name)).run.run c).1 = .error cause) ↔
      c.Faults (.close (.text file) (.text name)) := by
  rw [close, run_bind, run_opened]
  simp only
  rcases hopen : c.openAt? file name with _ | ⟨k, n⟩
  · refine ⟨fun ⟨_, he⟩ => (by cases he), fun hfault => ?_⟩
    cases hfault with
    | close hopen' _ _ _ =>
      rw [hopen] at hopen'
      cases hopen'
  · have hat : c.At k := h.at_of_find (find_of_openAt hopen)
    have hdesk (path : Path) :
        (c.editSeat k fun s => { s with documents := Keyed.erase path s.documents }).desk k = c.desk k := by
      rw [desk, wired, seatAt_editSeat, if_pos ⟨rfl, hat.there⟩]
      rfl
    rw [run_bind, run_modify]
    simp only
    rw [fails_withDesk_iff fun _ _ => ⟨_, rfl⟩, hdesk, (h.desks k).bound.fails_closeBuffer_iff dead_iff]
    refine ⟨fun hfails => .close hopen hfails.1 hfails.2.1 hfails.2.2, fun hfault => ?_⟩
    cases hfault with
    | close hopen' hbuffer hholds hdead =>
      cases hopen.symm.trans hopen'
      exact ⟨hbuffer, hholds, hdead⟩

/-- A file that can be read is at fault if its text is a new one of which the server cannot be told. -/
theorem fault_of_text_iff {file name : String} {n : Nat} (hopen : c.openAt? file name = some (k, n)) {text : String}
    (hread : c.files.readText (Path.resolve c.host.cwd file) = .ok text) :
    c.Faults (.reload (.text file) (.text name)) ↔
      Buffer.digest text ≠ ((c.desk k).bufferAt n).hash ∧ (c.desk k).Holds n ∧ (c.wired k).isRunning = false := by
  refine ⟨fun hfault => ?_, fun hfails => .reload hopen hread hfails.1 hfails.2.1 hfails.2.2⟩
  cases hfault with
  | unreadable _ hread' _ =>
    rw [hread] at hread'
    cases hread'
  | reload hopen' hread' hchanged hholds hdead =>
    cases hopen.symm.trans hopen'
    cases hread.symm.trans hread'
    exact ⟨hchanged, hholds, hdead⟩

theorem fails_reload_iff (h : c.Sane) (file name : String) :
    (∃ cause, ((reload (.text file) (.text name)).run.run c).1 = .error cause) ↔
      c.Faults (.reload (.text file) (.text name)) := by
  rw [reload, run_bind, run_opened]
  simp only
  rcases hopen : c.openAt? file name with _ | ⟨k, n⟩
  · refine ⟨fun ⟨_, he⟩ => (by cases he), fun hfault => ?_⟩
    cases hfault with
    | unreadable hopen' _ _ =>
      rw [hopen] at hopen'
      cases hopen'
    | reload hopen' _ _ _ _ =>
      rw [hopen] at hopen'
      cases hopen'
  · rw [run_bind, run_get]
    simp only
    cases hread : c.files.readText (Path.resolve c.host.cwd file) with
    | error cause =>
      cases cause with
      | missingFile path =>
        refine ⟨fun ⟨_, he⟩ => (by cases he), fun hfault => ?_⟩
        cases hfault with
        | unreadable _ hread' hthere =>
          cases hread.symm.trans hread'
          exact absurd rfl (hthere path)
        | reload _ hread' _ _ _ => cases hread.symm.trans hread'
      | _ => exact ⟨fun _ => .unreadable hopen hread (fun _ he => by cases he), fun _ => ⟨_, rfl⟩⟩
    | ok text =>
      rw [fault_of_text_iff hopen hread, run_ite]
      by_cases hsame : Buffer.digest text = ((c.desk k).bufferAt n).hash
      · rw [if_pos hsame]
        exact ⟨fun ⟨_, he⟩ => (by cases he), fun hfails => absurd hsame hfails.1⟩
      · rw [if_neg hsame, and_iff_right hsame, fails_withDesk_iff fun _ _ => ⟨_, rfl⟩]
        exact (h.desks k).bound.fails_replaceText_iff dead_iff n text

/-- A tool without hazards does not fail. -/
theorem never_fails {op : Op String} (hop : Ensures (· = c) op (c.Owns tool)) (hnone : tool.hazards = [])
    (hfault : ¬ c.Faults tool) : (∃ cause, (op.run.run c).1 = .error cause) ↔ c.Faults tool := by
  refine ⟨fun ⟨cause, he⟩ => ?_, fun hfaults => absurd hfaults hfault⟩
  obtain ⟨k, -, hazard, hhazard, -⟩ := (hop c rfl).fails cause he
  rw [hnone] at hhazard
  cases hhazard

/-- What is said is said unless there is a fault. -/
theorem run_speech_cases {op : Op String} (hfails : (∃ cause, (op.run.run c).1 = .error cause) ↔ c.Faults tool) :
    (∃ text, ((do return .said (← op) : Op Turn).run.run c).1 = .ok (.said text) ∧ ¬ c.Faults tool) ∨
      ∃ cause, ((do return .said (← op) : Op Turn).run.run c).1 = .error cause ∧ c.Faults tool := by
  rw [← hfails, run_bind]
  rcases op.run.run c with ⟨cause | text, c'⟩
  · exact .inr ⟨cause, rfl, cause, rfl⟩
  · refine .inl ⟨text, rfl, ?_⟩
    rintro ⟨_, he⟩
    cases he

/-- A brief tool says something, or fails as there is a fault. -/
theorem run_brief_cases (h : c.Sane) (htool : tool.IsApt) (hbrief : isBrief tool = true) :
    (∃ text, ((run tool).run.run c).1 = .ok (.said text) ∧ ¬ c.Faults tool) ∨
      ∃ cause, ((run tool).run.run c).1 = .error cause ∧ c.Faults tool := by
  cases htool with
  | sessions => exact run_speech_cases (fails_sessionTable_iff h)
  | close => exact run_speech_cases (fails_close_iff h _ _)
  | reload => exact run_speech_cases (fails_reload_iff h _ _)
  | view => exact run_speech_cases (never_fails (owns_view h _ _) rfl (by rintro ⟨⟩))
  | highlights => exact run_speech_cases (never_fails (owns_highlights h _ _) rfl (by rintro ⟨⟩))
  | refuse => exact .inl ⟨_, rfl, by rintro ⟨⟩⟩
  | _ => cases hbrief

end CoqConsole.Console
