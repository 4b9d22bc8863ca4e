import CoqConsole.Proofs.Console.Dangers

/-!
# What sessions answer

A file is entered in a session, a session is started or stopped, or started for a file. Whatever the state, a tool that
does so says something or waits, or fails for one of its hazards, which then shows at a seat that it is about.

* `answers_enter`, `answers_started`, `answers_stop` : what is done at the seat of a session;
* `Console.IsAt` : the seats that a tool is about;
* `Console.Owns`, `Console.Ends` : how a tool may end, and how its turn may;
* `ends_startSession`, `ends_visit`, `ends_stop` : how turns of these tools do.
-/

namespace CoqConsole.Console

variable {c : Console} {o : Outset} {k : Nat} {hazards : List Hazard}

/-! ## Files -/

/-- A file that is not noted as open at a seat is not attached there. -/
def Shelves (c : Console) (k : Nat) : Prop :=
  ∀ file, Keyed.get? (Path.resolve c.host.cwd file) (c.seatAt k).documents = none →
    (c.desk k).isAttached (Path.resolve c.host.cwd file).uri = false

theorem shelves_of_vacant (h : (c.desk k).session.attachments = []) : c.Shelves k := by
  intro file _
  rw [Desk.isAttached, h]
  rfl

theorem shelves_of_find (h : ∀ entry ∈ c.registry, c.Shelves entry.2.seat) {name : Json} (hfind : c.find? name = .ok (some k)) :
    c.Shelves k := by
  obtain ⟨entry, hentry, rfl⟩ := mem_of_find hfind
  exact h entry hentry

/-- A file is entered: it may be one that cannot be read, and its server may not be there to be told. -/
theorem answers_enter {v : Visit} (hv : v.IsApt) (hsub : v.hazards ⊆ hazards) :
    Ensures (fun c => c.At k ∧ c.Shelves k) (enter k v) (o.Answers k hazards) := by
  rintro c ⟨h, hshelves⟩
  have htask : v.task.hazards ⊆ hazards := fun _ hmem => hsub (List.mem_append_right _ hmem)
  have hopening {first : List Hazard} (hfirst : first ⊆ [.file v.file, .link, .mode]) : first ⊆ hazards :=
    fun _ hmem => hsub (List.mem_append_left _ (List.mem_append_right _ (hfirst hmem)))
  obtain ⟨file, hname⟩ := hv.file
  have hresolve : c.resolve v.file = .ok (Path.resolve c.host.cwd file) := by rw [hname]; rfl
  suffices h : Ensures (· = c) (enter k v) (o.Answers k hazards) from h c rfl
  refine ensures_ok (run_get c) (Ensures.lift_ok hresolve ?_)
  have hshelved := hshelves file
  generalize Path.resolve c.host.cwd file = path at hresolve hshelved
  cases hnoted : Keyed.get? path (c.seatAt k).documents with
  | some n =>
    rintro _ rfl
    exact answers_perform n hv.task htask _ h
  | none =>
    cases hread : c.files.readText path with
    | error cause =>
      have hshows : o.Shows k c (.file v.file) cause := ⟨path, hresolve, hread⟩
      have hfile : Hazard.file v.file ∈ hazards :=
        hopening (List.cons_subset.mpr ⟨List.mem_cons_self, List.nil_subset _⟩) List.mem_cons_self
      exact Ensures.lift_error rfl fun s hs => hs ▸ answers_error (.error h hfile hshows)
    | ok text =>
      refine Ensures.lift_ok rfl ?_
      extract_lets n
      let f (s : Seat) : Seat :=
        { s with
          buffers := s.buffers ++ [.ofText path.uri text Buffer.defaultLanguage]
          documents := Keyed.put path n s.documents }
      have hadded : (c.editSeat k f).At k := h.editSeat ((h.desks k).append _ _ _)
      have hseat : (c.editSeat k f).seatAt k = f (c.seatAt k) := by rw [seatAt_editSeat, if_pos ⟨rfl, h.there⟩]
      have hn : n < ((c.editSeat k f).desk k).buffers.length := by
        show _ < ((c.editSeat k f).seatAt k).buffers.length
        rw [hseat]
        simp [f, n]
      have huri : (((c.editSeat k f).desk k).bufferAt n).uri = path.uri := by
        rw [Desk.bufferAt, desk, hseat]
        simp [f, n]
        rfl
      have hfree : ((c.editSeat k f).desk k).isAttached (((c.editSeat k f).desk k).bufferAt n).uri = false := by
        rw [huri, desk, hseat]
        exact hshelved hnoted
      have hadopt : Ensures (· = c.editSeat k f) (withDesk k (Desk.adopt lineCarrier n)) (o.Blamed k [.link, .mode]) := by
        rintro _ rfl
        exact blamed_withDesk_at hadded (Desk.blamed_adopt steady_lineCarrier n _ ⟨hadded.desks k, hn, hfree⟩)
      refine ensures_ok (run_modify (·.editSeat k f) c) ?_
      refine answers_session fun s => answers_bind hadopt (hopening (by simp)) fun _ => ?_
      refine answers_bind blamed_proofMode (hopening (by simp)) fun mode => ?_
      refine .ite (fun _ => ?_) fun _ => answers_perform n hv.task htask
      exact answers_get fun c => answers_awaits rfl (.settling hv.task htask)

theorem answers_enterNamed (h : c.At k) (hshelves : c.Shelves k) {v : Visit} (hv : v.IsApt) (hsub : v.hazards ⊆ hazards)
    (hfind : c.find? v.session = .ok (some k)) :
    o.Answers k hazards ((enterNamed v).run.run c).1 ((enterNamed v).run.run c).2 := by
  suffices h : Ensures (· = c) (enterNamed v) (o.Answers k hazards) from h c rfl
  refine ensures_ok (run_get c) (Ensures.lift_ok hfind ?_)
  exact (answers_enter hv hsub).imp (fun _ hs => hs ▸ ⟨h, hshelves⟩) fun _ _ h => h

/-! ## Starts -/

/-- The visit that a session was started for, if it was for one, is to this session. -/
def Awaits (hazards : List Hazard) (name : String) (next : Option Visit) : Prop :=
  ∀ v, next = some v → v.IsApt ∧ v.session = .text name ∧ v.hazards ⊆ hazards

theorem answers_proceed (h : c.At k) (hshelves : c.Shelves k) {name : String}
    (hfind : c.find? (.text name) = .ok (some k)) (text : String)
    {next : Option Visit} (hnext : Awaits hazards name next) :
    o.Answers k hazards ((proceed text next).run.run c).1 ((proceed text next).run.run c).2 := by
  cases next with
  | none => exact answers_said text c h
  | some v =>
    obtain ⟨hv, hsession, hsub⟩ := hnext v rfl
    exact answers_enterNamed h hshelves hv hsub (hsession ▸ hfind)

/-- A call that stops a server waits on, or says that it did. -/
theorem answers_winds {purpose : Purpose} {turn : Standing → Turn} (hcloses : Closes k purpose turn)
    (hfaces : ∀ s, Errand.Faces hazards ⟨k, .line s, purpose⟩) {standing : Except Failure Standing} {w : Wired}
    (hat : (c.rewire k w).At k) (hwinds : Line.Winds (c.wired k) .null standing w) :
    o.Answers k hazards (standing.map turn) (c.rewire k w) := by
  cases hwinds with
  | @waits s _ _ _ _ =>
    simp only [Except.map, hcloses.waits]
    exact answers_awaits rfl (hfaces s) _ hat
  | ends _ =>
    obtain ⟨text, htext⟩ := hcloses.ends .null
    simp only [Except.map, htext]
    exact answers_said text _ hat

/-- The first turn of stopping a server does not fail. -/
theorem answers_stop {purpose : Purpose} {turn : Standing → Turn} (hcloses : Closes k purpose turn)
    (hfaces : ∀ s, Errand.Faces hazards ⟨k, .line s, purpose⟩) :
    Ensures (At k) (do return turn (← withLine k (Line.stop .null)) : Op Turn) (o.Answers k hazards) := by
  intro c h
  have hcounts := Wired.Counts.service.stop .null (c.wired k) (h.desks k).counted
  rw [run_turn]
  exact answers_winds hcloses hfaces (h.rewire hcounts) (Line.winds_stop (.refl _))

theorem find_enroll {name : String} : (c.enroll (.text name) k).find? (.text name) = .ok (some k) := by
  simp only [enroll, find?, Json.key, Except.map, Keyed.get?_put]
  simp

theorem answers_started (h : c.Vacant k) {name : String} {next : Option Visit} (hnext : Awaits hazards name next)
    (hstops : Hazard.ofStopping ⊆ hazards) (r : Except Failure Standing) :
    o.Answers k hazards ((started k (.text name) next r).run.run c).1 ((started k (.text name) next r).run.run c).2 := by
  rcases r with cause | (label | call)
  · exact answers_stop (closes_failed k cause) (fun _ => .failing hstops) c h.toAt
  · let c₁ := c.editSeat k fun s => { s with started := c.host.now }
    have hstarted : c₁.At k := h.editSeat ⟨(h.desks k).bound.of_eq rfl rfl rfl, (h.desks k).whole, (h.desks k).counted⟩
    have hseat : c₁.seatAt k = { c.seatAt k with started := c.host.now } := by
      rw [seatAt_editSeat, if_pos ⟨rfl, h.there⟩]
    have hvacant : ((c₁.enroll (.text name) k).desk k).session.attachments = [] :=
      (congrArg (·.session.attachments) hseat).trans h.vacant
    have henrolled : (c₁.enroll (.text name) k).At k := ⟨hstarted.toSane.enroll name hstarted.there, hstarted.there⟩
    simp only [started, seat, run_bind, run_modify, run_get, run_pure]
    exact answers_proceed henrolled (shelves_of_vacant hvacant) find_enroll _ hnext
  · exact answers_awaits rfl (.starting hnext hstops) c h.toAt

/-! ## Tools -/

/-- The session that a tool is about, if it is about one. -/
def session? : Tool → Option Json
  | .start _ name _ _ => some name
  | .stop name => some name
  | .visit v => some v.session
  | .close _ name => some name
  | .reload _ name => some name
  | .view _ name => some name
  | .highlights _ name => some name
  | .configure _ _ name => some name
  | .sessions => none
  | .refuse _ => none

/-- The seats that a tool is about: that of its session, which may have to be started, or all that are registered. -/
inductive IsAt (c : Console) : Tool → Nat → Prop
  | found {tool : Tool} {name : Json} {k : Nat} (hname : session? tool = some name) (hfind : c.find? name = .ok (some k)) :
    IsAt c tool k
  | opened {tool : Tool} {name : Json} (hname : starts? tool = some name) : IsAt c tool c.seats.length
  | listed {entry : Key × Registration} (hentry : entry ∈ c.registry) : IsAt c .sessions entry.2.seat

theorem session_of_starts {tool : Tool} {name : Json} (h : starts? tool = some name) : session? tool = some name := by
  cases tool <;> first | exact h | cases h

/-- All is left in order, and a failure is due to a hazard of the tool, at a seat that it is about. -/
structure Owns (c : Console) (tool : Tool) {α : Type} (r : Except Failure α) (c' : Console) : Prop where
  sane : c'.Sane
  fails : ∀ cause, r = .error cause → ∃ k, c.IsAt tool k ∧ ∃ hazard ∈ tool.hazards, Outset.start.Shows k c' hazard cause

/-- If the call of a tool waits, it will fail for the hazards of the tool only. -/
structure Ends (c : Console) (tool : Tool) (r : Except Failure Turn) (c' : Console) : Prop extends Owns c tool r c' where
  waits : ∀ e, r = .ok (.awaits e) → e.seat < c'.seats.length ∧ e.Faces tool.hazards

variable {c' : Console} {tool : Tool}

theorem Outset.Answers.ends {r : Except Failure Turn} (h : Outset.start.Answers k tool.hazards r c') (hat : c.IsAt tool k) :
    c.Ends tool r c' where
  sane := h.1.1.toSane
  fails cause he := ⟨k, hat, h.1.2 cause he⟩
  waits e he := by
    obtain ⟨rfl, hfaces⟩ := h.2 e he
    exact ⟨h.1.1.there, hfaces⟩

theorem ends_said (h : c'.Sane) (text : String) : c.Ends tool (.ok (.said text)) c' where
  sane := h
  fails _ he := by cases he
  waits _ he := by cases he

theorem find_text (c : Console) (name : String) :
    c.find? (.text name) = .ok ((Keyed.get? (.text name) c.registry).map Registration.seat) := rfl

theorem Sane.at_of_find (h : c.Sane) {name : Json} (hfind : c.find? name = .ok (some k)) : c.At k :=
  ⟨h, h.seated.find hfind⟩

theorem exists_create {config : Json} (h : config.IsOverlay) :
    ∃ session, Session.create config Progress.defaultNamespace = .ok session := by
  have hmake : ∃ settings, Settings.make config = .ok settings := by
    rcases h with rfl | ⟨members, rfl⟩
    · exact ⟨_, rfl⟩
    · unfold Settings.make
      split <;> exact ⟨_, rfl⟩
  obtain ⟨settings, hsettings⟩ := hmake
  unfold Session.create
  rw [hsettings]
  exact ⟨_, rfl⟩

theorem sound_create {config : Json} {session : Session} (h : Session.create config Progress.defaultNamespace = .ok session)
    (host : Host) (workdir : String) (command : List String) (environment : Json) (offered : List Json) :
    Desk.Sound lineCarrier ⟨session, [], ⟨host, .fresh workdir command environment offered⟩⟩ := by
  obtain ⟨hattachments, hactive⟩ := Session.attachments_create h
  have hunheard : Desk.IsUnheard (⟨session, [], ⟨host, .fresh workdir command environment offered⟩⟩ : Desk Wired) :=
    ⟨hattachments, hactive, List.forall_mem_nil _⟩
  exact ⟨hunheard.bound, List.forall_mem_nil _, Wired.counts_fresh host workdir command environment offered⟩

/-- A session is started, or it runs. -/
theorem ends_startSession (h : c.Sane) (hshelves : ∀ entry ∈ c.registry, c.Shelves entry.2.seat) (workdir : String)
    {name : String} (hstarts : starts? tool = some (.text name))
    {config : Json} (environment : Json) (hconfig : config.IsOverlay) {next : Option Visit}
    (hnext : Awaits tool.hazards name next) (hstops : Hazard.ofStopping ⊆ tool.hazards) :
    Ensures (· = c) (startSession (.text workdir) (.text name) config environment next) (c.Ends tool) := by
  obtain ⟨session, hsession⟩ := exists_create hconfig
  have hresolve : c.resolve (.text workdir) = .ok (Path.resolve c.host.cwd workdir) := rfl
  have hkey : (Json.text name).key = .ok (.text name) := rfl
  have hlength : (c.dismiss (.text name)).seats.length = c.seats.length := by rw [dismiss_eq hkey]
  refine ensures_ok (run_get c) (Ensures.lift_ok (find_text c name) (.ite (fun hrunning => ?_) fun _ => ?_))
  · -- A session that runs is kept.
    cases hget : (Keyed.get? (Key.text name) c.registry).map Registration.seat with
    | none =>
      rw [hget] at hrunning
      cases hrunning
    | some k =>
      have hfind : c.find? (.text name) = .ok (some k) := congrArg Except.ok hget
      rintro _ rfl
      exact (answers_proceed (h.at_of_find hfind) (shelves_of_find hshelves hfind) hfind _ hnext).ends
        (.found (session_of_starts hstarts) hfind)
  · refine ensures_ok (run_modify _ c) (Ensures.lift_ok hresolve (.ite (fun _ => ?_) fun _ => ?_))
    · exact .pure fun _ hs => ends_said (hs ▸ h.dismiss _) _
    · refine Ensures.lift_ok hsession (ensures_ok (run_modify _ _) ?_)
      let k := c.seats.length
      let line := Line.fresh (Path.resolve c.host.cwd workdir).text serverCommand environment [Encoding.defaultName]
      let seat : Seat := ⟨line, session, [], [], c.host.now, Path.resolve c.host.cwd workdir⟩
      have hnew : Sane { c.dismiss (.text name) with seats := (c.dismiss (.text name)).seats ++ [seat] } :=
        (h.dismiss _).append (sound_create hsession _ _ _ _ _)
      have hat : Vacant k { c.dismiss (.text name) with seats := (c.dismiss (.text name)).seats ++ [seat] } := by
        refine ⟨⟨hnew, ?_⟩, ?_⟩
        · rw [List.length_append, hlength]
          exact Nat.lt_succ_self _
        · rw [desk, seatAt_append, if_pos hlength.symm]
          exact (Session.attachments_create hsession).1
      have hstarted : Ensures (Vacant k) (do
          started k (.text name) next
            (← attempt (withLine k (Line.start session.settings Line.startTimeout false))) : Op Turn)
          (Outset.start.Answers k tool.hazards) :=
        answers_attempt (vacant_withLine (Wired.Counts.service.start _ _ _)) fun r c h => answers_started h hnext hstops r
      rintro _ rfl
      exact (hstarted _ hat).ends (.opened hstarts)

/-- A file is visited in a session that runs, or one is started for it. -/
theorem ends_visit (h : c.Sane) (hshelves : ∀ entry ∈ c.registry, c.Shelves entry.2.seat) {v : Visit} (hv : v.IsApt) :
    Ensures (· = c) (visit v) (c.Ends (.visit v)) := by
  obtain ⟨name, hname⟩ := hv.session
  obtain ⟨file, hfile⟩ := hv.file
  have hresolve : c.resolve v.file = .ok (Path.resolve c.host.cwd file) := by rw [hfile]; rfl
  refine ensures_ok (run_get c) (Ensures.lift_ok hresolve (.ite (fun _ => ?_) fun _ => ?_))
  · exact .pure fun _ hs => ends_said (hs ▸ h) _
  · extract_lets workdir
    obtain ⟨directory, hdirectory⟩ : ∃ directory, workdir = .text directory := by
      unfold workdir
      rcases hv.workdir with hnull | ⟨directory, htext⟩
      · exact ⟨_, by rw [hnull]; rfl⟩
      · rw [htext]
        split
        · exact ⟨_, rfl⟩
        · exact ⟨_, rfl⟩
    have hstart : Ensures (· = c) (startSession workdir v.session .null .null (some v)) (c.Ends (.visit v)) := by
      rw [hdirectory, hname]
      have hstarts : starts? (.visit v) = some (.text name) := congrArg some hname
      refine ends_startSession h hshelves _ hstarts _ (.inl rfl) (fun v' he => ?_) fun _ hmem => ?_
      · cases he
        exact ⟨hv, hname, List.Subset.refl _⟩
      · exact List.mem_append_left _ (List.mem_append_left _ hmem)
    have hfind : c.find? v.session = c.find? (.text name) := by rw [hname]
    rw [find_text] at hfind
    refine Ensures.lift_ok hfind ?_
    cases hget : (Keyed.get? (Key.text name) c.registry).map Registration.seat with
    | none => exact hstart
    | some k =>
      have hat : c.find? (.text name) = .ok (some k) := congrArg Except.ok hget
      refine .ite (fun _ => ?_) fun _ => hstart
      rintro _ rfl
      exact Outset.Answers.ends (answers_enter hv (List.Subset.refl _) _ ⟨h.at_of_find hat, shelves_of_find hshelves hat⟩)
        (.found (congrArg some hname) hat)

/-- Every buffer can be let go. -/
theorem blamed_shutdown : Ensures (Desk.Sound lineCarrier) Desk.shutdown (Desk.Blamed lineCarrier []) := by
  intro d h
  have hsound := (Desk.Sound.upkeep steady_lineCarrier).shutdown d h
  obtain ⟨d', hrun⟩ := Desk.run_shutdown h.bound.toFiled
  rw [hrun] at hsound ⊢
  exact .ok hsound ()

/-- A session is stopped, if it is there. -/
theorem ends_stop (h : c.Sane) (name : String) : Ensures (· = c) (stop (.text name)) (c.Ends (.stop (.text name))) := by
  refine ensures_ok (run_get c) ?_
  extract_lets conclude
  have hconclude (found : Option Nat) (hfound : found = none ∨ c.find? (.text name) = .ok found) :
      Ensures (· = c) (conclude found) (c.Ends (.stop (.text name))) := by
    cases found with
    | none => exact .pure fun _ hs => ends_said (hs ▸ h) _
    | some k =>
      have hfound : c.find? (.text name) = .ok (some k) := hfound.resolve_left (Option.some_ne_none k)
      have hat : (c.dismiss (.text name)).At k := by
        have hkey : (Json.text name).key = .ok (.text name) := rfl
        refine ⟨h.dismiss _, ?_⟩
        rw [dismiss_eq hkey]
        exact h.seated.find hfound
      have hstop : Ensures (At k) (do
          withDesk k Desk.shutdown
          return stopped k (.text name) (← withLine k (Line.stop .null)) : Op Turn) (Outset.start.Answers k Hazard.ofStopping) :=
        answers_bind (blamed_withDesk blamed_shutdown) (List.nil_subset _) fun _ =>
          answers_stop (closes_stopped k _) fun _ => .stopping (List.Subset.refl _)
      refine ensures_ok (run_modify _ c) ?_
      exact hstop.imp (fun _ hs => hs ▸ hat) fun _ _ hanswers => hanswers.ends (.found rfl hfound)
  refine .ite (fun _ => ?_) fun _ => Ensures.lift_ok (find_text c name) (hconclude _ (.inr (find_text c name)))
  rw [pure_bind]
  exact hconclude none (.inl rfl)

end CoqConsole.Console
