import CoqConsole.Proofs.Console.Outcomes

/-!
# What is done in a turn

Between two waits a call does few things: it works at the desk of a seat, takes a file up or lets one go, uses a line, and
keeps the register of sessions. What each of them keeps, every turn keeps. Three things stand apart, as they are what the
panes and the notices of a session tell of: a request is sent, it is answered, and a session is stopped.

* `Desk.Chore` : what is done at a desk;
* `Sequel.Suits` : what follows a request;
* `Console.Steady` : a property that each of these things keeps; `Console.Concludes` : what it comes to when a turn is over;
* `Steady.perform`, `Steady.enter`, ..., `Steady.run` : turns that begin;
* `Steady.resume` : turns that go on; `Steady.stop` : what stopping a session does.
-/

namespace CoqConsole

/-- What is done at a desk without an answer, and without a buffer that is taken up or let go. -/
inductive Desk.Chore : {α : Type} → Desk.Op Wired α → Prop
  | begin (n : Nat) (timeout : Json) (request : Request) : Chore (Desk.begin lineCarrier n timeout request)
  | moveCursor (n : Nat) (p : Position) : Chore (Desk.moveCursor lineCarrier n p)
  | interpretTo (n : Nat) (p : Place) : Chore (Desk.interpretTo lineCarrier n p)
  | step (n : Nat) (direction : Direction) : Chore (Desk.step lineCarrier n direction)
  | replaceText (n : Nat) (text : String) : Chore (Desk.replaceText lineCarrier n text)
  | updateSettings (update : Json) : Chore (Desk.updateSettings lineCarrier update)
  | toggleMode : Chore (Desk.toggleMode lineCarrier)

/-- A line that stays with its server goes on. -/
theorem Wired.Onward.further {w w' : Wired} (h : w.Onward w') : w.Further w' :=
  ⟨⟨h.grows, fun hreads => h.reading.trans hreads⟩, fun hw => hw.of_grows h.grows fun _ hp => h.process.symm.trans hp, h.proceeds⟩

/-- The seat of a session that is about to be started. -/
structure Seat.IsFresh (s : Seat) : Prop where
  created : ∃ config, Session.create config Progress.defaultNamespace = .ok s.session
  line : ∃ workdir environment, s.line = .fresh workdir Console.serverCommand environment [Encoding.defaultName]
  buffers : s.buffers = []
  documents : s.documents = []

/-- What follows a request is what its tool is about: hits are collected, an answer is shown, or a reset is confirmed. -/
inductive Sequel.Suits : Sequel → Request → Prop
  | collect (wait room pattern : Json) (place : Place) : Suits (.collect wait room) (.search pattern place)
  | «show» (room kind pattern : Json) (place : Place) : Suits (.show room) (.question kind pattern place)
  | confirm (uri : String) : Suits (.confirm uri) .reset

/-- A call that starts or stops a server, or waits for the first view of a file. -/
def Purpose.opens : Purpose → Bool
  | .starting .. | .failing _ | .stopping _ | .settling .. => true
  | _ => false

namespace Console

variable {c c' : Console} {k n : Nat}

/-! ## What changes -/

/-- A session is registered with the seat. -/
def Registered (c : Console) (k : Nat) : Prop := ∃ entry ∈ c.registry, entry.2.seat = k

theorem Registered.lt (h : c.Registered k) (hseated : c.Seated) : k < c.seats.length := by
  obtain ⟨entry, hentry, rfl⟩ := h
  exact hseated entry hentry

/-- What a call looks after is registered with no session. -/
theorem Kept.not_registered {lost : List Nat} (h : c.Kept lost) {call : Nat × Errand} (hcall : call ∈ c.calls)
    (htends : call.2.purpose.tends = true) : ¬ c.Registered call.2.seat := by
  rintro ⟨entry, hentry, hseat⟩
  have htended : call.2.seat ∈ c.calls.flatMap fun call => call.2.tended :=
    List.mem_flatMap.mpr ⟨call, hcall, Errand.mem_tended.mpr ⟨htends, rfl⟩⟩
  exact (List.nodup_append.mp h.single).2.2 _ (List.mem_map.mpr ⟨entry, hentry, hseat⟩) _ htended rfl

/-- What is forgotten is registered under no other name. -/
theorem Kept.not_registered_dismiss {lost : List Nat} (h : c.Kept lost) {name : Json} (hfind : c.find? name = .ok (some k)) :
    ¬ (c.dismiss name).Registered k := by
  rintro ⟨entry, hentry, hseat⟩
  exact ((h.dismiss hfind).gone k List.mem_cons_self).1
    (List.mem_append_left _ (List.mem_map.mpr ⟨entry, hentry, hseat⟩))

/-- A file is noted as open, with a new buffer for its text. -/
def shelve (c : Console) (k : Nat) (path : Path) (text : String) : Console :=
  c.editSeat k fun s => { s with
    buffers := s.buffers ++ [.ofText path.uri text Buffer.defaultLanguage]
    documents := Keyed.put path (c.seatAt k).buffers.length s.documents }

def unshelve (c : Console) (k : Nat) (path : Path) : Console :=
  c.editSeat k fun s => { s with documents := Keyed.erase path s.documents }

/-- A call that asked goes on with what it planned, now that its wait is over. It is not one whose request just got through,
and that waits for the answer next. -/
def Pursues (c : Console) (late : Bool) (e : Errand) : Prop :=
  ∀ query sequel s, e.purpose = .asking query sequel → e.wait = .line s → ∃ ending,
    (c.wired e.seat).EndsAs late s.wait ending ∧
      (Line.resume late s).run.run (c.wired e.seat) = (Line.conclude ending s.plan).run.run (c.wired e.seat)

theorem Pursues.finished {late : Bool} {errand : Errand} (h : c.Pursues late errand) {query : Query} {sequel : Sequel}
    {call : Suspended} (hpurpose : errand.purpose = .asking query sequel) (hwait : errand.wait = .line call)
    (hplan : call.plan.tends = false) (s : Suspended) :
    ((Line.resume late call).run.run (c.wired errand.seat)).1 ≠ .ok (.waiting s) := by
  obtain ⟨ending, -, hrun⟩ := h query sequel call hpurpose hwait
  rw [hrun]
  cases hcall : call.plan with
  | request id method params =>
    simp only [Line.conclude, run_bind]
    rcases (Line.collect id method params ending).run.run (c.wired errand.seat) with ⟨_ | _, _⟩
    · exact fun hs => by cases hs
    · exact fun hs => by cases hs
  | _ =>
    rw [hcall] at hplan
    cases hplan

/-- A property that is kept by whatever is done in a turn. The session of a seat is registered only if it `may` be. -/
structure Steady (may : Nat → Session → List (Path × Nat) → Prop) (I : Console → Prop) : Prop where
  seated : ∀ {c}, I c → c.Seated
  chore : ∀ {c k} {α : Type} {op : Desk.Op Wired α}, I c → Desk.Chore op → I (c.putDesk k (op.run.run (c.desk k)).2)
  adopt : ∀ {c k path text file}, I c → c.Registered k → c.resolve file = .ok path →
    Keyed.get? path (c.seatAt k).documents = none →
      let c' := c.shelve k path text
      I (c'.putDesk k ((Desk.adopt lineCarrier (c.seatAt k).buffers.length).run.run (c'.desk k)).2)
  close : ∀ {c k path n}, I c → c.Registered k → Keyed.get? path (c.seatAt k).documents = some n →
    let c' := c.unshelve k path
    I (c'.putDesk k ((Desk.closeBuffer lineCarrier n).run.run (c'.desk k)).2)
  line : ∀ {c k w}, I c → (c.wired k).Further w → (c.Registered k → (c.wired k).Abides w) → I (c.rewire k w)
  stamp : ∀ {c k started}, I c → I (c.editSeat k fun s => { s with started })
  dismiss : ∀ {c name}, I c → I (c.dismiss name)
  enroll : ∀ {c k name}, I c → k < c.seats.length → may k (c.seatAt k).session (c.seatAt k).documents → I (c.enroll name k)
  append : ∀ {c} {s : Seat}, I c → s.IsFresh → I { c with seats := c.seats ++ [s] }
  fresh : ∀ {c} {s : Seat}, I c → s.IsFresh → may c.seats.length s.session s.documents

/-- A call that asks nothing waits at a seat that is there; if a server is being started, its session may be registered. -/
structure Rests (may : Nat → Session → List (Path × Nat) → Prop) (c : Console) (e : Errand) : Prop where
  opens : e.purpose.opens = true
  seat : e.seat < c.seats.length
  may : ∀ name next, e.purpose = .starting name next → may e.seat (c.seatAt e.seat).session (c.seatAt e.seat).documents

/-- What a property comes to when a turn is over. -/
structure Concludes (may : Nat → Session → List (Path × Nat) → Prop) (I : Console → Prop)
    (Q : Except Failure Turn → Console → Prop) : Prop where
  rests : ∀ {r c}, I c → (∀ e, r = .ok (.awaits e) → c.Rests may e) → Q r c
  views : ∀ k timeout room, Ensures (fun c => I c ∧ k < c.seats.length) (awaitView k timeout room) Q
  sends : ∀ k n request timeout sequel, sequel.Suits request →
    Ensures (fun c => I c ∧ k < c.seats.length) (send k n request timeout sequel) Q

namespace Concludes

variable {may : Nat → Session → List (Path × Nat) → Prop} {I : Console → Prop} {Q : Except Failure Turn → Console → Prop}
  (q : Concludes may I Q)
include q

theorem error (cause : Failure) (c : Console) (hc : I c) : Q (.error cause) c := q.rests hc fun _ he => by cases he

theorem said (text : String) : Ensures I (Pure.pure (.said text) : Op Turn) Q :=
  .pure fun _ hc => q.rests hc fun _ he => by cases he

theorem awaits {k : Nat} {wait : Awaiting} {purpose : Purpose} (hopens : purpose.opens = true)
    (hstarts : ∀ name next, purpose ≠ .starting name next) :
    Ensures (fun c => I c ∧ k < c.seats.length) (Pure.pure (.awaits ⟨k, wait, purpose⟩) : Op Turn) Q :=
  .pure fun _ hc => q.rests hc.1 fun _ he' => by
    cases he'
    exact ⟨hopens, hc.2, fun name next hpurpose => absurd hpurpose (hstarts name next)⟩

theorem saying {op : Op String} (hop : Ensures I op fun _ => I) : Ensures I (do return .said (← op) : Op Turn) Q :=
  .step hop (fun _ => q.said _) q.error

end Concludes

theorem seats_dismiss (c : Console) (name : Json) : (c.dismiss name).seats = c.seats := by
  unfold dismiss
  split <;> rfl

theorem seats_enroll (c : Console) (name : Json) (k : Nat) : (c.enroll name k).seats = c.seats := by
  unfold enroll
  split <;> rfl

theorem registry_dismiss (c : Console) (name : Json) : (c.dismiss name).registry ⊆ c.registry := by
  unfold dismiss
  split
  · exact fun entry hentry => (Keyed.mem_erase.mp hentry).1
  · exact List.Subset.refl _

theorem looks_withDesk {α : Type} {op : Desk.Op Wired α} (h : Looks op) : Looks (withDesk k op) := by
  intro c
  rw [run_withDesk, h (c.desk k)]
  exact putDesk_desk c k

theorem looks_proofMode : Looks (proofMode k) := looks_withDesk Desk.looks_proofMode

theorem looks_session : Looks (session k) := fun _ => rfl

/-- What is noted of a session is not touched by what happens on its line. -/
theorem noted_rewire (c : Console) (k : Nat) (w : Wired) (j : Nat) :
    ((c.rewire k w).seatAt j).session = (c.seatAt j).session ∧
      ((c.rewire k w).seatAt j).documents = (c.seatAt j).documents := by
  rw [seatAt_rewire]
  split
  · next hj =>
    obtain ⟨rfl, -⟩ := hj
    exact ⟨rfl, rfl⟩
  · exact ⟨rfl, rfl⟩

/-- What is looked for as an open file: it fails, or finds none, or one of a registered session. -/
theorem opened_cases (c : Console) (name file : Json) :
    (∃ cause, (opened name file).run.run c = (.error cause, c)) ∨
      (∃ path, (opened name file).run.run c = (.ok (path, none), c)) ∨
        ∃ path k n, (opened name file).run.run c = (.ok (path, some (k, n)), c) ∧ c.Registered k ∧
          Keyed.get? path (c.seatAt k).documents = some n := by
  simp only [opened, run_bind, run_get, run_lift]
  cases hfind : c.find? name with
  | error cause => exact .inl ⟨_, rfl⟩
  | ok found =>
    cases c.resolve file with
    | error cause => exact .inl ⟨_, rfl⟩
    | ok path =>
      cases found with
      | none => exact .inr (.inl ⟨_, rfl⟩)
      | some k =>
        cases hget : Keyed.get? path (c.seatAt k).documents with
        | none => exact .inr (.inl ⟨path, by simp only [run_pure, hget, Option.bind_eq_bind, Option.bind_some,
            Option.bind_none]⟩)
        | some n => exact .inr (.inr ⟨path, k, n, by simp only [run_pure, hget, Option.bind_eq_bind, Option.bind_some]; rfl,
            mem_of_find hfind, hget⟩)

theorem looks_opened {name file : Json} : Looks (opened name file) := by
  intro c
  rcases opened_cases c name file with ⟨cause, hrun⟩ | ⟨path, hrun⟩ | ⟨path, k, n, hrun, -, -⟩ <;> rw [hrun]

namespace Steady

variable {may : Nat → Session → List (Path × Nat) → Prop} {I : Console → Prop} (s : Steady may I)
include s

/-- Seats stay. -/
theorem sized (k : Nat) : Steady may fun c => I c ∧ k < c.seats.length where
  seated h := s.seated h.1
  chore h hop := ⟨s.chore h.1 hop, (length_putDesk _ _ _).symm ▸ h.2⟩
  adopt h hin hresolve hget := ⟨s.adopt h.1 hin hresolve hget, by rw [length_putDesk, shelve, length_editSeat]; exact h.2⟩
  close h hin hget := ⟨s.close h.1 hin hget, by rw [length_putDesk, unshelve, length_editSeat]; exact h.2⟩
  line h hfurther habides := ⟨s.line h.1 hfurther habides, (length_rewire _ _ _).symm ▸ h.2⟩
  stamp h := ⟨s.stamp h.1, (length_editSeat _ _ _).symm ▸ h.2⟩
  dismiss h := ⟨s.dismiss h.1, (seats_dismiss _ _).symm ▸ h.2⟩
  enroll h hk hmay := ⟨s.enroll h.1 hk hmay, (seats_enroll _ _ _).symm ▸ h.2⟩
  append h hfresh := ⟨s.append h.1 hfresh, by rw [List.length_append]; exact Nat.lt_add_right _ h.2⟩
  fresh h := s.fresh h.1

theorem withDesk {α : Type} {op : Desk.Op Wired α} (h : Desk.Chore op) : Ensures I (Console.withDesk k op) fun _ => I := by
  intro c hc
  rw [run_withDesk]
  exact s.chore hc h

/-- The line of a seat that is not registered may have any server. -/
theorem withFreeLine {α : Type} {op : Line.Op α} (hop : ∀ w : Wired, Ensures w.Further op fun _ => w.Further)
    {P : Session → List (Path × Nat) → Prop} :
    Ensures (fun c => I c ∧ ¬ c.Registered k ∧ P (c.seatAt k).session (c.seatAt k).documents) (Console.withLine k op)
      fun _ c => I c ∧ ¬ c.Registered k ∧ P (c.seatAt k).session (c.seatAt k).documents := by
  rintro c ⟨hc, hout, hmay⟩
  rw [run_withLine]
  refine ⟨s.line hc (hop (c.wired k) _ (.refl _)) fun hin => absurd hin hout, hout, ?_⟩
  rw [(noted_rewire c k _ k).1, (noted_rewire c k _ k).2]
  exact hmay

omit s in
theorem attempt {α : Type} {op : Op α} {P : Console → Prop} (h : Ensures P op fun _ => P) :
    Ensures P (Console.attempt op) fun _ => P := by
  intro c hc
  rw [run_attempt]
  exact h c hc

/-! ## Turns that begin -/

section Begin

variable {Q : Except Failure Turn → Console → Prop} (q : Concludes may I Q)
include q

theorem perform (k n : Nat) (task : Task) :
    Ensures (fun c => I c ∧ k < c.seats.length) (Console.perform k n task) Q := by
  have herror (cause : Failure) (c : Console) (hc : I c ∧ k < c.seats.length) : Q (.error cause) c := q.error cause c hc.1
  have hsays (text : String) : Ensures (fun c => I c ∧ k < c.seats.length) (Pure.pure (.said text) : Op Turn) Q :=
    (q.said text).imp (fun _ h => h.1) fun _ _ h => h
  have hchore {α : Type} {op : Desk.Op Wired α} (h : Desk.Chore op) :
      Ensures (fun c => I c ∧ k < c.seats.length) (Console.withDesk k op) fun _ c => I c ∧ k < c.seats.length :=
    (s.sized k).withDesk h
  unfold Console.perform
  cases task with
  | report =>
    refine .step looks_proofMode.ensures (fun mode => ?_) herror
    exact .step (.get fun _ hc => hc) (fun c => hsays _) herror
  | moveTo line col timeout room =>
    refine .step (.lift fun _ hc => hc) (fun p => ?_) herror
    refine .step (hchore (.moveCursor n p)) (fun _ => ?_) herror
    refine .step looks_proofMode.ensures (fun mode => ?_) herror
    refine .ite (fun _ => q.views k timeout room) fun _ => ?_
    exact .step (.get fun _ hc => hc) (fun c => hsays _) herror
  | interpret line col timeout room =>
    refine .step (.lift fun _ hc => hc) (fun p => ?_) herror
    exact .step (hchore (.interpretTo n p)) (fun _ => q.views k timeout room) herror
  | step direction timeout room =>
    exact .step (hchore (.step n direction)) (fun _ => q.views k timeout room) herror
  | search pattern line col wait timeout room =>
    exact .step (.lift fun _ hc => hc) (fun p => q.sends k n _ _ _ (.collect ..)) herror
  | question kind pattern line col timeout room =>
    exact .step (.lift fun _ hc => hc) (fun p => q.sends k n _ _ _ (.show ..)) herror
  | reset timeout => exact .step (.get fun _ hc => hc) (fun c => q.sends k n _ _ _ (.confirm _)) herror

theorem enter (k : Nat) (v : Visit) : Ensures (fun c => I c ∧ c.Registered k) (Console.enter k v) Q := by
  rintro c ⟨hc, hin⟩
  have hk : k < c.seats.length := hin.lt (s.seated hc)
  suffices h : Ensures (· = c) (Console.enter k v) Q from h c rfl
  refine ensures_ok (run_get c) (ensures_lift (fun path hresolve => ?_) fun cause _ => q.error cause c hc)
  cases hget : Keyed.get? path (c.seatAt k).documents with
  | some n => exact (s.perform q k n v.task).imp (fun _ hsame => hsame ▸ ⟨hc, hk⟩) fun _ _ h => h
  | none =>
    refine ensures_lift (fun text _ => ?_) fun cause _ => q.error cause c hc
    refine ensures_ok (run_modify _ c) (ensures_ok rfl ?_)
    let shelved := c.shelve k path text
    have hadopt : I (shelved.putDesk k ((Desk.adopt lineCarrier (c.seatAt k).buffers.length).run.run (shelved.desk k)).2) :=
      s.adopt hc hin hresolve hget
    extract_lets since
    have hdone : Ensures (· = shelved) (Console.withDesk k (Desk.adopt lineCarrier (c.seatAt k).buffers.length))
        fun _ c => I c ∧ k < c.seats.length := by
      rintro _ rfl
      rw [run_withDesk]
      refine ⟨hadopt, ?_⟩
      rw [length_putDesk]
      exact (length_editSeat c k _).symm ▸ hk
    have herror (cause : Failure) (c : Console) (hc : I c ∧ k < c.seats.length) : Q (.error cause) c := q.error cause c hc.1
    refine .bind hdone (fun _ => ?_) herror
    refine .step looks_proofMode.ensures (fun mode => ?_) herror
    refine .ite (fun _ => ?_) fun _ => s.perform q k _ v.task
    exact .step (.get fun _ hc => hc) (fun _ => q.awaits rfl fun _ _ h => by cases h) herror

theorem enterNamed (v : Visit) : Ensures I (Console.enterNamed v) Q := by
  intro c hc
  suffices h : Ensures (· = c) (Console.enterNamed v) Q from h c rfl
  refine ensures_ok (run_get c) (ensures_lift (fun found hfind => ?_) fun cause _ => q.error cause c hc)
  cases found with
  | none => exact .throw fun _ hsame => q.error _ _ (hsame ▸ hc)
  | some k => exact (s.enter q k v).imp (fun _ hsame => hsame ▸ ⟨hc, mem_of_find hfind⟩) fun _ _ h => h

theorem proceed (text : String) (next : Option Visit) : Ensures I (Console.proceed text next) Q := by
  cases next with
  | none => exact q.said text
  | some v => exact s.enterNamed q v

/-- A call goes on to stop the server of a seat, whatever it says in the end. -/
theorem closing {purpose : Purpose} {turn : Standing → Turn} (hcloses : Closes k purpose turn)
    (hstarts : ∀ name next, purpose ≠ .starting name next) {op : Line.Op Standing}
    (hop : ∀ w : Wired, Ensures w.Further op fun _ => w.Further) :
    Ensures (fun c => I c ∧ ¬ c.Registered k ∧ k < c.seats.length) (do return turn (← Console.withLine k op) : Op Turn) Q := by
  rintro c ⟨hc, hout, hk⟩
  have hend := ((s.sized k).withFreeLine (k := k) hop (P := fun _ _ => True) c ⟨⟨hc, hk⟩, hout, trivial⟩).1
  simp only [run_bind]
  generalize (Console.withLine k op).run.run c = out at hend
  obtain ⟨cause | (value | call), c'⟩ := out
  · exact q.error cause c' hend.1
  · obtain ⟨text, htext⟩ := hcloses.ends value
    simp only [htext]
    exact q.said text c' hend.1
  · simp only [hcloses.waits]
    refine q.awaits ?_ (fun name next hpurpose => ?_) c' hend
    · have htends := hcloses.tends
      cases purpose <;> first | rfl | cases htends
    · exact absurd hpurpose (hstarts name next)

/-- The seat whose server was started is registered. -/
theorem started (k : Nat) (name : Json) (next : Option Visit) (r : Except Failure Standing) :
    Ensures (fun c => (I c ∧ k < c.seats.length) ∧ ¬ c.Registered k ∧ may k (c.seatAt k).session (c.seatAt k).documents)
      (Console.started k name next r) Q := by
  rintro c ⟨⟨hc, hk⟩, hout, hmay⟩
  rcases r with cause | (label | call)
  · refine s.closing q (closes_failed k cause) (fun _ _ h => by cases h) (fun w => ?_) c ⟨hc, hout, hk⟩
    exact (Wired.Further.service w).stop .null
  · have hstamped : may k ((c.editSeat k fun s => { s with started := c.host.now }).seatAt k).session
        ((c.editSeat k fun s => { s with started := c.host.now }).seatAt k).documents := by
      rw [seatAt_editSeat]
      split <;> exact hmay
    have henrolled : I ((c.editSeat k fun s => { s with started := c.host.now }).enroll name k) :=
      s.enroll (s.stamp hc) ((length_editSeat c k _).symm ▸ hk) hstamped
    simp only [Console.started, run_bind, run_modify]
    exact s.proceed q _ next _ henrolled
  · refine q.rests hc fun e he => ?_
    cases he
    exact ⟨rfl, hk, fun _ _ _ => hmay⟩

/-- A session is started at a new seat. -/
theorem startSession (workdir name config environment : Json) (next : Option Visit) :
    Ensures I (Console.startSession workdir name config environment next) Q := by
  intro c hc
  suffices h : Ensures (· = c) (Console.startSession workdir name config environment next) Q from h c rfl
  refine ensures_ok (run_get c) (ensures_lift (fun found _ => ?_) fun cause _ => q.error cause c hc)
  refine .ite (fun _ => (s.proceed q _ next).imp (fun _ hsame => hsame ▸ hc) fun _ _ h => h) fun _ => ?_
  have hdismissed : I (c.dismiss name) := s.dismiss hc
  refine ensures_ok (run_modify _ c) (ensures_lift (fun path _ => ?_) fun cause _ => q.error cause _ hdismissed)
  have hopening : Ensures (· = c.dismiss name) (do
      let session ← (Session.create config Progress.defaultNamespace : Except Failure Session)
      let line := Line.fresh path.text serverCommand environment [Encoding.defaultName]
      let k := c.seats.length
      modify fun c => { c with seats := c.seats ++ [⟨line, session, [], [], c.host.now, path⟩] }
      Console.started k name next (← Console.attempt (Console.withLine k (Line.start session.settings Line.startTimeout false))))
      Q := by
    refine ensures_lift (fun session hcreate => ?_) fun cause _ => q.error cause _ hdismissed
    refine ensures_ok (run_modify _ _) ?_
    let line := Line.fresh path.text serverCommand environment [Encoding.defaultName]
    let seat : Seat := ⟨line, session, [], [], (c.dismiss name).host.now, path⟩
    let opened : Console := { c.dismiss name with seats := (c.dismiss name).seats ++ [seat] }
    have hfresh : seat.IsFresh := ⟨⟨config, hcreate⟩, ⟨path.text, environment, rfl⟩, rfl, rfl⟩
    have hready : (I opened ∧ c.seats.length < opened.seats.length) ∧ ¬ opened.Registered c.seats.length ∧
        may c.seats.length (opened.seatAt c.seats.length).session (opened.seatAt c.seats.length).documents := by
      rw [← seats_dismiss c name, seatAt_append, if_pos rfl]
      refine ⟨⟨s.append hdismissed hfresh, ?_⟩, ?_, s.fresh hdismissed hfresh⟩
      · exact List.length_append ▸ Nat.lt_succ_self _
      · rintro ⟨entry, hentry, hlast⟩
        exact Nat.lt_irrefl _ (hlast ▸ s.seated hdismissed entry hentry)
    have hbegun := attempt ((s.sized c.seats.length).withFreeLine (k := c.seats.length) (P := may c.seats.length) fun w =>
      (Wired.Further.service w).start session.settings Line.startTimeout false)
    exact (Ensures.step hbegun (fun r => s.started q _ name next r) fun cause c h => q.error cause c h.1.1).imp
      (fun _ hsame => hsame ▸ hready) fun _ _ h => h
  exact .ite (fun _ => (q.said _).imp (fun _ hsame => hsame ▸ hdismissed) fun _ _ h => h) fun _ => hopening

theorem visit (v : Visit) : Ensures I (Console.visit v) Q := by
  intro c hc
  suffices h : Ensures (· = c) (Console.visit v) Q from h c rfl
  have hstart (workdir : Json) : Ensures (· = c) (Console.startSession workdir v.session .null .null (some v)) Q :=
    (s.startSession q workdir v.session .null .null (some v)).imp (fun _ hsame => hsame ▸ hc) fun _ _ h => h
  refine ensures_ok (run_get c) (ensures_lift (fun path _ => ?_) fun cause _ => q.error cause c hc)
  refine .ite (fun _ => (q.said _).imp (fun _ hsame => hsame ▸ hc) fun _ _ h => h) fun _ => ?_
  refine ensures_lift (fun found hfind => ?_) fun cause _ => q.error cause c hc
  cases found with
  | none => exact hstart _
  | some k =>
    refine .ite (fun _ => ?_) fun _ => hstart _
    exact (s.enter q k v).imp (fun _ hsame => hsame ▸ ⟨hc, mem_of_find hfind⟩) fun _ _ h => h

end Begin

/-! ## Tools that do not wait -/

omit s in
theorem sessionTable : Ensures I Console.sessionTable fun _ => I := by
  refine .step (.get fun _ hc => hc) (fun c => ?_) fun _ _ h => h
  refine .ite (fun _ => .pure fun _ hc => hc) fun _ => ?_
  refine .step (.mapM (fun entry => ?_) _) (fun rows => .pure fun _ hc => hc) fun _ _ h => h
  refine .step looks_proofMode.ensures (fun mode => ?_) fun _ _ h => h
  exact .step (.lift fun _ hc => hc) (fun name => .pure fun _ hc => hc) fun _ _ h => h

theorem closeFile (file name : Json) : Ensures I (Console.close file name) fun _ => I := by
  intro c hc
  suffices h : Ensures (· = c) (Console.close file name) fun _ => I from h c rfl
  rcases opened_cases c name file with ⟨cause, hrun⟩ | ⟨path, hrun⟩ | ⟨path, k, n, hrun, hin, hget⟩
  · rintro _ rfl
    rw [Console.close, run_bind, hrun]
    exact hc
  · exact ensures_ok hrun (.pure fun _ hsame => hsame ▸ hc)
  · have hclosed : Ensures (· = c.unshelve k path) (Console.withDesk k (Desk.closeBuffer lineCarrier n)) fun _ => I := by
      rintro _ rfl
      rw [run_withDesk]
      exact s.close hc hin hget
    refine ensures_ok hrun (ensures_ok (run_modify _ c) (.bind hclosed (fun _ => ?_) fun _ _ h => h))
    exact .step (.get fun _ hc => hc) (fun c => .pure fun _ hc => hc) fun _ _ h => h

theorem reload (file name : Json) : Ensures I (Console.reload file name) fun _ => I := by
  intro c hc
  suffices h : Ensures (· = c) (Console.reload file name) fun _ => I from h c rfl
  rcases opened_cases c name file with ⟨cause, hrun⟩ | ⟨path, hrun⟩ | ⟨path, k, n, hrun, -, -⟩
  · rintro _ rfl
    rw [Console.reload, run_bind, hrun]
    exact hc
  · exact ensures_ok hrun (.pure fun _ hsame => hsame ▸ hc)
  · refine ensures_ok hrun (ensures_ok (run_get c) ?_)
    cases c.files.readText path with
    | error cause =>
      cases cause <;> first
        | exact .pure fun _ hsame => hsame ▸ hc
        | exact .throw fun _ hsame => hsame ▸ hc
    | ok text =>
      refine .ite (fun _ => .pure fun _ hsame => hsame ▸ hc) fun _ => ?_
      refine Ensures.imp (P := I) ?_ (fun _ hsame => hsame ▸ hc) fun _ _ h => h
      refine .step (s.withDesk (.replaceText n text)) (fun _ => ?_) fun _ _ h => h
      exact .step (.get fun _ hc => hc) (fun c => .pure fun _ hc => hc) fun _ _ h => h

omit s in
theorem highlights (file name : Json) : Ensures I (Console.highlights file name) fun _ => I := by
  refine .step looks_opened.ensures (fun found => ?_) fun _ _ h => h
  obtain ⟨path, _ | ⟨k, n⟩⟩ := found
  · exact .pure fun _ hc => hc
  · refine .step (.get fun _ hc => hc) (fun c => ?_) fun _ _ h => h
    exact .ite (fun _ => .pure fun _ hc => hc) fun _ => .pure fun _ hc => hc

theorem configure (update : Json) (toggle : Bool) (name : Json) :
    Ensures I (Console.configure update toggle name) fun _ => I := by
  refine .step (.get fun _ hc => hc) (fun c => ?_) fun _ _ h => h
  refine .step (.lift fun _ hc => hc) (fun found => ?_) fun _ _ h => h
  cases found with
  | none => exact .pure fun _ hc => hc
  | some k =>
    dsimp -zeta only
    extract_lets report conclude
    have hreport (u : Unit) : Ensures I (report u) fun _ => I :=
      .step looks_proofMode.ensures (fun _ => .pure fun _ hc => hc) fun _ _ h => h
    have hconclude (r : Except Failure Unit) : Ensures I (conclude r) fun _ => I := by
      cases r with
      | error cause => exact .ite (fun _ => .pure fun _ hc => hc) fun _ => .throw fun _ hc => hc
      | ok u =>
        refine .ite (fun _ => ?_) fun _ => hreport ()
        refine .step (.step (s.withDesk .toggleMode) (fun _ => .pure fun _ hc => hc) fun _ _ h => h) hreport fun _ _ h => h
    refine .ite (fun _ => ?_) fun _ => .step (.pure fun _ hc => hc) hconclude fun _ _ h => h
    exact .step (attempt (s.withDesk (.updateSettings update))) hconclude fun _ _ h => h

omit s in
theorem view (room name : Json) : Ensures I (Console.view room name) fun _ => I := by
  refine .step (.get fun _ hc => hc) (fun c => ?_) fun _ _ h => h
  refine .step (.lift fun _ hc => hc) (fun found => ?_) fun _ _ h => h
  cases found with
  | none => exact .pure fun _ hc => hc
  | some k => exact .step looks_session.ensures (fun _ => .lift fun _ hc => hc) fun _ _ h => h

/-- So does every tool but the one that stops a session. -/
theorem run {Q : Except Failure Turn → Console → Prop} (q : Concludes may I Q) {tool : Tool} (htool : ∀ name, tool ≠ .stop name) :
    Ensures I (Console.run tool) Q := by
  cases tool with
  | start workdir name config environment => exact s.startSession q workdir name config environment none
  | visit v => exact s.visit q v
  | stop name => exact absurd rfl (htool name)
  | sessions => exact q.saying sessionTable
  | close file name => exact q.saying (s.closeFile file name)
  | reload file name => exact q.saying (s.reload file name)
  | view room name => exact q.saying (view room name)
  | highlights file name => exact q.saying (highlights file name)
  | configure update toggle name => exact q.saying (s.configure update toggle name)
  | refuse text => exact q.said text

/-! ## Turns that go on -/

section Resume

variable {Q : Except Failure Turn → Console → Prop} (q : Concludes may I Q) (late : Bool)
include q

/-- A call that starts a server goes on. -/
theorem greets (k : Nat) (wait : Awaiting) (name : Json) (next : Option Visit) :
    Ensures (fun c => (I c ∧ k < c.seats.length) ∧ ¬ c.Registered k ∧ may k (c.seatAt k).session (c.seatAt k).documents)
      (Console.resume late ⟨k, wait, .starting name next⟩) Q := by
  refine .step (attempt ?_) (fun r => s.started q k name next r) fun cause c h => q.error cause c h.1.1
  cases wait with
  | line call => exact (s.sized k).withFreeLine fun w => (Wired.Further.service w).resume late call
  | _ => exact .throw fun _ h => h

/-- A call that stops a server goes on. -/
theorem parts (k : Nat) (wait : Awaiting) {purpose : Purpose} {turn : Standing → Turn} (hcloses : Closes k purpose turn)
    (hstarts : ∀ name next, purpose ≠ .starting name next) :
    Ensures (fun c => I c ∧ ¬ c.Registered k ∧ k < c.seats.length) (do return turn (← onLine k late wait) : Op Turn) Q := by
  cases wait with
  | line call => exact s.closing q hcloses hstarts fun w => (Wired.Further.service w).resume late call
  | _ => exact fun c hc => q.error _ c hc.1

omit q in
/-- A call that asked goes on with the answer. -/
theorem asks (k : Nat) (wait : Awaiting) (query : Query) (sequel : Sequel)
    (hplain : Errand.IsPlain ⟨k, wait, .asking query sequel⟩)
    (hanswer : ∀ answer, Ensures (fun c => I c ∧ k < c.seats.length) (answered k query sequel answer) Q) :
    Ensures (fun c => (I c ∧ k < c.seats.length) ∧ c.Pursues late ⟨k, wait, .asking query sequel⟩)
      (Console.resume late ⟨k, wait, .asking query sequel⟩) Q := by
  rintro c ⟨⟨hc, hk⟩, hpursues⟩
  have hline : (I ((onLine k late wait).run.run c).2 ∧ k < ((onLine k late wait).run.run c).2.seats.length) ∧
      ∀ s, ((onLine k late wait).run.run c).1 ≠ .ok (.waiting s) := by
    cases wait with
    | line call =>
      have honward := (plan_resume (c.wired k) late (hplain.plan call rfl)).2
      simp only [onLine, run_withLine]
      exact ⟨⟨s.line hc honward.further fun _ => honward.abides, (length_rewire _ _ _).symm ▸ hk⟩,
        hpursues.finished rfl rfl (hplain.plan call rfl)⟩
    | pane revision limit => exact ⟨⟨hc, hk⟩, fun _ hs => by cases hs⟩
    | sleep time => exact ⟨⟨hc, hk⟩, fun _ hs => by cases hs⟩
  simp only [Console.resume, run_bind, run_attempt]
  generalize (onLine k late wait).run.run c = out at hline
  obtain ⟨cause | (value | call), c'⟩ := out
  · exact hanswer _ c' hline.1
  · exact hanswer _ c' hline.1
  · exact absurd rfl (hline.2 call)

/-- So does every call that waited. A server that is started or stopped is that of a seat that is not registered. -/
theorem resume {e : Errand} (hfits : e.Fits)
    (hanswer : ∀ query sequel answer, e.purpose = .asking query sequel →
      Ensures (fun c => I c ∧ e.seat < c.seats.length) (answered e.seat query sequel answer) Q) :
    Ensures (fun c => I c ∧ e.seat < c.seats.length ∧ c.Pursues late e ∧ (e.purpose.tends = true → ¬ c.Registered e.seat) ∧
      ∀ name next, e.purpose = .starting name next → may e.seat (c.seatAt e.seat).session (c.seatAt e.seat).documents)
      (Console.resume late e) Q := by
  rintro c ⟨hc, hk, hpursues, hout, hmay⟩
  have hsay (output : String) (room : Json) : Ensures I (say output room) Q :=
    .step (.lift fun _ hc => hc) (fun text => q.said text) q.error
  obtain ⟨k, wait, purpose⟩ := e
  cases purpose with
  | starting name next => exact s.greets q late k wait name next c ⟨⟨hc, hk⟩, hout rfl, hmay name next rfl⟩
  | failing cause => exact s.parts q late k wait (closes_failed k cause) (fun _ _ h => by cases h) c ⟨hc, hout rfl, hk⟩
  | stopping name => exact s.parts q late k wait (closes_stopped k name) (fun _ _ h => by cases h) c ⟨hc, hout rfl, hk⟩
  | settling v n => exact s.perform q k n v.task c ⟨hc, hk⟩
  | viewing timeout room => exact Ensures.step looks_session.ensures (fun s => hsay _ room) q.error c hc
  | asking query sequel =>
    exact s.asks late k wait query sequel (hfits.isPlain rfl) (fun answer => hanswer query sequel answer rfl) c
      ⟨⟨hc, hk⟩, hpursues⟩
  | collecting room => exact Ensures.step looks_session.ensures (fun s => hsay _ room) q.error c hc

end Resume

/-! ## Stopping a session -/

/-- A session is stopped if there is one of that name: it is forgotten, its buffers are let go, and its server stops. -/
theorem stop {Q : Except Failure Turn → Console → Prop} (q : Concludes may I Q) {lost : List Nat} (hkept : c.Kept lost)
    {name : Json} (hnone : (∀ k, c.find? name ≠ .ok (some k)) → I c)
    (hshut : ∀ k, c.find? name = .ok (some k) →
      I ((c.dismiss name).putDesk k (Desk.shutdown.run.run ((c.dismiss name).desk k)).2)) :
    Ensures (· = c) (Console.stop name) Q := by
  refine ensures_ok (run_get c) ?_
  by_cases hempty : c.registry.isEmpty = true
  · have hfind (k : Nat) : c.find? name ≠ .ok (some k) := by
      intro hfind
      obtain ⟨entry, hentry, -⟩ := mem_of_find hfind
      rw [List.isEmpty_iff.mp hempty] at hentry
      exact List.not_mem_nil hentry
    rw [if_pos hempty]
    exact ensures_ok (run_pure none c) ((q.said _).imp (fun _ hsame => hsame ▸ hnone hfind) fun _ _ h => h)
  · rw [if_neg hempty]
    refine ensures_lift (fun found hfind => ?_) fun cause hfind => q.error cause c (hnone fun k hk => ?_)
    case refine_2 =>
      rw [hfind] at hk
      cases hk
    cases found with
    | none =>
      refine (q.said _).imp (fun _ hsame => hsame ▸ hnone fun k hk => ?_) fun _ _ h => h
      rw [hfind] at hk
      cases hk
    | some k =>
      have hout := hkept.not_registered_dismiss hfind
      refine ensures_ok (run_modify _ c) ?_
      have hk : k < c.seats.length := hkept.isSeated.find hfind
      have hdone : Ensures (· = c.dismiss name) (Console.withDesk k Desk.shutdown)
          fun _ c => I c ∧ ¬ c.Registered k ∧ k < c.seats.length := by
        rintro _ rfl
        rw [run_withDesk]
        exact ⟨hshut k hfind, hout, by rw [length_putDesk, seats_dismiss]; exact hk⟩
      refine .bind hdone (fun _ => ?_) fun cause c h => q.error cause c h.1
      exact s.closing q (closes_stopped k name) (fun _ _ h => by cases h) fun w => (Wired.Further.service w).stop .null
end Steady
end Console
end CoqConsole
