import CoqConsole.Console.Running
import CoqConsole.Proofs.Line.Winding
import CoqConsole.Proofs.Session.Linking

/-!
# What leaves every server where it is

Most of what tools do sends over the lines of seats. Their servers stay where they are, sessions stay registered, and
whoever goes on to wait neither starts nor stops a server.

* `Console.Abides` : every seat keeps its process, and everything stays registered;
* `Abides.withLine`, `Abides.withDesk` : so it is when something is sent, or a session changes;
* `Errand.IsPlain`, `Console.Says` : a call that neither starts nor stops a server;
* `says_perform`, ..., `says_resume` : tools and turns that are no more than that.
-/

namespace CoqConsole

namespace Console

/-! ## Seats -/

theorem seatAt_editSeat (c : Console) (k : Nat) (f : Seat → Seat) (j : Nat) :
    (c.editSeat k f).seatAt j = if j = k ∧ k < c.seats.length then f (c.seatAt k) else c.seatAt j := by
  unfold seatAt editSeat
  rw [List.getElem?_modify]
  by_cases hj : k = j
  · subst hj
    by_cases hlt : k < c.seats.length
    · rw [if_pos ⟨rfl, hlt⟩, List.getElem?_eq_getElem hlt]
      simp
    · rw [if_neg (fun h => hlt h.2), List.getElem?_eq_none (Nat.not_lt.mp hlt)]
      simp
  · rw [if_neg (fun h => hj h.1.symm)]
    cases c.seats[j]? <;> simp [hj]

theorem seatAt_rewire (c : Console) (k : Nat) (w : Wired) (j : Nat) :
    (c.rewire k w).seatAt j = if j = k ∧ k < c.seats.length then { c.seatAt k with line := w.line } else c.seatAt j :=
  seatAt_editSeat c k (fun s => { s with line := w.line }) j

theorem line_rewire (c : Console) (k : Nat) (w : Wired) (j : Nat) :
    ((c.rewire k w).seatAt j).line = if j = k ∧ k < c.seats.length then w.line else (c.seatAt j).line := by
  rw [seatAt_rewire]
  split <;> rfl

theorem wired_rewire {c : Console} {k : Nat} (hk : k < c.seats.length) (w : Wired) : (c.rewire k w).wired k = w := by
  rw [wired, line_rewire, if_pos ⟨rfl, hk⟩]
  rfl

theorem desk_rewire (c : Console) (k : Nat) (w : Wired) (j : Nat) :
    ((c.rewire k w).desk j).session = (c.desk j).session ∧ ((c.rewire k w).desk j).buffers = (c.desk j).buffers := by
  unfold desk
  rw [seatAt_rewire]
  split
  · next hj =>
    obtain ⟨rfl, -⟩ := hj
    exact ⟨rfl, rfl⟩
  · exact ⟨rfl, rfl⟩

theorem length_editSeat (c : Console) (k : Nat) (f : Seat → Seat) : (c.editSeat k f).seats.length = c.seats.length :=
  List.length_modify _ _ _

theorem length_rewire (c : Console) (k : Nat) (w : Wired) : (c.rewire k w).seats.length = c.seats.length :=
  length_editSeat c k _

theorem seatAt_putDesk (c : Console) (k : Nat) (d : Desk Wired) (j : Nat) :
    (c.putDesk k d).seatAt j =
      if j = k ∧ k < c.seats.length then
        { c.seatAt k with session := d.session, buffers := d.buffers, line := d.link.line }
      else c.seatAt j := by
  let edited := c.editSeat k fun s => { s with session := d.session, buffers := d.buffers }
  have hlength : edited.seats.length = c.seats.length := length_editSeat c k _
  show (edited.editSeat k fun s => { s with line := d.link.line }).seatAt j = _
  rw [seatAt_editSeat, hlength, seatAt_editSeat, seatAt_editSeat]
  split
  · next hj => rw [if_pos ⟨rfl, hj.2⟩]
  · rfl

theorem length_putDesk (c : Console) (k : Nat) (d : Desk Wired) : (c.putDesk k d).seats.length = c.seats.length :=
  (length_rewire _ k _).trans (length_editSeat c k _)

/-! ## What stays -/

/-- What every seat holds is filed. -/
def Filed (c : Console) : Prop := ∀ k, (c.desk k).Filed

/-- The calls that wait, the number of all calls, and how those ended that did. -/
def ledger (c : Console) : List (Nat × Errand) × Nat × List (Nat × Except Failure Json) := (c.calls, c.made, c.done)

/-- Every seat keeps the process of its line, and the registered sessions and the calls are the same. -/
structure Abides (c c' : Console) : Prop where
  lines : ∀ k, (c.wired k).Abides (c'.wired k)
  filed : c'.Filed
  seats : c'.seats.length = c.seats.length
  registry : c'.registry = c.registry
  ledger : c'.ledger = c.ledger

namespace Abides

variable {c₀ c c' c'' : Console}

theorem calls (h : c.Abides c') : c'.calls = c.calls := congrArg Prod.fst h.ledger

theorem made (h : c.Abides c') : c'.made = c.made := congrArg (·.2.1) h.ledger

theorem refl (h : c.Filed) : c.Abides c := ⟨fun _ => .refl _, h, rfl, rfl, rfl⟩

theorem trans (h : c.Abides c') (h' : c'.Abides c'') : c.Abides c'' where
  lines := fun k => (h.lines k).trans (h'.lines k)
  filed := h'.filed
  seats := h'.seats.trans h.seats
  registry := h'.registry.trans h.registry
  ledger := h'.ledger.trans h.ledger

/-- What happens on one line leaves the others as they are. -/
theorem rewire (h : c.Filed) {k : Nat} {w : Wired} (habides : (c.wired k).Abides w) : c.Abides (c.rewire k w) where
  lines := fun j => by
    have hother : (c.wired j).Abides ⟨w.host, (c.seatAt j).line⟩ :=
      ⟨habides.count, habides.ended, rfl, fun h => h, List.Subset.refl _, .of_subset (List.Subset.refl _)⟩
    have hwired : (c.rewire k w).wired j = ⟨w.host, ((c.rewire k w).seatAt j).line⟩ := rfl
    rw [hwired, line_rewire]
    split
    · next hj =>
      obtain ⟨rfl, -⟩ := hj
      exact habides
    · exact hother
  filed := fun j => (h j).of_eq (by rw [(desk_rewire c k w j).2]) (by rw [(desk_rewire c k w j).1])
  seats := length_editSeat c k _
  registry := rfl
  ledger := rfl

/-- What a session notes, and what buffers it has, is its own matter. -/
theorem editSeat (h : c.Filed) {k : Nat} {f : Seat → Seat} (hline : ∀ s, (f s).line = s.line)
    (hfiled : (⟨(f (c.seatAt k)).session, (f (c.seatAt k)).buffers, c.wired k⟩ : Desk Wired).Filed) :
    c.Abides (c.editSeat k f) where
  lines := fun j => by
    have hwired : (c.editSeat k f).wired j = c.wired j := by
      unfold wired
      rw [seatAt_editSeat]
      split
      · next hj =>
        obtain ⟨rfl, -⟩ := hj
        rw [hline]
        rfl
      · rfl
    rw [hwired]
    exact .refl _
  filed := fun j => by
    show Desk.Filed ⟨((c.editSeat k f).seatAt j).session, ((c.editSeat k f).seatAt j).buffers, _⟩
    rw [seatAt_editSeat]
    split
    · exact hfiled.of_eq rfl rfl
    · exact (h j).of_eq rfl rfl
  seats := length_editSeat c k f
  registry := rfl
  ledger := rfl

theorem of_host (h : c.Filed) {host : Host} (hgrows : c.host.Grows host)
    (hcount : host.processes.length = c.host.processes.length) : c.Abides { c with host } :=
  ⟨fun _ => .of_host hgrows hcount, fun k => (h k).of_eq rfl rfl, rfl, rfl, rfl⟩

end Abides

/-! ## Operations -/

theorem run_withLine {α : Type} (k : Nat) (op : Line.Op α) (c : Console) :
    (withLine k op).run.run c = ((op.run.run (c.wired k)).1, c.rewire k (op.run.run (c.wired k)).2) := by
  simp only [withLine, run_bind, run_get]
  rcases op.run.run (c.wired k) with ⟨r, w⟩
  simp only [run_bind, run_modify, run_lift]

theorem run_withDesk {α : Type} (k : Nat) (op : Desk.Op Wired α) (c : Console) :
    (withDesk k op).run.run c = ((op.run.run (c.desk k)).1, c.putDesk k (op.run.run (c.desk k)).2) := by
  simp only [withDesk, run_bind, run_get]
  rcases op.run.run (c.desk k) with ⟨r, d⟩
  simp only [run_bind, run_modify, run_lift]

theorem run_attempt {α : Type} (op : Op α) (c : Console) :
    (attempt op).run.run c = (.ok (op.run.run c).1, (op.run.run c).2) := by
  rw [attempt, run_tryCatch, run_bind]
  rcases op.run.run c with ⟨_ | _, _⟩ <;> rfl

/-- Sending on a line does no more than requests do. -/
theorem keeps_lineCarrier (w : Wired) : lineCarrier.Keeps w.Onward := by
  intro method params link link' hlink hsend
  have hensures : Ensures w.Onward (Line.notify (.text method) params) fun _ => w.Onward :=
    (Wired.Onward.traffic w).notify _ _
  have hnotify := hensures link hlink
  simp only [lineCarrier] at hsend
  generalize (Line.notify (.text method) params).run.run link = out at hsend hnotify
  obtain ⟨r, w'⟩ := out
  cases r with
  | error cause => cases hsend
  | ok u =>
    cases hsend
    exact hnotify

/-- Notices are logged, and nothing else of the host is touched. -/
theorem records_notices (notices : List Notice) (h : Host) :
    notices.foldl (fun h n => h.record (.notice n)) h = { h with records := h.records ++ notices.map .notice } := by
  induction notices generalizing h with
  | nil => rw [List.foldl_nil, List.map_nil, List.append_nil]
  | cons notice notices ih => rw [List.foldl_cons, ih, Host.record, List.append_assoc, List.map_cons, List.singleton_append]

theorem grows_records (notices : List Notice) (h : Host) :
    (notices.foldl (fun h n => h.record (.notice n)) h).processes = h.processes ∧
      (notices.foldl (fun h n => h.record (.notice n)) h).cwd = h.cwd := by
  rw [records_notices]
  exact ⟨rfl, rfl⟩

namespace Abides

variable {c₀ c : Console} {k : Nat}

theorem withLine {α : Type} {op : Line.Op α} (hop : ∀ w : Wired, Ensures w.Onward op fun _ => w.Onward) :
    Ensures c₀.Abides (Console.withLine k op) fun _ => c₀.Abides := by
  intro c hc
  rw [run_withLine]
  exact hc.trans (.rewire hc.filed (hop _ _ (.refl _)).abides)

/-- A desk is put back with the notices of its session logged. -/
theorem putDesk (h : c.Filed) {d : Desk Wired} (hd : d.Filed) (hlink : (c.wired k).Abides d.link) :
    c.Abides (c.putDesk k d) := by
  let host := (d.session.notices.drop (c.seatAt k).session.notices.length).foldl
    (fun h n => h.record (.notice n)) d.link.host
  obtain ⟨hhost, hcwd⟩ : host.processes = d.link.host.processes ∧ host.cwd = d.link.host.cwd := grows_records _ _
  have hedit : c.Abides (c.editSeat k fun s => { s with session := d.session, buffers := d.buffers }) :=
    .editSeat h (fun _ => rfl) (hd.of_eq rfl rfl)
  refine hedit.trans (.rewire hedit.filed ?_)
  have hline : (c.editSeat k fun s => { s with session := d.session, buffers := d.buffers }).wired k = c.wired k := by
    unfold wired
    rw [seatAt_editSeat]
    split <;> rfl
  rw [hline]
  exact hlink.trans (.of_host (h := host) (.of_eq hhost hcwd) (congrArg List.length hhost))

theorem of_linked {α : Type} {op : Desk.Op Wired α} (hc : c₀.Abides c)
    (h : Desk.Linked (c.wired k).Onward (op.run.run (c.desk k)).2) :
    c₀.Abides ((Console.withDesk k op).run.run c).2 := by
  rw [run_withDesk]
  exact hc.trans (.putDesk hc.filed h.toFiled h.link.abides)

theorem withDesk {α : Type} {op : Desk.Op Wired α}
    (hop : ∀ P, Desk.Upkeep lineCarrier (fun _ => True) (fun _ => True) (Desk.Linked P) →
      Ensures (Desk.Linked P) op fun _ => Desk.Linked P) :
    Ensures c₀.Abides (Console.withDesk k op) fun _ => c₀.Abides :=
  fun c hc => hc.of_linked (hop _ (Desk.Linked.upkeep (keeps_lineCarrier _)) (c.desk k) ⟨hc.filed k, .refl _⟩)

theorem attempt {α : Type} {op : Op α} (h : Ensures c₀.Abides op fun _ => c₀.Abides) :
    Ensures c₀.Abides (Console.attempt op) fun _ => c₀.Abides := by
  intro c hc
  rw [run_attempt]
  exact h c hc

theorem seat (k : Nat) : Ensures c₀.Abides (Console.seat k) fun _ => c₀.Abides :=
  .step (.get fun _ hc => hc) (fun _ => .pure fun _ hc => hc) fun _ _ h => h

theorem session (k : Nat) : Ensures c₀.Abides (Console.session k) fun _ => c₀.Abides :=
  .step (seat k) (fun _ => .pure fun _ hc => hc) fun _ _ h => h

theorem proofMode (k : Nat) : Ensures c₀.Abides (Console.proofMode k) fun _ => c₀.Abides :=
  withDesk fun _ _ => Desk.looks_proofMode.ensures

end Abides

end Console

/-! ## Calls that neither start nor stop a server -/

def Purpose.tends : Purpose → Bool
  | .starting .. => true
  | .failing _ => true
  | .stopping _ => true
  | _ => false

/-- A call that neither starts nor stops a server, now or later. -/
structure Errand.IsPlain (e : Errand) : Prop where
  purpose : e.purpose.tends = false
  plan : ∀ s, e.wait = .line s → s.plan.tends = false

namespace Console

/-- Every server stays where it is, and whoever waits neither starts nor stops one. -/
def Says (c₀ : Console) (r : Except Failure Turn) (c : Console) : Prop :=
  c₀.Abides c ∧ ∀ e, r = .ok (.awaits e) → e.IsPlain

variable {c₀ : Console}

theorem says_error (cause : Failure) (c : Console) (h : c₀.Abides c) : Says c₀ (.error cause) c :=
  ⟨h, fun _ he => by cases he⟩

theorem says_said (text : String) : Ensures c₀.Abides (Pure.pure (.said text) : Op Turn) (Says c₀) :=
  .pure fun _ hc => ⟨hc, fun _ he => by cases he⟩

theorem says_awaits {e : Errand} (he : e.IsPlain) : Ensures c₀.Abides (Pure.pure (.awaits e) : Op Turn) (Says c₀) :=
  .pure fun _ hc => ⟨hc, fun _ he' => by
    cases he'
    exact he⟩

theorem says_throw (cause : Failure) : Ensures c₀.Abides (throw cause : Op Turn) (Says c₀) := .throw (says_error cause)

theorem isPlain_pane (k revision : Nat) (limit : Limit) {purpose : Purpose} (h : purpose.tends = false) :
    Errand.IsPlain ⟨k, .pane revision limit, purpose⟩ := ⟨h, fun _ hs => by cases hs⟩

theorem says_awaitView (k : Nat) (timeout room : Json) : Ensures c₀.Abides (awaitView k timeout room) (Says c₀) := by
  refine .step (.get fun _ hc => hc) (fun c => ?_) says_error
  exact .step (.lift fun _ hc => hc) (fun limit => says_awaits (isPlain_pane _ _ _ rfl)) says_error

theorem says_say (output : String) (room : Json) : Ensures c₀.Abides (say output room) (Says c₀) :=
  .step (.lift fun _ hc => hc) (fun text => says_said text) says_error

theorem says_showResults (k : Nat) (room : Json) : Ensures c₀.Abides (showResults k room) (Says c₀) :=
  .step (.session k) (fun _ => says_say _ _) says_error

theorem says_follow (k : Nat) (sequel : Sequel) : Ensures c₀.Abides (follow k sequel) (Says c₀) := by
  cases sequel with
  | collect wait room =>
    refine .step (.lift fun _ hc => hc) (fun pause => ?_) says_error
    refine .ite (fun _ => ?_) fun _ => says_showResults k room
    exact .step (.get fun _ hc => hc) (fun c => says_awaits ⟨rfl, fun _ hs => by cases hs⟩) says_error
  | «show» room => exact .step (.session k) (fun _ => says_say _ _) says_error
  | confirm uri => exact says_said _

theorem says_answered (k : Nat) (query : Query) (sequel : Sequel) (answer : Except Failure Json) :
    Ensures c₀.Abides (answered k query sequel answer) (Says c₀) := by
  refine .step (.withDesk fun _ u => u.note.finish query answer) (fun ok => ?_) says_error
  refine .ite (fun _ => says_follow k sequel) fun _ => ?_
  exact .step (.session k) (fun _ => says_said _) says_error

theorem says_pursue (k : Nat) (query : Query) (sequel : Sequel) {r : Except Failure Standing}
    (hr : ∀ s, r = .ok (.waiting s) → s.plan.tends = false) :
    Ensures c₀.Abides (pursue k query sequel r) (Says c₀) := by
  rcases r with cause | (value | s)
  · exact says_answered k query sequel _
  · exact says_answered k query sequel _
  · refine says_awaits ⟨rfl, fun s' hs => ?_⟩
    cases hs
    exact hr s rfl

theorem says_send (k n : Nat) (request : Request) (timeout : Json) (sequel : Sequel) :
    Ensures c₀.Abides (send k n request timeout sequel) (Says c₀) := by
  refine .step (.withDesk fun _ u => u.note.begin n timeout request) (fun query => ?_) says_error
  intro c hc
  have honward (w : Wired) := (Wired.Onward.traffic w).ask (.text query.method) query.params query.timeout
  have hask := Abides.withLine (k := k) honward c hc
  have hplan (s : Suspended)
      (hs : ((withLine k (Line.ask (.text query.method) query.params query.timeout)).run.run c).1 = .ok (.waiting s)) :
      s.plan.tends = false := by
    rw [run_withLine] at hs
    exact Line.plan_ask hs
  simp only [run_bind, run_attempt]
  exact says_pursue k query sequel hplan _ hask

theorem says_perform (k n : Nat) (task : Task) : Ensures c₀.Abides (perform k n task) (Says c₀) := by
  unfold perform
  cases task with
  | report =>
    refine .step (.proofMode k) (fun mode => ?_) says_error
    exact .step (.get fun _ hc => hc) (fun c => says_said _) says_error
  | moveTo line col timeout room =>
    refine .step (.lift fun _ hc => hc) (fun p => ?_) says_error
    refine .step (.withDesk fun _ u => u.moveCursor trivial trivial) (fun _ => ?_) says_error
    refine .step (.proofMode k) (fun mode => ?_) says_error
    refine .ite (fun _ => says_awaitView k timeout room) fun _ => ?_
    exact .step (.get fun _ hc => hc) (fun c => says_said _) says_error
  | interpret line col timeout room =>
    refine .step (.lift fun _ hc => hc) (fun p => ?_) says_error
    refine .step (.withDesk fun _ u => (u.speech fun _ => True).interpretTo trivial p) (fun _ => ?_) says_error
    exact says_awaitView k timeout room
  | step direction timeout room =>
    refine .step (.withDesk fun _ u => (u.speech fun _ => True).step trivial direction) (fun _ => ?_) says_error
    exact says_awaitView k timeout room
  | search pattern line col wait timeout room =>
    exact .step (.lift fun _ hc => hc) (fun p => says_send k n _ _ _) says_error
  | question kind pattern line col timeout room =>
    exact .step (.lift fun _ hc => hc) (fun p => says_send k n _ _ _) says_error
  | reset timeout => exact .step (.get fun _ hc => hc) (fun c => says_send k n _ _ _) says_error

/-! ## Files -/

theorem says_enter {k : Nat} (hk : k < c₀.seats.length) (v : Visit) : Ensures c₀.Abides (enter k v) (Says c₀) := by
  intro c hc
  -- The new buffer's number is how many there were, so the state is followed until the session holds it.
  have herror (c' : Console) (hc' : c₀.Abides c') (cause : Failure) (s : Console) (hs : s = c') :
      Says c₀ (.error cause) s := says_error cause s (hs ▸ hc')
  suffices h : Ensures (fun s => s = c) (enter k v) (Says c₀) from h c rfl
  unfold enter
  refine .bind (Q := fun r s => s = c ∧ r = .ok c) (.get fun s hs => ⟨hs, congrArg Except.ok hs⟩) (fun c' => ?_)
    fun cause s hs => herror c hc cause s hs.1
  rintro s ⟨hs, hsame⟩
  obtain rfl := hs.symm
  obtain rfl := (Except.ok.inj hsame).symm
  refine Ensures.step (P := fun s => s = c) (.lift fun _ hs => hs) (fun path => ?_) (herror c hc) c rfl
  cases Keyed.get? path (c.seatAt k).documents with
  | some n => exact (says_perform k n v.task).imp (fun s hs => hs ▸ hc) fun _ _ h => h
  | none =>
    refine .step (.lift fun _ hs => hs) (fun text => ?_) (herror c hc)
    extract_lets n
    let f (s : Seat) : Seat :=
      { s with
        buffers := s.buffers ++ [.ofText path.uri text Buffer.defaultLanguage]
        documents := Keyed.put path n s.documents }
    have hadded : c₀.Abides (c.editSeat k f) :=
      hc.trans (.editSeat hc.filed (fun _ => rfl) ((hc.filed k).append _))
    have hn : n < ((c.editSeat k f).desk k).buffers.length := by
      show _ < ((c.editSeat k f).seatAt k).buffers.length
      rw [seatAt_editSeat, if_pos ⟨rfl, hc.seats ▸ hk⟩]
      simp [f, n]
    have hadopt : Ensures (fun s => s = c.editSeat k f) (withDesk k (Desk.adopt lineCarrier n)) fun _ => c₀.Abides := by
      rintro _ rfl
      have u := Desk.Linked.upkeep (keeps_lineCarrier ((c.editSeat k f).wired k))
      have hadopt := u.adopt hn (fun _ h hn hout => h.holding hn hout) _ ⟨⟨hadded.filed k, .refl _⟩, rfl⟩
      exact hadded.of_linked hadopt.1
    refine .bind (Q := fun _ s => s = c.editSeat k f) (.modify fun s hs => congrArg (·.editSeat k f) hs)
      (fun _ => ?_) (herror _ hadded)
    refine .bind (Q := fun _ s => s = c.editSeat k f) (fun s hs => hs) (fun _ => ?_) (herror _ hadded)
    refine .bind hadopt (fun _ => ?_) says_error
    refine .step (.proofMode k) (fun mode => ?_) says_error
    refine .ite (fun _ => ?_) fun _ => says_perform k n v.task
    exact .step (.get fun _ hc => hc) (fun _ => says_awaits (isPlain_pane _ _ _ rfl)) says_error

/-- Every registered session has a seat. -/
def Seated (c : Console) : Prop := ∀ entry ∈ c.registry, entry.2.seat < c.seats.length

theorem key_of_find {c : Console} {name : Json} {found : Option Nat} (h : c.find? name = .ok found) :
    ∃ key, name.key = .ok key ∧ (Keyed.get? key c.registry).map Registration.seat = found := by
  unfold find? at h
  cases hkey : name.key with
  | error cause =>
    rw [hkey] at h
    cases h
  | ok key =>
    rw [hkey] at h
    exact ⟨key, rfl, Except.ok.inj h⟩

/-- What is found is registered. -/
theorem mem_of_find {c : Console} {name : Json} {k : Nat} (h : c.find? name = .ok (some k)) :
    ∃ entry ∈ c.registry, entry.2.seat = k := by
  obtain ⟨key, -, hget⟩ := key_of_find h
  obtain ⟨r, hr, hseat⟩ := Option.map_eq_some_iff.mp hget
  exact ⟨_, Keyed.mem_of_get? hr, hseat⟩

theorem Seated.find {c : Console} (h : c.Seated) {name : Json} {k : Nat} (hk : c.find? name = .ok (some k)) :
    k < c.seats.length := by
  obtain ⟨entry, hentry, rfl⟩ := mem_of_find hk
  exact h entry hentry

theorem Abides.seated {c c' : Console} (h : c.Abides c') (hseated : c.Seated) : c'.Seated := by
  intro entry hentry
  rw [h.seats]
  exact hseated entry (h.registry ▸ hentry)

theorem says_enterNamed (h : c₀.Seated) (v : Visit) : Ensures c₀.Abides (enterNamed v) (Says c₀) := by
  refine .bind (Q := fun r c => c₀.Abides c ∧ r = .ok c) (.get fun _ hc => ⟨hc, rfl⟩) (fun c => ?_)
    fun cause c hc => says_error cause c hc.1
  rintro _ ⟨hc, hsame⟩
  obtain rfl := Except.ok.inj hsame
  have hfind (k : Nat) (hk : c.find? v.session = .ok (some k)) : k < c₀.seats.length :=
    hc.seats ▸ (hc.seated h).find hk
  generalize c.find? v.session = found at hfind
  refine Ensures.bind (Q := fun r c => c₀.Abides c ∧ r = found) (.lift fun _ hc => ⟨hc, rfl⟩) (fun found' => ?_)
    (fun cause c hc => says_error cause c hc.1) c hc
  rintro c' ⟨hc', hsame⟩
  cases found' with
  | none => exact says_throw _ c' hc'
  | some k => exact says_enter (hfind k hsame.symm) v c' hc'

theorem says_proceed (h : c₀.Seated) (text : String) (next : Option Visit) :
    Ensures c₀.Abides (proceed text next) (Says c₀) := by
  cases next with
  | none => exact says_said text
  | some v => exact says_enterNamed h v

/-! ## Tools -/

namespace Abides

theorem sessionTable : Ensures c₀.Abides Console.sessionTable fun _ => c₀.Abides := by
  refine .step (.get fun _ hc => hc) (fun c => ?_) fun _ _ h => h
  refine .ite (fun _ => .pure fun _ hc => hc) fun _ => ?_
  refine .step (.mapM (fun entry => ?_) _) (fun rows => .pure fun _ hc => hc) fun _ _ h => h
  refine .step (proofMode _) (fun mode => ?_) fun _ _ h => h
  exact .step (.lift fun _ hc => hc) (fun name => .pure fun _ hc => hc) fun _ _ h => h

theorem opened (name file : Json) : Ensures c₀.Abides (Console.opened name file) fun _ => c₀.Abides := by
  refine .step (.get fun _ hc => hc) (fun c => ?_) fun _ _ h => h
  refine .step (.lift fun _ hc => hc) (fun k => ?_) fun _ _ h => h
  exact .step (.lift fun _ hc => hc) (fun path => .pure fun _ hc => hc) fun _ _ h => h

theorem close (file name : Json) : Ensures c₀.Abides (Console.close file name) fun _ => c₀.Abides := by
  refine .step (opened name file) (fun found => ?_) fun _ _ h => h
  obtain ⟨path, _ | ⟨k, n⟩⟩ := found
  · exact .pure fun _ hc => hc
  · refine .step (.modify fun c hc => ?_) (fun _ => ?_) fun _ _ h => h
    · exact hc.trans (.editSeat hc.filed (fun _ => rfl) ((hc.filed k).of_eq rfl rfl))
    · refine .step (withDesk fun _ u => u.closeBuffer trivial) (fun _ => ?_) fun _ _ h => h
      exact .step (.get fun _ hc => hc) (fun c => .pure fun _ hc => hc) fun _ _ h => h

theorem reload (file name : Json) : Ensures c₀.Abides (Console.reload file name) fun _ => c₀.Abides := by
  refine .step (opened name file) (fun found => ?_) fun _ _ h => h
  obtain ⟨path, _ | ⟨k, n⟩⟩ := found
  · exact .pure fun _ hc => hc
  · refine .step (.get fun _ hc => hc) (fun c => ?_) fun _ _ h => h
    cases c.files.readText path with
    | error cause => cases cause <;> first | exact .pure fun _ hc => hc | exact .throw fun _ hc => hc
    | ok text =>
      refine .ite (fun _ => .pure fun _ hc => hc) fun _ => ?_
      refine .step (withDesk fun _ u => u.replaceText trivial text) (fun _ => ?_) fun _ _ h => h
      exact .step (.get fun _ hc => hc) (fun c => .pure fun _ hc => hc) fun _ _ h => h

theorem highlights (file name : Json) : Ensures c₀.Abides (Console.highlights file name) fun _ => c₀.Abides := by
  refine .step (opened name file) (fun found => ?_) fun _ _ h => h
  obtain ⟨path, _ | ⟨k, n⟩⟩ := found
  · exact .pure fun _ hc => hc
  · refine .step (.get fun _ hc => hc) (fun c => ?_) fun _ _ h => h
    exact .ite (fun _ => .pure fun _ hc => hc) fun _ => .pure fun _ hc => hc

theorem configure (update : Json) (toggle : Bool) (name : Json) :
    Ensures c₀.Abides (Console.configure update toggle name) fun _ => c₀.Abides := by
  refine .step (.get fun _ hc => hc) (fun c => ?_) fun _ _ h => h
  refine .step (.lift fun _ hc => hc) (fun found => ?_) fun _ _ h => h
  cases found with
  | none => exact .pure fun _ hc => hc
  | some k =>
    dsimp -zeta only
    extract_lets report conclude
    have hreport (u : Unit) : Ensures c₀.Abides (report u) fun _ => c₀.Abides :=
      .step (proofMode k) (fun _ => .pure fun _ hc => hc) fun _ _ h => h
    have hconclude (r : Except Failure Unit) : Ensures c₀.Abides (conclude r) fun _ => c₀.Abides := by
      cases r with
      | error cause => exact .ite (fun _ => .pure fun _ hc => hc) fun _ => .throw fun _ hc => hc
      | ok u =>
        refine .ite (fun _ => ?_) fun _ => hreport ()
        refine .step (.step (withDesk fun _ u => u.conduct.toggleMode) (fun _ => ?_) fun _ _ h => h)
          hreport fun _ _ h => h
        exact .pure fun _ hc => hc
    refine .ite (fun _ => ?_) fun _ => .step (.pure fun _ hc => hc) hconclude fun _ _ h => h
    exact .step (attempt (withDesk fun _ u => u.conduct.updateSettings update)) hconclude fun _ _ h => h

theorem view (room name : Json) : Ensures c₀.Abides (Console.view room name) fun _ => c₀.Abides := by
  refine .step (.get fun _ hc => hc) (fun c => ?_) fun _ _ h => h
  refine .step (.lift fun _ hc => hc) (fun found => ?_) fun _ _ h => h
  cases found with
  | none => exact .pure fun _ hc => hc
  | some k => exact .step (session k) (fun _ => .lift fun _ hc => hc) fun _ _ h => h

end Abides

/-! ## Turns -/

/-- What follows from a request ends with its answer, or waits for it once the request got through. -/
theorem plan_resume (w : Wired) (late : Bool) {call : Suspended} (hplan : call.plan.tends = false) :
    (∀ s, ((Line.resume late call).run.run w).1 = .ok (.waiting s) → s.plan = call.plan) ∧
      w.Onward ((Line.resume late call).run.run w).2 := by
  rcases Line.resume_cases late call w with ⟨ending, -, hrun⟩ | ⟨_, _, _, _, _, -, -, -, hrun⟩
  · rw [hrun]
    obtain ⟨wait, plan⟩ := call
    cases plan with
    | request id method params =>
      have honward := (Wired.Onward.traffic w).collect id method params ending w (.refl w)
      simp only [Line.conclude, run_bind]
      generalize (Line.collect id method params ending).run.run w = out at honward
      obtain ⟨_ | value, w'⟩ := out
      · exact ⟨(fun _ hs => by cases hs), honward⟩
      · exact ⟨(fun _ hs => by cases hs), honward⟩
    | _ => cases hplan
  · rw [hrun]
    exact ⟨(fun s hs => by cases hs; rfl), .refl w⟩

theorem says_resume (late : Bool) {e : Errand} (he : e.IsPlain) : Ensures c₀.Abides (resume late e) (Says c₀) := by
  obtain ⟨k, wait, purpose⟩ := e
  cases purpose with
  | settling v n => exact says_perform k n v.task
  | viewing timeout room => exact .step (.session k) (fun s => says_say _ _) says_error
  | collecting room => exact says_showResults k room
  | asking query sequel =>
    intro c hc
    have hline : c₀.Abides ((onLine k late wait).run.run c).2 ∧
        ∀ s, ((onLine k late wait).run.run c).1 = .ok (.waiting s) → s.plan.tends = false := by
      cases wait with
      | line s =>
        obtain ⟨hsame, honward⟩ := plan_resume (c.wired k) late (he.plan s rfl)
        simp only [onLine, run_withLine]
        exact ⟨hc.trans (.rewire hc.filed honward.abides), fun s' hs => (hsame s' hs).symm ▸ he.plan s rfl⟩
      | pane revision limit => exact ⟨hc, fun _ hs => by cases hs⟩
      | sleep time => exact ⟨hc, fun _ hs => by cases hs⟩
    simp only [resume, run_bind, run_attempt]
    exact says_pursue k query sequel hline.2 _ hline.1
  | starting name next => cases he.purpose
  | failing cause => cases he.purpose
  | stopping name => cases he.purpose

end Console
end CoqConsole
