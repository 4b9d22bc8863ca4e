import CoqConsole.Proofs.Console.Holding
import CoqConsole.Proofs.Console.Numbering

/-!
# Open files of registered sessions

At the seat of every registered session the notes of open files agree with what the session holds. A seat is not looked at
until its session is registered, and by then nothing is noted or held there: so the seats of servers that are being started
stay vacant.

* `Host.Ages` : processes end, and more are spawned;
* `Console.Tidy` : all seats agree, and some are vacant;
* `Tidy.edit`, `Tidy.putDesk`, ..., `steady_tidy`, `concludes_tidy` : so it stays in turns;
* `Console.Ordered`, `ordered_after`, `ordered_afterAll` : those are vacant whose server is being started; after every run;
* `Console.Shelved`, `files_shelved` : what that comes to for a registered session.
-/

namespace CoqConsole

/-! ## Hosts -/

/-- What has ended stays so, processes keep their numbers, and the directory is the same. -/
structure Host.Ages (h h' : Host) : Prop where
  count : h.processes.length ≤ h'.processes.length
  ended : ∀ p < h.processes.length, h.isAlive p = false → h'.isAlive p = false
  cwd : h'.cwd = h.cwd

theorem Host.Ages.of_processes {h h' h'' : Host} (hages : h.Ages h') (hprocesses : h''.processes = h'.processes)
    (hcwd : h''.cwd = h'.cwd) : h.Ages h'' where
  count := hprocesses.symm ▸ hages.count
  ended p hp hdead := by
    rw [isAlive, process?, hprocesses]
    exact hages.ended p hp hdead
  cwd := hcwd.trans hages.cwd

theorem Host.Grows.ages {h h' : Host} (hgrows : h.Grows h') : h.Ages h' where
  count := by
    refine Nat.le_of_not_lt fun hlt => ?_
    obtain ⟨q, hq, -⟩ := hgrows.processes h'.processes.length _ (List.getElem?_eq_getElem hlt)
    exact Nat.lt_irrefl _ (List.getElem?_eq_some_iff.mp hq).1
  ended p hp hdead := by
    obtain ⟨q', hq', hlater⟩ := hgrows.processes p _ (List.getElem?_eq_getElem hp)
    rw [isAlive, process?, List.getElem?_eq_getElem hp, Option.map_some, Option.getD_some] at hdead
    rw [isAlive, hq', Option.map_some, Option.getD_some]
    exact hlater.not_alive hdead
  cwd := hgrows.cwd

namespace Wired

variable {w w' : Wired}

/-- A line that is left alone is down if it was. -/
theorem not_isRunning_of_ages {host : Host} (hnumbered : w.Numbered) (hages : w.host.Ages host)
    (hdown : w.isRunning = false) : isRunning ⟨host, w.line⟩ = false := by
  let aged : Wired := ⟨host, w.line⟩
  have hback : aged.isRunning = true → w.isRunning = true :=
    isRunning_of_ended rfl (fun h => h) fun p hp => hages.ended p (hnumbered p hp)
  exact Bool.eq_false_iff.mpr fun hup => Bool.eq_false_iff.mp hdown (hback hup)

/-- The host goes on, and the line has a process that is numbered there, if any. -/
structure Ages (w w' : Wired) : Prop where
  host : w.host.Ages w'.host
  numbered : w.Numbered → w'.Numbered

theorem Further.ages (h : w.Further w') : w.Ages w' := ⟨h.grows.ages, h.numbered⟩

theorem Abides.ages (h : w.Abides w') (hcwd : w'.host.cwd = w.host.cwd) : w.Ages w' where
  host := ⟨h.count, fun p _ => h.ended p, hcwd⟩
  numbered hw p hp := Nat.lt_of_lt_of_le (hw p (h.process.symm.trans hp)) h.count

end Wired

def Errand.starts (e : Errand) : Bool :=
  match e.purpose with
  | .starting .. => true
  | _ => false

/-- Nothing is held and no file is noted as open. -/
structure Session.IsVacant (s : Session) (documents : List (Path × Nat)) : Prop where
  attachments : s.attachments = []
  documents : documents = []

theorem Session.IsVacant.agrees {d : Desk Wired} {documents : List (Path × Nat)} (h : d.session.IsVacant documents) :
    d.Agrees documents := by
  obtain rfl := h.documents
  refine ⟨List.nodup_nil, fun _ _ hmem => absurd hmem List.not_mem_nil, fun _ _ hmem => absurd hmem List.not_mem_nil,
    fun n hn => ?_, fun _ _ hmem => absurd hmem List.not_mem_nil⟩
  obtain ⟨p, hp, -⟩ := hn
  rw [h.attachments] at hp
  exact absurd hp List.not_mem_nil

namespace Console

variable {c c' : Console} {k n : Nat} {lost vacant : List Nat}

/-! ## Seats that agree -/

/-- At the seats of registered sessions what is noted agrees with what is held, and some seats are vacant. -/
structure Tidy (vacant : List Nat) (c : Console) : Prop where
  seated : c.Seated
  clear : c.host.cwd.IsClear
  numbered : ∀ k, (c.wired k).Numbered
  bound : ∀ k, (c.desk k).Bound
  agrees : ∀ k, c.Registered k → (c.desk k).Agrees (c.seatAt k).documents
  vacant : ∀ k ∈ vacant, k < c.seats.length ∧ ¬ c.Registered k ∧ (c.seatAt k).session.IsVacant (c.seatAt k).documents

namespace Tidy

theorem mono (h : c.Tidy vacant) {vacant' : List Nat} (hsub : vacant' ⊆ vacant) : c.Tidy vacant' :=
  { h with vacant := fun k hk => h.vacant k (hsub hk) }

/-- One seat changed, and what is registered is registered still or no more. -/
theorem edit (h : c.Tidy vacant) (k : Nat) (hregistry : c'.registry ⊆ c.registry) (hseats : c'.seats.length = c.seats.length)
    (hages : c.host.Ages c'.host) (hnumbered : (c'.wired k).Numbered) (hbound : (c'.desk k).Bound)
    (hagrees : c'.Registered k → (c'.desk k).Agrees (c'.seatAt k).documents)
    (hvacant : k ∈ vacant → (c'.seatAt k).session.IsVacant (c'.seatAt k).documents)
    (hother : ∀ j ≠ k, c'.seatAt j = c.seatAt j) : c'.Tidy vacant := by
  have hin {j : Nat} (hj : c'.Registered j) : c.Registered j := hj.imp fun _ h => ⟨hregistry h.1, h.2⟩
  have hwired {j : Nat} (hj : j ≠ k) : c'.wired j = ⟨c'.host, (c.wired j).line⟩ := by rw [wired, hother j hj]; rfl
  have hdesk {j : Nat} (hj : j ≠ k) : c'.desk j = { c.desk j with link := c'.wired j } := by rw [desk, hother j hj]; rfl
  refine ⟨fun entry hentry => hseats ▸ h.seated entry (hregistry hentry), hages.cwd ▸ h.clear, fun j => ?_, fun j => ?_,
    fun j hj => ?_, fun j hj => ?_⟩
  · by_cases hjk : j = k
    · exact hjk ▸ hnumbered
    · rw [hwired hjk]
      exact fun p hp => Nat.lt_of_lt_of_le (h.numbered j p hp) hages.count
  · by_cases hjk : j = k
    · exact hjk ▸ hbound
    · rw [hdesk hjk]
      exact (h.bound j).of_eq rfl rfl rfl
  · by_cases hjk : j = k
    · subst hjk
      exact hagrees hj
    · rw [hdesk hjk, hother j hjk]
      refine (h.agrees j (hin hj)).of_eq rfl rfl fun hdown => ?_
      rw [hwired hjk]
      exact Wired.not_isRunning_of_ages (h.numbered j) hages hdown
  · obtain ⟨hlt, hout, hvac⟩ := h.vacant j hj
    refine ⟨hseats ▸ hlt, fun hj => hout (hin hj), ?_⟩
    by_cases hjk : j = k
    · subst hjk
      exact hvacant hj
    · rw [hother j hjk]
      exact hvac

theorem of_seats (h : c.Tidy vacant) (hregistry : c'.registry ⊆ c.registry) (hseats : c'.seats = c.seats)
    (hages : c.host.Ages c'.host) : c'.Tidy vacant := by
  have hseat (j : Nat) : c'.seatAt j = c.seatAt j := by rw [seatAt, hseats, ← seatAt]
  -- No seat has changed; one is looked at that is not there.
  have hnone : c.seatAt c.seats.length = nobody := by
    rw [seatAt, List.getElem?_eq_none (Nat.le_refl _)]
    rfl
  refine h.edit c.seats.length hregistry (congrArg List.length hseats) hages ?_ ?_ ?_ ?_ fun j _ => hseat j
  · intro p hp
    have hp : (c'.seatAt c.seats.length).line.process = some p := hp
    rw [hseat, hnone] at hp
    cases hp
  · exact (h.bound c.seats.length).of_eq (by rw [desk, hseat]; rfl) (by rw [desk, hseat]; rfl) (by rw [desk, hseat]; rfl)
  · rintro ⟨entry, hentry, hlast⟩
    exact absurd (h.seated entry (hregistry hentry)) (hlast ▸ Nat.lt_irrefl _)
  · exact fun hmem => absurd (h.vacant _ hmem).1 (Nat.lt_irrefl _)

/-- The notes of a seat and what is done at its desk change together. -/
theorem work (h : c.Tidy vacant) (hk : k < c.seats.length) {f : Seat → Seat} {d : Desk Wired}
    (hlink : (c.wired k).Ages d.link) (hbound : d.Bound)
    (hagrees : c.Registered k → d.Agrees (f (c.seatAt k)).documents)
    (hvacant : k ∈ vacant → d.session.IsVacant (f (c.seatAt k)).documents) :
    ((c.editSeat k f).putDesk k d).Tidy vacant := by
  have hlength := length_editSeat c k f
  have hseat : ((c.editSeat k f).putDesk k d).seatAt k =
      { f (c.seatAt k) with session := d.session, buffers := d.buffers, line := d.link.line } := by
    rw [seatAt_putDesk, if_pos ⟨rfl, hlength.symm ▸ hk⟩, seatAt_editSeat, if_pos ⟨rfl, hk⟩]
  obtain ⟨hprocesses, hcwd⟩ : ((c.editSeat k f).putDesk k d).host.processes = d.link.host.processes ∧
      ((c.editSeat k f).putDesk k d).host.cwd = d.link.host.cwd := grows_records _ _
  refine h.edit k (List.Subset.refl _) ((length_putDesk _ k d).trans hlength)
    (hlink.host.of_processes hprocesses hcwd) (fun p hp => ?_) ?_ (fun hin => ?_) (fun hmem => ?_) fun j hj => ?_
  · rw [wired, hseat] at hp
    exact hprocesses.symm ▸ hlink.numbered (h.numbered k) p hp
  · exact hbound.of_eq (by rw [desk, hseat]) (by rw [desk, hseat]) (by rw [desk, hseat])
  · rw [hseat]
    refine (hagrees hin).of_eq (by rw [desk, hseat]) (by rw [desk, hseat]) fun hdown => ?_
    rw [desk, wired, hseat]
    exact (Wired.isRunning_of_processes hprocesses).trans hdown
  · rw [hseat]
    exact hvacant hmem
  · rw [seatAt_putDesk, if_neg fun heq => hj heq.1, seatAt_editSeat, if_neg fun heq => hj heq.1]

theorem putDesk (h : c.Tidy vacant) {d : Desk Wired} (hlink : (c.wired k).Ages d.link) (hbound : d.Bound)
    (hagrees : c.Registered k → d.Agrees (c.seatAt k).documents)
    (hvacant : k ∈ vacant → d.session.IsVacant (c.seatAt k).documents) : (c.putDesk k d).Tidy vacant := by
  by_cases hk : k < c.seats.length
  · have hwork := h.work hk (f := id) hlink hbound hagrees hvacant
    rwa [editSeat_self (f := id) rfl] at hwork
  · have hnone (f : Seat → Seat) : (c.editSeat k f).seats = c.seats := by rw [editSeat_of_le (Nat.not_lt.mp hk)]
    obtain ⟨hprocesses, hcwd⟩ : (c.putDesk k d).host.processes = d.link.host.processes ∧
        (c.putDesk k d).host.cwd = d.link.host.cwd := grows_records _ _
    refine h.of_seats (List.Subset.refl _) ?_ (hlink.host.of_processes hprocesses hcwd)
    have hseats : (c.putDesk k d).seats = ((c.editSeat k fun s => { s with session := d.session, buffers := d.buffers }).editSeat
        k fun s => { s with line := d.link.line }).seats := rfl
    rw [hseats, editSeat_of_le (Nat.not_lt.mp hk), hnone]

/-- What goes on at a desk without a buffer that is taken up or let go. -/
theorem retained (h : c.Tidy vacant) {d : Desk Wired} (hretains : (c.desk k).Retains d) : (c.putDesk k d).Tidy vacant :=
  h.putDesk hretains.link.further.ages hretains.bound (fun hin => (h.agrees k hin).of_retains hretains) fun hmem =>
    ⟨hretains.attachments.trans (h.vacant k hmem).2.2.attachments, (h.vacant k hmem).2.2.documents⟩

end Tidy

theorem rewire_eq_putDesk (c : Console) (k : Nat) (w : Wired) :
    c.rewire k w = c.putDesk k ⟨(c.seatAt k).session, (c.seatAt k).buffers, w⟩ := by
  have hnotices : (c.seatAt k).session.notices.drop (c.seatAt k).session.notices.length = [] := List.drop_length
  unfold Console.putDesk
  simp only [hnotices, List.foldl_nil]
  rw [editSeat_self (k := k) rfl]

namespace Tidy

theorem rewire (h : c.Tidy vacant) {w : Wired} (hages : (c.wired k).Ages w)
    (habides : c.Registered k → (c.wired k).Abides w) : (c.rewire k w).Tidy vacant := by
  rw [rewire_eq_putDesk]
  refine h.putDesk hages ((h.bound k).of_eq rfl rfl rfl) (fun hin => ?_) fun hmem => (h.vacant k hmem).2.2
  exact (h.agrees k hin).of_eq rfl rfl (habides hin).not_isRunning

theorem append (h : c.Tidy vacant) {s : Seat} (hs : s.IsFresh) : Tidy vacant { c with seats := c.seats ++ [s] } := by
  have hother {j : Nat} (hj : j ≠ c.seats.length) : seatAt { c with seats := c.seats ++ [s] } j = c.seatAt j := by
    rw [seatAt_append, if_neg hj]
  have hlast : seatAt { c with seats := c.seats ++ [s] } c.seats.length = s := by rw [seatAt_append, if_pos rfl]
  refine ⟨fun entry hentry => ?_, h.clear, fun j => ?_, fun j => ?_, fun j hj => ?_, fun j hj => ?_⟩
  · rw [List.length_append]
    exact Nat.lt_add_right _ (h.seated entry hentry)
  · by_cases hj : j = c.seats.length
    · subst hj
      obtain ⟨workdir, environment, hline⟩ := hs.line
      rw [wired, hlast, hline]
      exact fun p hp => by cases hp
    · rw [wired, hother hj]
      exact h.numbered j
  · by_cases hj : j = c.seats.length
    · subst hj
      obtain ⟨config, hcreate⟩ := hs.created
      obtain ⟨hattachments, hactive⟩ := Session.attachments_create hcreate
      rw [desk, hlast]
      refine Desk.IsUnheard.bound ⟨hattachments, hactive, ?_⟩
      rw [hs.buffers]
      exact List.forall_mem_nil _
    · rw [desk, hother hj]
      exact (h.bound j).of_eq rfl rfl rfl
  · have hlt : j < c.seats.length := Registered.lt (c := c) hj h.seated
    rw [desk, wired, hother (Nat.ne_of_lt hlt)]
    exact h.agrees j hj
  · obtain ⟨hlt, hout, hvac⟩ := h.vacant j hj
    refine ⟨?_, hout, ?_⟩
    · rw [List.length_append]
      exact Nat.lt_add_right _ hlt
    · rw [hother (Nat.ne_of_lt hlt)]
      exact hvac

theorem stamp (h : c.Tidy vacant) (started : Int) : (c.editSeat k fun s => { s with started }).Tidy vacant := by
  obtain ⟨time, hseat⟩ : ∃ time,
      (c.editSeat k fun s => { s with started }).seatAt k = { c.seatAt k with started := time } := by
    rw [seatAt_editSeat]
    split <;> exact ⟨_, rfl⟩
  refine h.edit k (List.Subset.refl _) (length_editSeat c k _) (Host.Grows.refl _).ages ?_ ?_ (fun hin => ?_) (fun hmem => ?_)
    fun j hj => by rw [seatAt_editSeat, if_neg fun heq => hj heq.1]
  · rw [wired, hseat]
    exact h.numbered k
  · rw [desk, hseat]
    exact (h.bound k).of_eq rfl rfl rfl
  · rw [desk, wired, hseat]
    exact h.agrees k hin
  · rw [hseat]
    exact (h.vacant k hmem).2.2

theorem dismiss (h : c.Tidy vacant) (name : Json) : (c.dismiss name).Tidy vacant := by
  refine h.of_seats (registry_dismiss c name) (seats_dismiss c name) ?_
  unfold Console.dismiss
  split <;> exact (Host.Grows.refl _).ages

/-- A seat is registered at which nothing is held or noted. -/
theorem enroll (h : c.Tidy vacant) (name : Json) (hk : k < c.seats.length) (hfree : k ∉ vacant)
    (hvacant : (c.seatAt k).session.IsVacant (c.seatAt k).documents) : (c.enroll name k).Tidy vacant := by
  have hseated : (c.enroll name k).Seated := steady_seated.enroll h.seated hk trivial
  have hin {j : Nat} (hj : (c.enroll name k).Registered j) : c.Registered j ∨ j = k := by
    obtain ⟨entry, hentry, rfl⟩ := hj
    unfold Console.enroll at hentry
    split at hentry
    · rcases Keyed.mem_put hentry with hmem | heq
      · exact .inl ⟨entry, hmem, rfl⟩
      · exact .inr (congrArg (fun entry => entry.2.seat) heq)
    · exact .inl ⟨entry, hentry, rfl⟩
  obtain ⟨registry, henroll⟩ : ∃ registry, c.enroll name k = { c with registry } := by
    unfold Console.enroll
    split <;> exact ⟨_, rfl⟩
  rw [henroll] at hseated hin ⊢
  refine ⟨hseated, h.clear, h.numbered, fun j => (h.bound j).of_eq rfl rfl rfl, fun j hj => ?_, fun j hj => ?_⟩
  · rcases hin hj with hold | rfl
    · exact h.agrees j hold
    · exact Session.IsVacant.agrees (d := desk { c with registry } j) hvacant
  · obtain ⟨hlt, hout, hvac⟩ := h.vacant j hj
    refine ⟨hlt, fun hin' => ?_, hvac⟩
    rcases hin hin' with hold | rfl
    · exact hout hold
    · exact hfree hj

/-! ## Files are opened and closed -/

theorem boundUpkeep : Desk.Upkeep lineCarrier (fun _ => True) (fun _ => True) Desk.Bound := Desk.Bound.upkeep

theorem adopt (h : c.Tidy vacant) {path : Path} {file : Json} (text : String) (hin : c.Registered k)
    (hresolve : c.resolve file = .ok path) (hget : Keyed.get? path (c.seatAt k).documents = none) :
    ((c.shelve k path text).putDesk k
      ((Desk.adopt lineCarrier (c.seatAt k).buffers.length).run.run ((c.shelve k path text).desk k)).2).Tidy vacant := by
  have hk : k < c.seats.length := hin.lt h.seated
  let d : Desk Wired := { c.desk k with buffers := (c.desk k).buffers ++ [.ofText path.uri text Buffer.defaultLanguage] }
  have hdesk : (c.shelve k path text).desk k = d := by
    rw [desk, wired, shelve, seatAt_editSeat, if_pos ⟨rfl, hk⟩]
    rfl
  have hlast : (c.seatAt k).buffers.length < d.buffers.length := by
    rw [List.length_append]
    exact Nat.lt_succ_self _
  have hclear : path.IsClear := by
    cases file with
    | text s =>
      obtain rfl := Except.ok.inj hresolve
      exact Path.isClear_resolve h.clear s
    | _ => cases hresolve
  have hlinked := (Desk.Linked.upkeep (keeps_lineCarrier (c.wired k))).adopt hlast (fun _ hd hn hout => hd.holding hn hout) d
    ⟨⟨(h.bound k).toFiled.append _, .refl _⟩, rfl⟩
  have hbound := boundUpkeep.adopt hlast (fun _ hd hn hout => hd.holding hn hout) d
    ⟨(h.bound k).append (Buffer.silent_ofText _ _ _), rfl⟩
  rw [hdesk]
  refine h.work hk hlinked.1.link.further.ages hbound.1 (fun hin => ?_) fun hmem => absurd hin (h.vacant k hmem).2.1
  exact (h.agrees k hin).adopt (h.bound k) hclear hget text Buffer.defaultLanguage

theorem close (h : c.Tidy vacant) {path : Path} (hin : c.Registered k) (hget : Keyed.get? path (c.seatAt k).documents = some n) :
    ((c.unshelve k path).putDesk k
      ((Desk.closeBuffer lineCarrier n).run.run ((c.unshelve k path).desk k)).2).Tidy vacant := by
  have hk : k < c.seats.length := hin.lt h.seated
  have hdesk : (c.unshelve k path).desk k = c.desk k := by
    rw [desk, wired, unshelve, seatAt_editSeat, if_pos ⟨rfl, hk⟩]
    rfl
  have hlinked := (Desk.Linked.upkeep (keeps_lineCarrier (c.wired k))).closeBuffer (n := n) trivial (c.desk k)
    ⟨(h.bound k).toFiled, .refl _⟩
  have hbound := boundUpkeep.closeBuffer (n := n) trivial (c.desk k) (h.bound k)
  rw [hdesk]
  refine h.work hk hlinked.link.further.ages hbound (fun hin => ?_) fun hmem => absurd hin (h.vacant k hmem).2.1
  exact (h.agrees k hin).close (h.bound k) hget

/-- A session is forgotten, and all that it holds is let go. -/
theorem shutdown (h : c.Tidy vacant) (hkept : c.Kept lost) {name : Json} (hfind : c.find? name = .ok (some k)) :
    ((c.dismiss name).putDesk k (Desk.shutdown.run.run ((c.dismiss name).desk k)).2).Tidy vacant := by
  have hdismissed := h.dismiss name
  have hlinked := (Desk.Linked.upkeep (keeps_lineCarrier ((c.dismiss name).wired k))).shutdown ((c.dismiss name).desk k)
    ⟨(hdismissed.bound k).toFiled, .refl _⟩
  have hbound := boundUpkeep.shutdown ((c.dismiss name).desk k) (hdismissed.bound k)
  have hout := hkept.not_registered_dismiss hfind
  refine hdismissed.putDesk hlinked.link.further.ages hbound (fun hin => absurd hin hout) fun hmem => ?_
  exact absurd (mem_of_find hfind) (h.vacant k hmem).2.1

end Tidy

/-! ## Turns -/

/-- The seat of a session may be registered if nothing is held or noted there, and it is none of those to stay vacant. -/
def Admits (vacant : List Nat) (k : Nat) (s : Session) (documents : List (Path × Nat)) : Prop :=
  k ∉ vacant ∧ s.IsVacant documents

theorem steady_tidy (vacant : List Nat) : Steady (Admits vacant) (Tidy vacant) where
  seated h := h.seated
  chore {c k α op} h hop := h.retained (Desk.Retains.chore hop (c.desk k) (.refl (h.bound k)))
  adopt h hin hresolve hget := h.adopt _ hin hresolve hget
  close h hin hget := h.close hin hget
  line h hfurther habides := h.rewire hfurther.ages habides
  stamp h := h.stamp _
  dismiss h := h.dismiss _
  enroll h hk hmay := h.enroll _ hk hmay.1 hmay.2
  append h hfresh := h.append hfresh
  fresh h hfresh := by
    obtain ⟨config, hcreate⟩ := hfresh.created
    exact ⟨fun hmem => Nat.lt_irrefl _ (h.vacant _ hmem).1, (Session.attachments_create hcreate).1, hfresh.documents⟩

/-- A turn leaves a call that is starting a server at a seat that may be registered. -/
def Rested (vacant : List Nat) (r : Except Failure Turn) (c : Console) : Prop :=
  c.Tidy vacant ∧ ∀ errand, r = .ok (.awaits errand) → errand.starts = true →
    errand.seat < c.seats.length ∧ Admits vacant errand.seat (c.seatAt errand.seat).session (c.seatAt errand.seat).documents

theorem concludes_tidy (vacant : List Nat) : Concludes (Admits vacant) (Tidy vacant) (Rested vacant) where
  rests h hrests := by
    refine ⟨h, fun errand he hstarts => ⟨(hrests errand he).seat, ?_⟩⟩
    unfold Errand.starts at hstarts
    split at hstarts
    · next name next hpurpose => exact (hrests errand he).may name next hpurpose
    · cases hstarts
  views k timeout room := by
    refine .step (.get fun _ hc => hc) (fun c => ?_) fun _ _ hc => ⟨hc.1, fun _ he => by cases he⟩
    refine .step (.lift fun _ hc => hc) (fun limit => .pure fun _ hc => ⟨hc.1, fun errand he hstarts => ?_⟩)
      fun _ _ hc => ⟨hc.1, fun _ he => by cases he⟩
    cases he
    cases hstarts
  sends k n request timeout sequel _ := by
    rintro c ⟨hc, -⟩
    have hsent := sent k n request timeout sequel c
    refine ⟨(steady_tidy vacant).sent (fun {c k} query cause hc => ?_) hsent hc, fun errand he hstarts => ?_⟩
    · exact hc.retained ((Desk.Retains.speech (c.desk k)).note.finish query _ (c.desk k) (.refl (hc.bound k)))
    · unfold Errand.starts at hstarts
      obtain ⟨-, query, id, hposes⟩ := hsent.errand he
      have hpurpose := hposes.purpose
      rw [hpurpose] at hstarts
      cases hstarts

/-! ## Runs -/

def upcoming (c : Console) : List Nat := (c.calls.filter fun call => call.2.starts).map fun call => call.2.seat

theorem mem_upcoming : k ∈ c.upcoming ↔ ∃ call ∈ c.calls, call.2.starts = true ∧ call.2.seat = k := by
  simp [upcoming, and_assoc]

/-- All seats agree, and those are vacant whose servers are being started. -/
def Ordered (c : Console) : Prop := c.Tidy c.upcoming

theorem tends_of_starts {e : Errand} (h : e.starts = true) : e.purpose.tends = true := by
  unfold Errand.starts at h
  split at h
  · next name next hpurpose =>
    rw [hpurpose]
    rfl
  · cases h

/-- No two calls start a server at one seat. -/
theorem Kept.notMem_upcoming (hkept : c.Kept lost) {errand : Errand} (hget : Keyed.get? n c.calls = some errand)
    (hstarts : errand.starts = true) : errand.seat ∉ (c.without n).upcoming := by
  intro hmem
  obtain ⟨call, hcall, hcallstarts, hseat⟩ := mem_upcoming.mp hmem
  have htended : errand.seat ∈ errand.tended ++ lost :=
    List.mem_append_left _ (Errand.mem_tended.mpr ⟨tends_of_starts hstarts, rfl⟩)
  exact ((hkept.forgo hget).gone _ htended).1 (hseat ▸ mem_attended_of_call hcall (tends_of_starts hcallstarts))

theorem upcoming_subset (h : ∀ call ∈ c'.calls, call ∈ c.calls) : c'.upcoming ⊆ c.upcoming := by
  intro k hk
  obtain ⟨call, hcall, hstarts⟩ := mem_upcoming.mp hk
  exact mem_upcoming.mpr ⟨call, h call hcall, hstarts⟩

theorem tidy_turned {e : Event} {r : Except Failure Turn} (hkept : c.Kept lost) (hplaced : c.Placed) (h : c.Ordered)
    (hturned : c.Turned e n r c') : Rested (c.without n).upcoming r c' := by
  have hsub : (c.without n).upcoming ⊆ c.upcoming := upcoming_subset fun call hcall => (Keyed.mem_erase.mp hcall).1
  refine (steady_tidy _).turned (concludes_tidy _) hkept hplaced (fun n hc => hc.of_seats (List.Subset.refl _) rfl
    (Host.Grows.refl _).ages) ?_ ?_ ?_ (h.mono hsub) hturned
  · intro late errand name next he hget hpurpose
    have hstarts : errand.starts = true := by rw [Errand.starts, hpurpose]
    exact ⟨hkept.notMem_upcoming hget hstarts,
      (h.vacant _ (mem_upcoming.mpr ⟨_, Keyed.mem_of_get? hget, hstarts, rfl⟩)).2.2⟩
  · exact fun _ _ _ _ _ _ hfind => (h.mono hsub).shutdown hkept hfind
  · rintro late errand query sequel answer - - - c ⟨hc, -⟩
    refine ⟨?_, fun errand' he hstarts => ?_⟩
    · rw [state_answered]
      exact hc.retained ((Desk.Retains.speech (c.desk errand.seat)).note.finish query answer _ (.refl (hc.bound errand.seat)))
    · obtain ⟨wait, room, time, -, rfl⟩ := follows_answered _ query sequel answer c errand' he
      cases hstarts

theorem tidy_hear (h : c.Tidy vacant) (k : Nat) (method : String) (params : Json) : (c.hear k method params).Tidy vacant := by
  unfold hear
  cases Signal.ofMethod? method with
  | none => exact h
  | some signal =>
    have hretains := (Desk.Retains.conduct (c.desk k)).hear params signal (c.desk k) (.refl (h.bound k))
    simp only [run_withDesk]
    generalize (Desk.hear lineCarrier params signal).run.run (c.desk k) = out at hretains
    obtain ⟨cause | u, d⟩ := out
    · exact (h.retained hretains).of_seats (List.Subset.refl _) rfl (Host.Grows.record _ _).ages
    · exact h.retained hretains

theorem tidy_read (h : c.Tidy vacant) (k : Nat) : (c.apply (.read k)).Tidy vacant := by
  have hrewired {w : Wired} {handed : Option (String × Json)} (hread : (c.wired k).read handles = some (w, handed)) :
      (c.rewire k w).Tidy vacant :=
    h.rewire (Wired.Abides.ages (.read hread) (Wired.cwd_read hread)) fun _ => .read hread
  unfold apply
  simp only
  split
  · next w method params hread => exact tidy_hear (hrewired hread) k method params
  · next w hread => exact hrewired hread
  · exact h

theorem tidy_listen (h : c.Tidy vacant) (k p : Nat) : (c.apply (.listen k p)).Tidy vacant := by
  unfold apply
  simp only
  split
  · next w hlisten =>
    have habides : (c.wired k).Abides w := .listen hlisten
    obtain ⟨host, listening, rfl, hgrows, -, -⟩ := Wired.eq_of_listen hlisten
    exact h.rewire (habides.ages hgrows.cwd) fun _ => habides
  · exact h

/-- No server is being started by a call whose request got through. -/
theorem upcoming_subset_of_passes {e : Event} {errand errand' : Errand} (h : c.Passes e n errand errand') :
    upcoming { c with calls := Keyed.erase n c.calls ++ [(n, errand')] } ⊆ c.upcoming := by
  intro k hk
  obtain ⟨call, hcall, hstarts, rfl⟩ := mem_upcoming.mp hk
  rcases List.mem_append.mp hcall with hold | hnew
  · exact mem_upcoming.mpr ⟨call, (Keyed.mem_erase.mp hold).1, hstarts, rfl⟩
  · obtain rfl := List.mem_singleton.mp hnew
    obtain ⟨_⟩ := h.passes
    cases hstarts

theorem ordered_after (hkept : c.Kept lost) (hplaced : c.Placed) (h : c.Ordered) (e : Event) : (c.after e).Ordered := by
  obtain ⟨lost', hkept'⟩ := exists_kept_after hkept e
  rcases after_cases c e with ⟨n, r, c', made, hturned, hafter⟩ | ⟨n, errand, errand', hpasses⟩ | ⟨k, rfl⟩ | ⟨k, p, rfl⟩ |
    ⟨host, files, rota, hafter, hgrows, -⟩
  · obtain ⟨htidy, hrested⟩ := tidy_turned hkept hplaced h hturned
    have hold : c'.upcoming ⊆ (c.without n).upcoming := upcoming_subset fun call hcall =>
      Keyed.mem_erase.mpr ((hturned.ledger hkept).1 call hcall)
    rw [hafter]
    rcases r with cause | (text | errand)
    · exact (htidy.mono hold).of_seats (List.Subset.refl _) rfl (Host.Grows.refl _).ages
    · exact (htidy.mono hold).of_seats (List.Subset.refl _) rfl (Host.Grows.refl _).ages
    · have hstood : (stand { c' with made } n (.ok (.awaits errand))).Tidy (c.without n).upcoming :=
        htidy.of_seats (List.Subset.refl _) rfl (Host.Grows.refl _).ages
      refine { hstood with vacant := fun k hk => ?_ }
      obtain ⟨call, hcall, hstarts, rfl⟩ := mem_upcoming.mp hk
      rcases List.mem_append.mp hcall with hwaits | hnew
      · exact hstood.vacant _ (hold (mem_upcoming.mpr ⟨call, hwaits, hstarts, rfl⟩))
      · obtain rfl := List.mem_singleton.mp hnew
        obtain ⟨hseat, hadmits⟩ := hrested errand rfl hstarts
        rw [hafter] at hkept'
        exact ⟨hseat, hkept'.not_registered hcall (tends_of_starts hstarts), hadmits.2⟩
  · rw [hpasses.after]
    refine (h.mono (upcoming_subset_of_passes hpasses)).of_seats (List.Subset.refl _) rfl (Host.Grows.refl _).ages
  · exact (tidy_read h k).mono (upcoming_subset fun call hcall => (abides_read hkept.filed k).calls ▸ hcall)
  · exact (tidy_listen h k p).mono (upcoming_subset fun call hcall => (abides_listen hkept.filed k p).calls ▸ hcall)
  · rw [hafter]
    exact h.of_seats (List.Subset.refl _) rfl hgrows.ages

theorem ordered_afterAll (hregular : c.Regular) (h : c.Ordered) (es : List Event) : (c.afterAll es).Ordered := by
  induction es generalizing c with
  | nil => exact h
  | cons e es ih =>
    obtain ⟨lost, hkept⟩ := hregular.kept
    exact ih (regular_after hregular e) (ordered_after hkept hregular.placed h e)

theorem IsUnused.ordered (h : c.IsUnused) (hclear : c.host.cwd.IsClear) : c.Ordered := by
  have hseat (k : Nat) : c.seatAt k = nobody := by
    rw [seatAt, h.seats]
    rfl
  have hunregistered (k : Nat) : ¬ c.Registered k := by
    rintro ⟨entry, hentry, -⟩
    rw [h.registry] at hentry
    exact absurd hentry List.not_mem_nil
  refine ⟨h.kept.isSeated, hclear, fun k p hp => ?_, fun k => ?_, fun k hk => absurd hk (hunregistered k), fun k hk => ?_⟩
  · rw [wired, hseat] at hp
    cases hp
  · rw [desk, hseat]
    exact Desk.IsUnheard.bound ⟨rfl, rfl, fun b hb => absurd hb List.not_mem_nil⟩
  · obtain ⟨call, hcall, -⟩ := mem_upcoming.mp hk
    rw [h.calls] at hcall
    exact absurd hcall List.not_mem_nil

/-- How the open files of a registered session and its attached buffers go together. -/
structure Shelved (c : Console) (k : Nat) : Prop where
  /-- A file is noted once, and its buffer has the address of its path and was not closed. -/
  noted : (Keyed.keys (c.seatAt k).documents).Nodup ∧ ∀ path n, (path, n) ∈ (c.seatAt k).documents →
    ∃ b, (c.seatAt k).buffers[n]? = some b ∧ b.uri = path.uri ∧ b.closed = false
  /-- Whatever is attached is the buffer of an open file. -/
  attached : ∀ uri n, (c.desk k).attached? uri = some n → ∃ path, (path, n) ∈ (c.seatAt k).documents ∧ path.uri = uri
  /-- The buffer of an open file is attached, unless the server is down. -/
  listed : ∀ path n, (path, n) ∈ (c.seatAt k).documents →
    (c.desk k).attached? path.uri = some n ∨ (c.wired k).isRunning = false
  /-- So while the server runs the two agree. -/
  agree : (c.wired k).isRunning = true → ∀ path, path.IsClear → ∀ n,
    (path, n) ∈ (c.seatAt k).documents ↔ (c.desk k).attached? path.uri = some n

theorem Tidy.shelved (h : c.Tidy vacant) (hin : c.Registered k) : c.Shelved k := by
  have hagrees := h.agrees k hin
  have hbound := h.bound k
  have hattached (uri : String) (n : Nat) (hn : (c.desk k).attached? uri = some n) :
      ∃ path, (path, n) ∈ (c.seatAt k).documents ∧ path.uri = uri := by
    obtain ⟨a, ha, rfl⟩ := Option.map_eq_some_iff.mp hn
    exact hagrees.noted_of_mem hbound (Keyed.mem_of_get? ha)
  have hopen (path : Path) (n : Nat) (hmem : (path, n) ∈ (c.seatAt k).documents) :
      (c.desk k).attached? path.uri = some n ∨ (c.wired k).isRunning = false := by
    refine (hagrees.held path n hmem).imp_left fun hn => ?_
    obtain ⟨a, ha, rfl⟩ := hbound.get?_of_holds hn
    rw [Desk.attached?, ← hagrees.uri_eq hmem, ha, Option.map_some]
  refine ⟨⟨hagrees.single, fun path n hmem => ?_⟩, hattached, hopen, fun hup path hclear n => ⟨fun hmem => ?_, fun hn => ?_⟩⟩
  · have hstored := hagrees.stored path n hmem
    rw [List.getElem?_map] at hstored
    obtain ⟨b, hb, hlabel⟩ := Option.map_eq_some_iff.mp hstored
    exact ⟨b, hb, congrArg Prod.fst hlabel, congrArg Prod.snd hlabel⟩
  · exact (hopen path n hmem).resolve_right (Bool.not_eq_false _ |>.mpr hup)
  · obtain ⟨path', hmem, huri⟩ := hattached path.uri n hn
    exact Path.uri_injective (hagrees.clear path' n hmem) hclear huri ▸ hmem

theorem files_shelved (hc : c.IsUnused) (hclear : c.host.cwd.IsClear) (es : List Event) :
    ∀ entry ∈ (c.afterAll es).registry, (c.afterAll es).Shelved entry.2.seat := fun entry hentry =>
  (ordered_afterAll hc.regular (hc.ordered hclear) es).shelved ⟨entry, hentry, rfl⟩

theorem quiet_isClear : quiet.host.cwd.IsClear := by
  show ∀ part ∈ ["ws"], part ≠ "" ∧ '/' ∉ part.toList
  decide

/-- A console whose servers end as soon as they are told that they were started. -/
def fleeting : Console :=
  let react (message : Json) : List Act := match message.get? "method" with
    | some (.text "initialized") => [.exit 0]
    | _ => []
  { quiet with
    host := { quiet.host with programs := fun _ => ⟨fun _ message => react message, true, .ends, fun _ => false, false⟩ } }

/-- A file is opened, for which a session is started. -/
def openedInVain : List Event :=
  [.store ⟨[(⟨["ws", "A.v"]⟩, [])], [⟨["ws"]⟩]⟩, .call "coq_open" [("file", .text "/ws/A.v")]] ++ welcomed 0

theorem files_shelved_openedInVain :
    (∀ entry ∈ (fleeting.afterAll openedInVain).registry, (fleeting.afterAll openedInVain).Shelved entry.2.seat) ∧
      (fleeting.afterAll openedInVain).registry.map (fun entry => entry.2.seat) = [0] ∧
        ((fleeting.afterAll openedInVain).seatAt 0).documents = [(⟨["ws", "A.v"]⟩, 0)] ∧
          ((fleeting.afterAll openedInVain).desk 0).attached? "file:///ws/A.v" = none ∧
            ((fleeting.afterAll openedInVain).wired 0).isRunning = false := by
  refine ⟨@files_shelved fleeting ⟨rfl, rfl, rfl, rfl⟩ quiet_isClear openedInVain, ?_⟩
  decide +kernel

end Console
end CoqConsole
