import CoqConsole.Proofs.Console.Numbering

/-!
# What sessions show

A session shows two panes and its notices. What is done in a turn leaves them alone, but for answers and for the end of a
session; the rest comes with messages of the server.

* `Display`, `Session.display` : the panes, the search whose hits are shown, and the notices;
* `Session.Presents` : what is said of them, and of the tickets; `Lasting` : tickets that are taken leave it true;
* `presents_chore`, `exists_wiped` : what is done at a desk;
* `Console.Presents`, `steady_presents`, `presents_turned`, `presents_stopped` : what is done in a turn;
* `session_read`, `session_listen`, `presents_after` : what is read, and all events.
-/

namespace CoqConsole

/-! ## One session -/

/-- What a pane shows, and how often it was written to. -/
def Pane.content (p : Pane) : List String × Nat := (p.lines, p.revision)

structure Display where
  proofs : List String × Nat
  infos : List String × Nat
  /-- The search whose hits fill the query pane. -/
  shown : Option Int
  notices : List Notice

def Session.display (s : Session) : Display := ⟨s.proofPane.content, s.queryPane.content, s.shownSearch, s.notices⟩

def Display.blank : Display := ⟨([], 0), ([], 0), none, []⟩

def Display.wiped (x : Display) : Display := { x with proofs := ([], x.proofs.2 + 1), infos := ([], x.infos.2 + 1) }

/-- What is said of what a session shows and of its tickets is left true by tickets that are taken. -/
def Lasting (J : Display → Tickets String → Prop) : Prop := ∀ x t aim, J x t → J x (t.serve aim)

/-- So it is if no tickets are spoken of. -/
theorem lasting_display (f : Display → Prop) : Lasting fun x _ => f x := fun _ _ _ h => h

/-- What is said does not depend on the notices. -/
def IsApart (J : Display → Tickets String → Prop) : Prop := ∀ x t notices, J x t → J { x with notices } t

/-- A session shows what is said, and has such tickets. -/
def Session.Presents (J : Display → Tickets String → Prop) (s : Session) : Prop := J s.display s.tickets

variable {J K : Display → Tickets String → Prop}

theorem Session.presents_create {config : Json} {ns : String} {s : Session} (h : Session.create config ns = .ok s)
    (hblank : J .blank .none) : s.Presents J := by
  unfold Session.create at h
  cases hmake : Settings.make config with
  | error cause =>
    rw [hmake] at h
    cases h
  | ok settings =>
    rw [hmake] at h
    cases h
    exact hblank

namespace Desk

variable (carrier : Carrier Wired) {d : Desk Wired}

theorem aloof_presents {L : Type} (carrier : Carrier L) (hJ : Lasting J) : Aloof carrier fun d => d.session.Presents J where
  send h _ _ := h
  session _ _ h := h
  serve aim h := hJ _ _ aim h
  buffers _ h := h

theorem presents_updateSettings (update : Json) :
    Ensures (fun d => d.session.Presents J) (updateSettings carrier update) fun _ d => d.session.Presents J := by
  intro d hd
  rw [run_updateSettings]
  cases Settings.proofMode d.session.settings with
  | error cause => exact hd
  | ok previous =>
    cases Json.merge d.session.settings update with
    | error cause => exact hd
    | ok merged =>
      obtain ⟨link, hpush⟩ := relinked_push carrier previous merged (d.withSettings merged)
      simp only [hpush]
      exact hd

theorem presents_chore {α : Type} {op : Desk.Op Wired α} (hJ : Lasting J) (h : Chore op) :
    Ensures (fun d => d.session.Presents J) op fun _ d => d.session.Presents J := by
  have a := aloof_presents lineCarrier hJ
  cases h with
  | begin n timeout request => exact a.begin n timeout request
  | moveCursor n p => exact a.moveCursor n p
  | interpretTo n p => exact a.interpretTo n p
  | step n direction => exact a.step n direction
  | replaceText n text => exact a.replaceText n text
  | updateSettings update => exact presents_updateSettings lineCarrier update
  | toggleMode =>
    intro d hd
    rw [run_toggleMode]
    cases Settings.proofMode d.session.settings with
    | error cause => exact hd
    | ok mode =>
      have hupdate := presents_updateSettings lineCarrier (Settings.modeUpdate mode.flip) d hd
      simp only
      generalize (Desk.updateSettings lineCarrier (Settings.modeUpdate mode.flip)).run.run d = out at hupdate
      rcases out with ⟨_ | _, d'⟩ <;> exact hupdate

/-- Where all that is held can be let go, both panes are emptied in the end. -/
theorem exists_wiped (hJ : Lasting J) (h : d.Filed) (hd : d.session.Presents J) :
    ∃ x t, J x t ∧ (shutdown.run.run d).2.session.display = x.wiped ∧ (shutdown.run.run d).2.session.tickets = t := by
  obtain ⟨d', hrun⟩ := run_detachAll h d.session.attachments (List.Subset.refl _) h.single
  have hlet := (aloof_presents lineCarrier hJ).detachAll (d.session.attachments.map fun p => p.2.buffer) d hd
  rw [hrun] at hlet
  have hclear : (shutdown.run.run d).2 = { d' with session := { d'.session with
      proofPane := d'.session.proofPane.write .clear, queryPane := d'.session.queryPane.write .clear } } := by
    simp only [shutdown, run_bind, run_get]
    rw [hrun]
    rfl
  rw [hclear]
  exact ⟨d'.session.display, d'.session.tickets, hlet, rfl, rfl⟩

theorem hear_proofView (params : Json) (d : Desk Wired) :
    (hear carrier params .proofView).run.run d =
      match ProofView.ofJson params >>= ProofView.render with
      | .ok lines =>
        (.ok (), { d with session := { d.session with proofPane := d.session.proofPane.write (.replace lines) } })
      | .error cause => (.error cause, d) := by
  simp only [hear, hearProofView, run_bind, run_lift]
  cases ProofView.ofJson params with
  | error cause => rfl
  | ok view =>
    cases hrender : ProofView.render view with
    | error cause => simp only [hrender, bind, Except.bind]
    | ok lines =>
      simp only [hrender, bind, Except.bind]
      rfl

/-- The query pane is emptied for a search whose hits are not in it yet. -/
theorem session_showSearch (s : Int) (d : Desk Wired) :
    ((showSearch s).run.run d).2.session = if d.session.shownSearch = some s then d.session
      else { d.session with shownSearch := some s, queryPane := d.session.queryPane.write .clear } := rfl

theorem shownSearch_showSearch (s : Int) (d : Desk Wired) : ((showSearch s).run.run d).2.session.shownSearch = some s := by
  rw [session_showSearch]
  split
  · next hshown => exact hshown
  · rfl

theorem presents_finish_error (hapart : IsApart J) (query : Query) (cause : Failure) :
    Ensures (fun d : Desk Wired => d.session.Presents J) (finish query (.error cause)) fun _ d => d.session.Presents J := by
  intro d hd
  rw [run_finish_error]
  cases query.notice? cause with
  | none => exact hd
  | some notice => exact hapart _ _ _ hd

/-- Progress and moves of the cursor show nothing. -/
theorem presents_hear {signal : Signal} (hsignal : signal = .progress ∨ signal = .cursor) (hJ : Lasting J) (params : Json)
    (d : Desk Wired) (hd : d.session.Presents J) : ((hear carrier params signal).run.run d).2.session.Presents J := by
  rcases hsignal with rfl | rfl
  · exact (aloof_presents carrier hJ).hearProgress params d hd
  · exact (aloof_presents carrier hJ).hearCursor params d hd

end Desk

/-! ## All sessions -/

namespace Console

variable {c c' : Console} {j k n : Nat} {lost : List Nat}

def display (c : Console) (j : Nat) : Display := (c.seatAt j).session.display

theorem display_of_seats (h : c'.seats = c.seats) (j : Nat) : c'.display j = c.display j := by
  rw [display, seatAt, h]
  rfl

def Presents (J : Display → Tickets String → Prop) (j : Nat) (c : Console) : Prop := c.Seated ∧ (c.seatAt j).session.Presents J

theorem Presents.of_seats (h : c.Presents J j) (hregistry : c'.registry ⊆ c.registry) (hseats : c'.seats = c.seats) :
    c'.Presents J j := by
  refine ⟨fun entry hentry => hseats ▸ h.1 entry (hregistry hentry), ?_⟩
  rw [seatAt, hseats]
  exact h.2

theorem Presents.editSeat (h : c.Presents J j) {f : Seat → Seat} (hf : ∀ s, (f s).session = s.session) :
    (c.editSeat k f).Presents J j := by
  refine ⟨seated_of_seats h.1 rfl (Nat.le_of_eq (length_editSeat c k f).symm), ?_⟩
  rw [seatAt_editSeat]
  split
  · next hj =>
    rw [hf, ← hj.1]
    exact h.2
  · exact h.2

theorem Presents.rewire (h : c.Presents J j) (w : Wired) : (c.rewire k w).Presents J j := by
  refine ⟨seated_of_seats h.1 rfl (Nat.le_of_eq (length_rewire c k w).symm), ?_⟩
  rw [(noted_rewire c k w j).1]
  exact h.2

theorem Presents.putDesk (h : c.Presents J j) {d : Desk Wired} (hd : j = k → k < c.seats.length → d.session.Presents J) :
    (c.putDesk k d).Presents J j := by
  refine ⟨seated_of_seats h.1 rfl (Nat.le_of_eq (length_putDesk c k d).symm), ?_⟩
  rw [seatAt_putDesk]
  split
  · next hj => exact hd hj.1 hj.2
  · exact h.2

/-- What keeps a session's display keeps it at a desk. -/
theorem Presents.at_desk (h : c.Presents J j) {α : Type} {op : Desk.Op Wired α}
    (hop : Ensures (fun d => d.session.Presents J) op fun _ d => d.session.Presents J) :
    (c.putDesk k (op.run.run (c.desk k)).2).Presents J j :=
  h.putDesk fun hj _ => hop (c.desk k) (hj ▸ h.2)

theorem steady_presents (hJ : Lasting J) (j : Nat) : Steady (fun _ _ _ => True) (Presents J j) where
  seated h := h.1
  chore h hop := h.at_desk (Desk.presents_chore hJ hop)
  adopt {c k path text file} h _ _ _ := by
    have hshelved : (c.shelve k path text).Presents J j := by
      refine h.editSeat ?_
      exact fun _ => rfl
    exact hshelved.at_desk ((Desk.aloof_presents lineCarrier hJ).adopt _)
  close {c k path n} h _ _ := by
    have hunshelved : (c.unshelve k path).Presents J j := by
      refine h.editSeat ?_
      exact fun _ => rfl
    exact hunshelved.at_desk ((Desk.aloof_presents lineCarrier hJ).closeBuffer n)
  line h _ _ := h.rewire _
  stamp h := by
    refine h.editSeat ?_
    exact fun _ => rfl
  dismiss h := h.of_seats (registry_dismiss _ _) (seats_dismiss _ _)
  enroll h hk hmay :=
    ⟨steady_seated.enroll h.1 hk hmay, by rw [seatAt, seats_enroll]; exact h.2⟩
  append {c s} h hfresh := by
    refine ⟨steady_seated.append h.1 hfresh, ?_⟩
    rw [seatAt_append]
    split
    · next hj =>
      -- A seat that is not there shows nothing, and neither does a new one.
      obtain ⟨config, hcreate⟩ := hfresh.created
      have hnobody : (c.seatAt j).session.Presents J := h.2
      rw [seatAt, hj, List.getElem?_eq_none (Nat.le_refl _)] at hnobody
      exact Session.presents_create hcreate hnobody
    · exact h.2
  fresh _ _ := trivial

/-! ## Turns -/

theorem concludes_presents (hJ : Lasting J) (hapart : IsApart J) (j : Nat) :
    Concludes (fun _ _ _ => True) (Presents J j) fun _ => Presents J j where
  rests h _ := h
  views k timeout room := by
    refine .step (.get fun _ hc => hc) (fun c => ?_) fun _ _ hc => hc.1
    exact .step (.lift fun _ hc => hc) (fun limit => .pure fun _ hc => hc.1) fun _ _ hc => hc.1
  sends k n request timeout sequel _ := by
    rintro c ⟨hc, -⟩
    exact (steady_presents hJ j).sent (fun query cause hc => hc.at_desk (Desk.presents_finish_error hapart query cause))
      (sent k n request timeout sequel c) hc

/-- An answer is shown by the session of its seat, if at all. -/
theorem presents_answered {query : Query} {answer : Except Failure Json} (h : c.Presents J j) (sequel : Sequel)
    (hanswer : j = k → ∀ d : Desk Wired, d.session = (c.seatAt j).session →
      ((Desk.finish query answer).run.run d).2.session.Presents J) :
    ((answered k query sequel answer).run.run c).2.Presents J j := by
  rw [state_answered]
  refine h.putDesk fun hj _ => hanswer hj (c.desk k) ?_
  rw [hj]
  rfl

/-- A session that is stopped empties its panes; the others go on to show what they did. -/
theorem presents_shut (hJ : Lasting J) (hkept : c.Kept lost) {session : Json} (hfind : c.find? session = .ok (some k))
    (hc : (c.seatAt j).session.Presents J) (hwipe : j = k → ∀ x t, J x t → K x.wiped t)
    (hother : j ≠ k → (c.seatAt j).session.Presents K) :
    ((c.dismiss session).putDesk k (Desk.shutdown.run.run ((c.dismiss session).desk k)).2).Presents K j := by
  have hseat (i : Nat) : (c.dismiss session).seatAt i = c.seatAt i := by rw [seatAt, seats_dismiss, seatAt]
  have hk : k < (c.dismiss session).seats.length := (seats_dismiss c session).symm ▸ hkept.isSeated.find hfind
  refine ⟨seated_shutdown hkept.isSeated session k, ?_⟩
  rw [seatAt_putDesk]
  by_cases hj : j = k
  · subst hj
    have hdesk : ((c.dismiss session).desk j).session.Presents J := by
      rw [show ((c.dismiss session).desk j).session = (c.seatAt j).session from congrArg Seat.session (hseat j)]
      exact hc
    obtain ⟨x, t, hx, hdisplay, htickets⟩ := Desk.exists_wiped hJ ((hkept.dismiss hfind).filed j) hdesk
    rw [if_pos ⟨rfl, hk⟩]
    show K _ _
    rw [hdisplay, htickets]
    exact hwipe rfl x t hx
  · rw [if_neg fun h => hj h.1, hseat]
    exact hother hj

/-- The tool that stops a session empties its panes. -/
theorem presents_stopped (hJ : Lasting J) (hK : Lasting K) (hapart : IsApart K) (hkept : c.Kept lost) {session : Json}
    (hfind : c.find? session = .ok (some k)) (hc : (c.seatAt k).session.Presents J) (hwipe : ∀ x t, J x t → K x.wiped t) :
    ((run (.stop session)).run.run c).2.Presents K k := by
  refine (steady_presents hK k).stop (concludes_presents hK hapart k) hkept (fun hnone => absurd hfind (hnone k))
    (fun k' hk' => ?_) c rfl
  rw [hfind] at hk'
  cases hk'
  exact presents_shut hJ hkept hfind hc (fun _ => hwipe) fun hne => absurd rfl hne

/-- What is said of a session stays true through a turn, if it is true of emptied panes where the session is stopped, and of
what an answer shows where a request of the session goes on. -/
theorem presents_turned (hJ : Lasting J) (hapart : IsApart J) {e : Event} {r : Except Failure Turn} (h : c.Regular) (j : Nat)
    (hstop : ∀ name args session, e = .call name args → Tool.ofCall name args = .ok (.stop session) →
      c.find? session = .ok (some j) → ∀ x t, J x t → J x.wiped t)
    (hanswer : ∀ late errand id query sequel, e = .move (.resume n late) → Keyed.get? n c.calls = some errand →
      errand.seat = j → Poses errand id query sequel → ∀ ending : Ending, ending.IsProper late → ∀ d : Desk Wired,
        d.session = (c.seatAt j).session →
          ((Desk.finish query ((Line.collect id (.text query.method) query.params ending).run.run (c.wired j)).1).run.run
            d).2.session.Presents J)
    (hturned : c.Turned e n r c') (hc : (c.seatAt j).session.Presents J) : c'.Presents J j := by
  obtain ⟨lost, hkept⟩ := h.kept
  rcases hturned.asking_cases h with
    ⟨late, errand, id, query, sequel, ending, rfl, hget, hposes, hproper, hrun⟩ | hask
  · obtain rfl := congrArg Prod.snd hrun
    have hwithout : (c.without n).Presents J j := ⟨hkept.isSeated, hc⟩
    refine presents_answered (hwithout.rewire _) sequel ?_
    rintro rfl d hd
    refine hanswer late errand id query sequel rfl hget rfl hposes ending hproper d ?_
    rw [hd, (noted_rewire _ _ _ _).1]
    rfl
  · refine (steady_presents hJ j).turned (concludes_presents hJ hapart j) hkept h.placed (fun _ hc => hc)
      (fun _ _ _ _ _ _ _ => trivial) ?_ ?_ ⟨hkept.isSeated, hc⟩ hturned
    · intro name args session k he htool hfind
      refine presents_shut hJ hkept hfind hc (fun hj => ?_) fun _ => hc
      exact hstop name args session he htool (hj ▸ hfind)
    · intro late errand query sequel _ he hget hpurpose
      exact absurd hpurpose (hask late errand query sequel he hget)

/-! ## Messages -/

theorem signal_of_method {method : String} {signal : Signal} (h : Signal.ofMethod? method = some signal) :
    method = signal.method := by
  have hfound := List.find?_some h
  exact (beq_iff_eq.mp hfound).symm

theorem session_rewire (c : Console) (k : Nat) (w : Wired) (j : Nat) : ((c.rewire k w).seatAt j).session = (c.seatAt j).session :=
  (noted_rewire c k w j).1

/-- A message that a seat gets is a notification that sessions hear. -/
def Gets (c : Console) (k : Nat) (signal : Signal) (params : Json) : Prop :=
  ∃ w, (c.wired k).read handles = some (w, some (signal.method, params))

/-- When a message is read it is heard at the desk of its seat, and at no other; or no session takes notice. -/
theorem session_read (c : Console) (k : Nat) :
    (∀ j, ((c.apply (.read k)).seatAt j).session = (c.seatAt j).session) ∨
      ∃ signal params d, c.Gets k signal params ∧ d.session = (c.seatAt k).session ∧
        ((c.apply (.read k)).seatAt k).session = ((Desk.hear lineCarrier params signal).run.run d).2.session ∧
        ∀ j ≠ k, ((c.apply (.read k)).seatAt j).session = (c.seatAt j).session := by
  simp only [apply]
  split
  · next w method params hread =>
    simp only [hear]
    cases hsignal : Signal.ofMethod? method with
    | none => exact .inl fun j => session_rewire c k w j
    | some signal =>
      obtain rfl := signal_of_method hsignal
      let d := (c.rewire k w).desk k
      have hsession : d.session = (c.seatAt k).session := session_rewire c k w k
      have hheard (j : Nat) : (((c.rewire k w).putDesk k ((Desk.hear lineCarrier params signal).run.run d).2).seatAt j).session =
          if j = k ∧ k < c.seats.length then ((Desk.hear lineCarrier params signal).run.run d).2.session
          else (c.seatAt j).session := by
        rw [seatAt_putDesk, length_rewire]
        split
        · rfl
        · exact session_rewire c k w j
      simp only [run_withDesk]
      by_cases hk : k < c.seats.length
      · refine .inr ⟨signal, params, d, ⟨w, hread⟩, hsession, ?_⟩
        have hat := hheard k
        rw [if_pos ⟨rfl, hk⟩] at hat
        have hother (j : Nat) (hj : j ≠ k) := (hheard j).trans (if_neg fun h => hj h.1)
        split
        · exact ⟨hat, hother⟩
        · exact ⟨hat, hother⟩
      · have hsame (j : Nat) := (hheard j).trans (if_neg fun h => hk h.2)
        refine .inl ?_
        split
        · exact hsame
        · exact hsame
  · exact .inl fun j => session_rewire c k _ j
  · exact .inl fun _ => rfl

/-- Lines of an error stream are no matter of any session. -/
theorem session_listen (c : Console) (k p j : Nat) : ((c.apply (.listen k p)).seatAt j).session = (c.seatAt j).session := by
  simp only [apply]
  split
  · exact session_rewire c k _ j
  · rfl

/-- What is said of a session stays true when a message is read, if it is true of what views and hits show. -/
theorem presents_read (hJ : Lasting J) (j : Nat) (hhear : ∀ signal params, c.Gets j signal params → j = k →
      signal = .proofView ∨ signal = .searchHit → ∀ d : Desk Wired, d.session = (c.seatAt j).session →
        ((Desk.hear lineCarrier params signal).run.run d).2.session.Presents J)
    (hc : (c.seatAt j).session.Presents J) : ((c.apply (.read k)).seatAt j).session.Presents J := by
  rcases session_read c k with hsame | ⟨signal, params, d, hgets, hsession, hheard, hother⟩
  · rw [hsame]
    exact hc
  · by_cases hj : j = k
    · subst hj
      rw [hheard]
      have hd : d.session.Presents J := hsession ▸ hc
      cases signal with
      | progress => exact Desk.presents_hear lineCarrier (.inl rfl) hJ params d hd
      | cursor => exact Desk.presents_hear lineCarrier (.inr rfl) hJ params d hd
      | proofView => exact hhear _ params hgets rfl (.inl rfl) d hsession
      | searchHit => exact hhear _ params hgets rfl (.inr rfl) d hsession
    · rw [hother j hj]
      exact hc

/-- So it does with every event. -/
theorem presents_after (hJ : Lasting J) (hapart : IsApart J) {e : Event} (h : c.Regular) (j : Nat)
    (hstop : ∀ name args session, e = .call name args → Tool.ofCall name args = .ok (.stop session) →
      c.find? session = .ok (some j) → ∀ x t, J x t → J x.wiped t)
    (hanswer : ∀ n late errand id query sequel, e = .move (.resume n late) → Keyed.get? n c.calls = some errand →
      errand.seat = j → Poses errand id query sequel → ∀ ending : Ending, ending.IsProper late → ∀ d : Desk Wired,
        d.session = (c.seatAt j).session →
          ((Desk.finish query ((Line.collect id (.text query.method) query.params ending).run.run (c.wired j)).1).run.run
            d).2.session.Presents J)
    (hhear : ∀ signal params, e = .move (.read j) → c.Gets j signal params → signal = .proofView ∨ signal = .searchHit →
      ∀ d : Desk Wired, d.session = (c.seatAt j).session →
        ((Desk.hear lineCarrier params signal).run.run d).2.session.Presents J)
    (hc : (c.seatAt j).session.Presents J) : ((c.after e).seatAt j).session.Presents J := by
  rcases after_cases c e with ⟨n, r, c', made, hturned, hafter⟩ | ⟨n, errand, errand', hpasses⟩ | ⟨k, rfl⟩ | ⟨k, p, rfl⟩ |
    ⟨host, files, rota, hafter, -, -⟩
  · have hpresents := (presents_turned hJ hapart h j hstop (fun late errand id query sequel => ?_) hturned hc).2
    · rw [hafter]
      rcases r with cause | (text | errand) <;> exact hpresents
    · exact hanswer n late errand id query sequel
  · rw [hpasses.after]
    exact hc
  · refine presents_read hJ j (fun signal params hgets hj hsignal => ?_) hc
    subst hj
    exact hhear signal params rfl hgets hsignal
  · rw [show c.after (.move (.listen k p)) = c.apply (.listen k p) from rfl, session_listen]
    exact hc
  · rw [hafter]
    exact hc

end Console
end CoqConsole
