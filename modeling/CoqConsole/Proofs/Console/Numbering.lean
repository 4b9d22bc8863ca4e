import CoqConsole.Proofs.Console.Rounds
import CoqConsole.Proofs.Session.Aloof

/-!
# Numbers of requests

Each line numbers its requests, and a number is used once, whoever asks and whatever else happens. What a request comes to
is what an answer to its number says, or there is none.

* `Wired.proceeds_read`, `Console.Proceeds`, `proceeds_after` : numbers go up, and answers are kept under their own;
* `Line.Outcome`, `outcome_collect` : what a request comes to;
* `Console.Begun`, `Console.Numbers`, `numbers_turned` : a request as its call begins to wait, in a turn of its own;
* `Console.Posed`, `posed_after` : no two calls wait for one number of a line;
* `Console.Regular`, `regular_afterAll`, `attests_afterAll`, `exists_asked` : so it is in every run.
-/

namespace CoqConsole

/-! ## Lines -/

namespace Wired

variable {w w' : Wired}

theorem proceeds_endReading (w : Wired) (r : Option Record) : w.line.Proceeds (w.endReading r).line := by
  obtain ⟨settled, hfail, hnew⟩ := Line.eq_of_failPending .lostConnection { w.line with reading := false }
  rw [show (w.endReading r).line = w.line.endReading from rfl, Line.endReading, hfail]
  exact .of_failures rfl hnew

theorem proceeds_read {handles : String → Bool} {handed : Option (String × Json)} (h : w.read handles = some (w', handed)) :
    w.line.Proceeds w'.line := by
  rcases read_ends_or_heeds h with ⟨v, r, rfl | ⟨p, rest, rfl⟩, rfl⟩ | ⟨p, message, rest, hheeds⟩
  · exact proceeds_endReading v r
  · exact proceeds_endReading (w.consumed p rest) r
  · exact hheeds.onward.proceeds

end Wired

namespace Line

/-- What a request comes to: what an answer to its number says, or there is none, or it could not be sent or waited for. -/
inductive Outcome (id : Nat) (method params : Json) : Except Failure Json → Prop
  | answered {message : Json} (own : message.IsAnswer (some id)) : Outcome id method params (resultOf method params message)
  | missing {cause : Failure} (hcause : cause = .timedOut ∨ cause = .lostConnection ∨ cause = .stopped) :
    Outcome id method params (.error cause)
  | unsent {cause : Failure} (hcause : cause = .brokenPipe ∨ cause = .wrongKind) : Outcome id method params (.error cause)

/-- Answers are kept under the numbers that they name, and those that are not the server's tell why there is none. -/
structure Attests (l : Line) : Prop where
  answers : ∀ i message, (i, .ok message) ∈ l.settled → message.IsAnswer (some i)
  failures : ∀ i cause, (i, .error cause) ∈ l.settled → cause = .lostConnection ∨ cause = .stopped

theorem outcome_collect {w : Wired} (h : w.line.Attests) (id : Nat) (method params : Json) {late : Bool} {ending : Ending}
    (hproper : ending.IsProper late) : Outcome id method params ((collect id method params ending).run.run w).1 := by
  have hcollects := collects id method params ending w
  generalize ((collect id method params ending).run.run w).1 = r at hcollects
  cases hcollects with
  | late => exact .missing (.inl rfl)
  | unsent cause => exact .unsent (hproper.failure cause rfl)
  | unanswered => exact .missing (.inr (.inl rfl))
  | failed hkept => exact .missing (.inr (h.failures id _ hkept))
  | answered hkept hresult => exact hresult ▸ .answered (h.answers id _ (Keyed.mem_of_get? hkept))

end Line

/-! ## Desks -/

namespace Desk

variable {P : Wired → Prop}

theorem aloof_link (hsend : lineCarrier.Keeps P) : Aloof lineCarrier fun d => P d.link where
  send h _ hlink := hsend _ _ _ _ h hlink
  session _ _ h := h
  serve _ h := h
  buffers _ h := h

theorem conduct_link (hsend : lineCarrier.Keeps P) : Conduct lineCarrier (fun _ => True) (fun _ => True) fun d => P d.link where
  note _ _ h _ _ _ := h
  settings h hlink := hsend _ _ _ _ h hlink
  about h _ _ hlink := hsend _ _ _ _ h hlink
  held _ _ := trivial
  met _ := trivial
  mark h _ := h
  moveCursor _ _ := (aloof_link hsend).moveCursor _ _

theorem link_chore {α : Type} {op : Desk.Op Wired α} (hsend : lineCarrier.Keeps P) (h : Chore op) :
    Ensures (fun d => P d.link) op fun _ d => P d.link := by
  have a := aloof_link hsend
  cases h with
  | begin n timeout request => exact a.begin n timeout request
  | moveCursor n p => exact a.moveCursor n p
  | interpretTo n p => exact a.interpretTo n p
  | step n direction => exact a.step n direction
  | replaceText n text => exact a.replaceText n text
  | updateSettings update => exact (conduct_link hsend).updateSettings update
  | toggleMode => exact (conduct_link hsend).toggleMode

theorem link_shutdown (hsend : lineCarrier.Keeps P) : Ensures (fun d => P d.link) shutdown fun _ d => P d.link :=
  .step (.get fun _ hd => hd) (fun _ => .step ((aloof_link hsend).detachAll _) (fun _ => .modify fun _ hd => hd) fun _ _ h => h)
    fun _ _ h => h

end Desk

/-! ## Aims -/

/-- What follows a request suits what it was for. -/
inductive Sequel.Matches : Sequel → Aim → Prop
  | collect (wait room : Json) (ticket : Nat) : Matches (.collect wait room) (.search ticket)
  | «show» (room : Json) (ticket : Nat) : Matches (.show room) (.question ticket)
  | confirm (uri : String) : Matches (.confirm uri) .reset

theorem Tickets.eq_of_aim?_question {t : Tickets String} {kind pattern : Json} {place : Place} {aim : Aim}
    (h : t.aim? (.question kind pattern place) = some aim) : aim = .question (t.issued + 1) := by
  have haim : (if isQuestion kind then some (Aim.question (t.issued + 1)) else Option.none) = some aim := h
  split at haim
  · exact (Option.some.inj haim).symm
  · cases haim

theorem Sequel.Suits.matches {sequel : Sequel} {request : Request} (h : sequel.Suits request) {t : Tickets String} {aim : Aim}
    (haim : t.aim? request = some aim) : sequel.Matches aim := by
  cases h with
  | collect wait room pattern place =>
    obtain rfl := Option.some.inj haim
    exact .collect wait room _
  | «show» room kind pattern place =>
    obtain rfl := Tickets.eq_of_aim?_question haim
    exact .show room _
  | confirm uri =>
    obtain rfl := Option.some.inj haim
    exact .confirm uri

def Tickets.IsLast (t : Tickets String) : Aim → Prop
  | .search ticket => t.latest searchChannel = ticket
  | .question ticket => t.latest questionChannel = ticket
  | .reset => True

theorem Tickets.isLast_serve {t : Tickets String} {request : Request} {aim : Aim} (h : t.aim? request = some aim) :
    (t.serve (some aim)).IsLast aim := by
  have hsearch : (t.serve (some (.search (t.issued + 1)))).IsLast (.search (t.issued + 1)) :=
    (latest_issue t searchChannel searchChannel).trans (if_pos rfl)
  have hquestion : (t.serve (some (.question (t.issued + 1)))).IsLast (.question (t.issued + 1)) :=
    (latest_issue t questionChannel questionChannel).trans (if_pos rfl)
  cases request with
  | search pattern place => exact Option.some.inj h ▸ hsearch
  | question kind pattern place => exact eq_of_aim?_question h ▸ hquestion
  | reset => exact Option.some.inj h ▸ trivial

/-! ## The console -/

namespace Console

variable {c₀ c c' : Console} {e : Event} {k n : Nat}

/-- The lines of all seats go on with their numbers, and what they keep as answers comes under its own. -/
def Proceeds (c c' : Console) : Prop := ∀ k, (c.seatAt k).line.Proceeds (c'.seatAt k).line

namespace Proceeds

theorem refl (c : Console) : c.Proceeds c := fun _ => .refl _

theorem trans {c'' : Console} (h : c.Proceeds c') (h' : c'.Proceeds c'') : c.Proceeds c'' := fun k => (h k).trans (h' k)

theorem of_seats (h : c₀.Proceeds c) (hseats : c'.seats = c.seats) : c₀.Proceeds c' := by
  intro k
  have hseat : c'.seatAt k = c.seatAt k := by rw [seatAt, hseats, seatAt]
  rw [hseat]
  exact h k

theorem editSeat (h : c₀.Proceeds c) {f : Seat → Seat} (hf : ∀ s, (f s).line = s.line) : c₀.Proceeds (c.editSeat k f) := by
  intro j
  rw [seatAt_editSeat]
  split
  · next hj =>
    rw [hf, ← hj.1]
    exact h j
  · exact h j

theorem rewire (h : c₀.Proceeds c) {w : Wired} (hw : (c.seatAt k).line.Proceeds w.line) : c₀.Proceeds (c.rewire k w) := by
  intro j
  rw [seatAt_rewire]
  split
  · next hj => exact (h j).trans (hj.1 ▸ hw)
  · exact h j

theorem putDesk (h : c₀.Proceeds c) {d : Desk Wired} (hd : (c.seatAt k).line.Proceeds d.link.line) :
    c₀.Proceeds (c.putDesk k d) := by
  intro j
  rw [seatAt_putDesk]
  split
  · next hj => exact (h j).trans (hj.1 ▸ hd)
  · exact h j

theorem keeps_line (l : Line) : lineCarrier.Keeps fun w => l.Proceeds w.line := fun method params w w' h hsend =>
  h.trans (keeps_lineCarrier w method params w w' (.refl w) hsend).proceeds

/-- What is done at a desk with no more than its link is. -/
theorem at_desk (h : c₀.Proceeds c) {α : Type} {op : Desk.Op Wired α}
    (hop : ∀ l : Line, Ensures (fun d => l.Proceeds d.link.line) op fun _ d => l.Proceeds d.link.line) :
    c₀.Proceeds (c.putDesk k (op.run.run (c.desk k)).2) :=
  h.putDesk (hop _ (c.desk k) (.refl _))

end Proceeds

theorem steady_proceeds (c₀ : Console) : Steady (fun _ _ _ => True) fun c => c.Seated ∧ c₀.Proceeds c where
  seated h := h.1
  chore h hop := ⟨steady_seated.chore h.1 hop, h.2.at_desk fun _ => Desk.link_chore (Proceeds.keeps_line _) hop⟩
  adopt {c k path text file} h hin hresolve hget := by
    refine ⟨steady_seated.adopt h.1 hin hresolve hget, ?_⟩
    have hshelved : c₀.Proceeds (c.shelve k path text) := by
      refine h.2.editSeat ?_
      exact fun _ => rfl
    exact hshelved.at_desk fun _ => (Desk.aloof_link (Proceeds.keeps_line _)).adopt _
  close {c k path n} h hin hget := by
    refine ⟨steady_seated.close h.1 hin hget, ?_⟩
    have hunshelved : c₀.Proceeds (c.unshelve k path) := by
      refine h.2.editSeat ?_
      exact fun _ => rfl
    exact hunshelved.at_desk fun _ => (Desk.aloof_link (Proceeds.keeps_line _)).closeBuffer n
  line h hfurther habides := ⟨steady_seated.line h.1 hfurther habides, h.2.rewire hfurther.proceeds⟩
  stamp h := by
    refine ⟨steady_seated.stamp h.1, h.2.editSeat ?_⟩
    exact fun _ => rfl
  dismiss h := ⟨steady_seated.dismiss h.1, h.2.of_seats (seats_dismiss _ _)⟩
  enroll h hk hmay := ⟨steady_seated.enroll h.1 hk hmay, h.2.of_seats (seats_enroll _ _ _)⟩
  append {c s} h hfresh := by
    refine ⟨steady_seated.append h.1 hfresh, fun j => ?_⟩
    rw [seatAt_append]
    split
    · next hj =>
      -- A seat that is not there has asked for nothing, and neither has a new one.
      obtain ⟨workdir, environment, hline⟩ := hfresh.line
      have hnobody := h.2 j
      rw [show (c.seatAt j) = nobody by rw [seatAt, hj, List.getElem?_eq_none (Nat.le_refl _)]; rfl] at hnobody
      rw [hline]
      exact ⟨hnobody.nextId_le, hnobody.answers⟩
    · exact h.2 j
  fresh _ _ := trivial

/-! ## Requests -/

variable {errand : Errand} {id : Nat} {request : Request} {timeout : Json} {query : Query} {sequel : Sequel}
  {r : Except Failure Turn}

/-- A request as its call begins to wait: its number is the last of its line, and its ticket the last of its channel. -/
structure Begun (c : Console) (errand : Errand) (id : Nat) (query : Query) (sequel : Sequel) : Prop where
  poses : Poses errand id query sequel
  apt : sequel.Matches query.aim
  number : (c.seatAt errand.seat).line.nextId = id + 1
  ticket : (c.seatAt errand.seat).session.tickets.IsLast query.aim

theorem Sent.begun (hsuits : sequel.Suits request) (hk : k < c.seats.length) (h : c.Sent k n request timeout sequel r c')
    (he : r = .ok (.awaits errand)) (hpurpose : errand.purpose = .asking query sequel) :
    ∃ id, c'.Begun errand id query sequel ∧ (c.seatAt k).line.nextId ≤ id := by
  cases h with
  | refused hbegin => cases he
  | @waits query' d call w hbegin hask =>
    cases he
    obtain ⟨rfl, -⟩ := Purpose.asking.inj hpurpose
    obtain ⟨o, hrun, haim⟩ := Desk.run_begin lineCarrier (c.desk k) n timeout request
    rw [hbegin] at hrun
    obtain ⟨rfl, rfl⟩ := Prod.mk.inj hrun
    have haim := haim query' rfl
    rcases ask_cases (.text query'.method) query'.params query'.timeout
        ((c.putDesk k ((c.desk k).served ((c.desk k).session.tickets.aim? request))).wired k) with
      ⟨cause, w', hask'⟩ | ⟨wait, w', hids, hnext, hask'⟩
    · rw [hask] at hask'
      cases hask'
    · rw [hask] at hask'
      cases hask'
      have hseat := seatAt_putDesk c k ((c.desk k).served ((c.desk k).session.tickets.aim? request)) k
      rw [if_pos ⟨rfl, hk⟩] at hseat
      have hline : ((c.putDesk k ((c.desk k).served ((c.desk k).session.tickets.aim? request))).wired k).line =
          (c.seatAt k).line := (congrArg Seat.line hseat).trans rfl
      refine ⟨_, ⟨⟨rfl, wait, rfl, hids⟩, hsuits.matches haim, ?_, ?_⟩, Nat.le_of_eq (congrArg Line.nextId hline.symm)⟩
      · rw [seatAt_rewire, if_pos ⟨rfl, by rw [length_putDesk]; exact hk⟩]
        exact hnext
      · rw [(noted_rewire _ _ _ _).1, hseat, haim]
        exact Tickets.isLast_serve haim
  | unsent hbegin hask => exact absurd he (answered_error_ne_awaits k _ sequel _ _ errand)

/-- A turn keeps to the numbers of all lines, and takes a new one for a request whose call begins to wait. -/
def Numbers (c₀ : Console) (r : Except Failure Turn) (c : Console) : Prop :=
  (c.Seated ∧ c₀.Proceeds c) ∧ ∀ errand query sequel, r = .ok (.awaits errand) → errand.purpose = .asking query sequel →
    ∃ id, c.Begun errand id query sequel ∧ (c₀.seatAt errand.seat).line.nextId ≤ id

theorem proceeds_finish (h : c.Seated ∧ c₀.Proceeds c) (query : Query) (answer : Except Failure Json) :
    (c.putDesk k ((Desk.finish query answer).run.run (c.desk k)).2).Seated ∧
      c₀.Proceeds (c.putDesk k ((Desk.finish query answer).run.run (c.desk k)).2) :=
  ⟨seated_of_seats h.1 rfl (Nat.le_of_eq (length_putDesk _ _ _).symm),
    h.2.at_desk fun _ => (Desk.conduct_link (Proceeds.keeps_line _)).note.finish query answer⟩

theorem concludes_numbers (c₀ : Console) :
    Concludes (fun _ _ _ => True) (fun c => c.Seated ∧ c₀.Proceeds c) (Numbers c₀) where
  rests h hrests := ⟨h, fun errand query sequel he hpurpose => by
    have hopens := (hrests errand he).opens
    rw [hpurpose] at hopens
    cases hopens⟩
  views k timeout room := by
    refine .step (.get fun _ hc => hc) (fun c => ?_) fun _ _ hc => ⟨hc.1, fun _ _ _ he => by cases he⟩
    refine .step (.lift fun _ hc => hc) (fun limit => .pure fun _ hc => ⟨hc.1, fun errand query sequel he hpurpose => ?_⟩)
      fun _ _ hc => ⟨hc.1, fun _ _ _ he => by cases he⟩
    cases he
    cases hpurpose
  sends k n request timeout sequel hsuits := by
    rintro c ⟨hc, hk⟩
    have hsent := sent k n request timeout sequel c
    refine ⟨(steady_proceeds c₀).sent (fun query cause hc => proceeds_finish hc query _) hsent hc, ?_⟩
    intro errand query sequel' he hpurpose
    obtain ⟨hseat, query', id, hposes⟩ := hsent.errand he
    obtain ⟨rfl, rfl⟩ := Purpose.asking.inj (hpurpose.symm.trans hposes.purpose)
    obtain ⟨id, hbegun, hle⟩ := hsent.begun hsuits hk he hpurpose
    exact ⟨id, hbegun, Nat.le_trans (hseat ▸ (hc.2 errand.seat).nextId_le) hle⟩

theorem numbers_answered {k : Nat} (h : c.Seated ∧ c₀.Proceeds c) (query : Query) (sequel : Sequel)
    (answer : Except Failure Json) :
    Numbers c₀ ((answered k query sequel answer).run.run c).1 ((answered k query sequel answer).run.run c).2 := by
  refine ⟨?_, fun errand query' sequel' he hpurpose => ?_⟩
  · rw [state_answered]
    exact proceeds_finish h query answer
  · obtain ⟨wait, room, time, -, rfl⟩ := follows_answered _ query sequel answer c errand he
    cases hpurpose

theorem numbers_turned {lost : List Nat} (hkept : c.Kept lost) (hplaced : c.Placed) (h : c.Turned e n r c') : Numbers c r c' := by
  refine (steady_proceeds c).turned (concludes_numbers c) hkept hplaced (fun _ hc => hc) (fun _ _ _ _ _ _ _ => trivial) ?_ ?_
    ⟨hkept.isSeated, .refl c⟩ h
  · intro name args session k _ _ _
    refine ⟨seated_shutdown hkept.isSeated session k, ?_⟩
    exact (Proceeds.of_seats (.refl c) (seats_dismiss c session)).at_desk fun _ => Desk.link_shutdown (Proceeds.keeps_line _)
  · rintro late errand query sequel answer - - - c' ⟨hc', -⟩
    exact numbers_answered hc' query sequel answer

/-! ## Events -/

theorem proceeds_hear (k : Nat) (method : String) (params : Json) (c : Console) : c.Proceeds (c.hear k method params) := by
  unfold hear
  cases Signal.ofMethod? method with
  | none => exact .refl c
  | some signal =>
    have hheard : c.Proceeds (c.putDesk k ((Desk.hear lineCarrier params signal).run.run (c.desk k)).2) :=
      (Proceeds.refl c).at_desk fun _ => (Desk.conduct_link (Proceeds.keeps_line _)).hear params signal
    simp only [run_withDesk]
    split
    · exact hheard
    · exact hheard.of_seats rfl

theorem proceeds_after {lost : List Nat} (hkept : c.Kept lost) (hplaced : c.Placed) (e : Event) : c.Proceeds (c.after e) := by
  rcases after_cases c e with ⟨n, r, c', made, hturned, hafter⟩ | ⟨n, errand, errand', hpasses⟩ | ⟨k, rfl⟩ | ⟨k, p, rfl⟩ |
    ⟨host, files, rota, hafter, -, -⟩
  · rw [hafter]
    refine (numbers_turned hkept hplaced hturned).1.2.of_seats ?_
    rcases r with cause | (text | errand) <;> rfl
  · rw [hpasses.after]
    exact (Proceeds.refl c).of_seats rfl
  · show c.Proceeds (c.apply (.read k))
    unfold apply
    simp only
    split
    · next w method params hread =>
      exact ((Proceeds.refl c).rewire (Wired.proceeds_read hread)).trans (proceeds_hear k method params _)
    · next w hread => exact (Proceeds.refl c).rewire (Wired.proceeds_read hread)
    · exact .refl c
  · show c.Proceeds (c.apply (.listen k p))
    unfold apply
    simp only
    split
    · next w hlisten =>
      obtain ⟨host, listening, rfl, -⟩ := Wired.eq_of_listen hlisten
      exact (Proceeds.refl c).rewire (.of_subset (Nat.le_refl _) (List.Subset.refl _))
    · exact .refl c
  · rw [hafter]
    exact (Proceeds.refl c).of_seats rfl

/-! ## Runs -/

/-- Whoever asked has posed a request. Its number was taken before, and no other call of that seat waits for it. -/
structure Posed (c : Console) : Prop where
  poses : ∀ call ∈ c.calls, ∀ query sequel, call.2.purpose = .asking query sequel →
    ∃ id, Poses call.2 id query sequel ∧ id < (c.seatAt call.2.seat).line.nextId
  single : ∀ call ∈ c.calls, ∀ call' ∈ c.calls, ∀ id query sequel query' sequel', Poses call.2 id query sequel →
    Poses call'.2 id query' sequel' → call.2.seat = call'.2.seat → call.1 = call'.1

theorem Poses.unique {id' : Nat} {query' : Query} {sequel' : Sequel} (h : Poses errand id query sequel)
    (h' : Poses errand id' query' sequel') : id = id' ∧ query = query' ∧ sequel = sequel' := by
  obtain ⟨wait, hwait, -⟩ := h.wait
  obtain ⟨wait', hwait', -⟩ := h'.wait
  obtain ⟨rfl, rfl⟩ := Purpose.asking.inj (h.purpose.symm.trans h'.purpose)
  rw [hwait] at hwait'
  cases hwait'
  exact ⟨rfl, rfl, rfl⟩

/-- The number of a request stays the same when it gets through. -/
theorem poses_iff_of_passes {errand' : Errand} (h : errand.Passes errand') :
    Poses errand' id query sequel ↔ Poses errand id query sequel := by
  cases h with
  | @through k i p cleared timeout plan query' sequel' limit =>
    constructor
    · rintro ⟨hpurpose, wait, hwait, hids⟩
      cases hwait
      exact ⟨hpurpose, _, rfl, hids⟩
    · rintro ⟨hpurpose, wait, hwait, hids⟩
      cases hwait
      exact ⟨hpurpose, _, rfl, hids⟩

theorem posed_after {lost : List Nat} (hkept : c.Kept lost) (hplaced : c.Placed) (h : c.Posed) (e : Event) :
    (c.after e).Posed := by
  have hproceeds := proceeds_after hkept hplaced e
  have hold {call : Nat × Errand} (hcall : call ∈ c.calls) {id : Nat} {query : Query} {sequel : Sequel}
      (hposes : Poses call.2 id query sequel) : id < (c.seatAt call.2.seat).line.nextId := by
    obtain ⟨id', hposes', hlt⟩ := h.poses call hcall query sequel hposes.purpose
    exact (hposes.unique hposes').1 ▸ hlt
  have hnew {call : Nat × Errand} {c' : Console} (hturned : c.Turned e call.1 (.ok (.awaits call.2)) c')
      {query : Query} {sequel : Sequel} (hpurpose : call.2.purpose = .asking query sequel) :=
    (numbers_turned hkept hplaced hturned).2 call.2 query sequel rfl hpurpose
  -- Whoever waits for an answer after the event did so before, or it asked in a turn of its own.
  have hwaited {call : Nat × Errand} (hcall : call ∈ (c.after e).calls) {id : Nat} {query : Query} {sequel : Sequel}
      (hposes : Poses call.2 id query sequel) :
      (∃ errand, (call.1, errand) ∈ c.calls ∧ errand.seat = call.2.seat ∧ Poses errand id query sequel) ∨
        ∃ c', c.Turned e call.1 (.ok (.awaits call.2)) c' := by
    rcases mem_calls_after hkept e hcall with hcall | ⟨errand, hcall, hpasses⟩ | ⟨c', hturned, -⟩
    · exact .inl ⟨call.2, hcall, rfl, hposes⟩
    · exact .inl ⟨errand, hcall, hpasses.seat.symm, (poses_iff_of_passes hpasses).mp hposes⟩
    · exact .inr ⟨c', hturned⟩
  constructor
  · intro call hcall query sequel hpurpose
    rcases mem_calls_after hkept e hcall with hcall | ⟨errand, hcall, hpasses⟩ | ⟨c', hturned, hseats⟩
    · obtain ⟨id, hposes, hlt⟩ := h.poses call hcall query sequel hpurpose
      exact ⟨id, hposes, Nat.lt_of_lt_of_le hlt (hproceeds call.2.seat).nextId_le⟩
    · obtain ⟨id, hposes, hlt⟩ := h.poses _ hcall query sequel (hpasses.purpose ▸ hpurpose)
      refine ⟨id, (poses_iff_of_passes hpasses).mpr hposes, ?_⟩
      rw [hpasses.seat]
      exact Nat.lt_of_lt_of_le hlt (hproceeds errand.seat).nextId_le
    · obtain ⟨id, hbegun, -⟩ := hnew hturned hpurpose
      have hnumber := hbegun.number
      rw [show c'.seatAt call.2.seat = (c.after e).seatAt call.2.seat by rw [seatAt, ← hseats, seatAt]] at hnumber
      exact ⟨id, hbegun.poses, hnumber ▸ Nat.lt_succ_self id⟩
  · intro call hcall call' hcall' id query sequel query' sequel' hposes hposes' hseat
    rcases hwaited hcall hposes with ⟨errand, hcall, hsame, hposes⟩ | ⟨c₁, hturned⟩
    · rcases hwaited hcall' hposes' with ⟨errand', hcall', hsame', hposes'⟩ | ⟨c₁', hturned'⟩
      · exact h.single (call.1, errand) hcall (call'.1, errand') hcall' id query sequel query' sequel' hposes hposes'
          (hsame.trans (hseat.trans hsame'.symm))
      · obtain ⟨id', hbegun, hle⟩ := hnew hturned' hposes'.purpose
        obtain rfl := (hbegun.poses.unique hposes').1
        exact absurd (hold hcall hposes) (Nat.not_lt.mpr ((hsame.trans hseat) ▸ hle))
    · rcases hwaited hcall' hposes' with ⟨errand', hcall', hsame', hposes'⟩ | ⟨c₁', hturned'⟩
      · obtain ⟨id', hbegun, hle⟩ := hnew hturned hposes.purpose
        obtain rfl := (hbegun.poses.unique hposes).1
        exact absurd (hold hcall' hposes') (Nat.not_lt.mpr ((hseat.trans hsame'.symm) ▸ hle))
      · exact (hturned.unique hturned').1

/-- What holds of every state of a run: servers are looked after, calls are at seats, and requests are posed. -/
structure Regular (c : Console) : Prop where
  kept : ∃ lost, c.Kept lost
  placed : c.Placed
  posed : c.Posed

/-- A turn goes on with what is collected for a request, or it does not go on with a request. -/
theorem Turned.asking_cases (hregular : c.Regular) (h : c.Turned e n r c') :
    (∃ late errand id query sequel ending, e = .move (.resume n late) ∧ Keyed.get? n c.calls = some errand ∧
      Poses errand id query sequel ∧ Ending.IsProper late ending ∧
        let out := (Line.collect id (.text query.method) query.params ending).run.run (c.wired errand.seat)
        (answered errand.seat query sequel out.1).run.run ((c.without n).rewire errand.seat out.2) = (r, c')) ∨
      ∀ late errand query sequel, e = .move (.resume n late) → Keyed.get? n c.calls = some errand →
        errand.purpose ≠ .asking query sequel := by
  by_cases hask : ∃ late errand query sequel, e = .move (.resume n late) ∧ Keyed.get? n c.calls = some errand ∧
      errand.purpose = .asking query sequel
  · obtain ⟨late, errand, query, sequel, rfl, hget, hpurpose⟩ := hask
    obtain ⟨id, hposes, -⟩ := hregular.posed.poses _ (Keyed.mem_of_get? hget) query sequel hpurpose
    cases h with
    | resumed hget' hover hpursues =>
      obtain rfl := Option.some.inj (hget.symm.trans hget')
      have hpursues : (c.without n).Pursues late errand := hpursues
      obtain ⟨ending, hproper, hrun⟩ := hposes.run_resume hpursues
      exact .inl ⟨late, errand, id, query, sequel, ending, rfl, hget, hposes, hproper, hrun.symm⟩
  · exact .inr fun late errand query sequel he hget hpurpose => hask ⟨late, errand, query, sequel, he, hget, hpurpose⟩

theorem IsUnused.regular (h : c.IsUnused) : c.Regular := by
  have hnone (call : Nat × Errand) : call ∉ c.calls := by
    rw [h.calls]
    exact List.not_mem_nil
  exact ⟨⟨_, h.kept⟩, fun call hcall => absurd hcall (hnone call),
    fun call hcall => absurd hcall (hnone call), fun call hcall => absurd hcall (hnone call)⟩

theorem regular_after (h : c.Regular) (e : Event) : (c.after e).Regular := by
  obtain ⟨lost, hkept⟩ := h.kept
  exact ⟨exists_kept_after hkept e, placed_after hkept h.placed e, posed_after hkept h.placed h.posed e⟩

theorem regular_afterAll (h : c.Regular) (es : List Event) : (c.afterAll es).Regular := by
  induction es generalizing c with
  | nil => exact h
  | cons e es ih => exact ih (regular_after h e)

theorem proceeds_afterAll (h : c.Regular) (es : List Event) : c.Proceeds (c.afterAll es) := by
  induction es generalizing c with
  | nil => exact .refl c
  | cons e es ih =>
    obtain ⟨lost, hkept⟩ := h.kept
    exact (proceeds_after hkept h.placed e).trans (ih (regular_after h e))

/-- In every state of a run answers are kept under the numbers that they name. -/
theorem attests_afterAll (hc : c.IsUnused) (es : List Event) (k : Nat) : ((c.afterAll es).seatAt k).line.Attests := by
  obtain ⟨lost, hkept⟩ := (regular_afterAll hc.regular es).kept
  refine ⟨fun i message hmem => ?_, hkept.truthful k⟩
  refine ((proceeds_afterAll hc.regular es k).answers i message hmem).resolve_left fun hbefore => ?_
  rw [seatAt, hc.seats] at hbefore
  exact absurd hbefore List.not_mem_nil

/-- A call of a run asked in a turn of its own, under a number that its line had not used. -/
structure Asked (c : Console) (before : List Event) (e : Event) (n : Nat) (errand : Errand) (id : Nat) (query : Query)
    (sequel : Sequel) : Prop where
  turned : ∃ c', (c.afterAll before).Turned e n (.ok (.awaits errand)) c'
  unused : ((c.afterAll before).seatAt errand.seat).line.nextId ≤ id
  begun : (c.afterAll (before ++ [e])).Begun errand id query sequel

/-- So it is with every call that waits for an answer. Since then its request got through at most. -/
theorem exists_asked (hc : c.IsUnused) (es : List Event) (hcall : (n, errand) ∈ (c.afterAll es).calls)
    (hpurpose : errand.purpose = .asking query sequel) :
    ∃ before e later asking id, es = before ++ e :: later ∧ c.Asked before e n asking id query sequel ∧
      (errand = asking ∨ asking.Passes errand) := by
  obtain ⟨before, e, later, c', asking, hes, hturned, hseats, hsame⟩ := exists_turned hc es hcall
  have hpurpose : asking.purpose = .asking query sequel := by
    rcases hsame with rfl | hpasses
    · exact hpurpose
    · exact hpasses.purpose ▸ hpurpose
  have hregular := regular_afterAll hc.regular before
  obtain ⟨lost, hkept⟩ := hregular.kept
  obtain ⟨id, hbegun, hunused⟩ := (numbers_turned hkept hregular.placed hturned).2 asking query sequel rfl hpurpose
  have hseat : (c.afterAll (before ++ [e])).seatAt asking.seat = c'.seatAt asking.seat := by rw [seatAt, hseats, seatAt]
  refine ⟨before, e, later, asking, id, hes, ⟨⟨c', hturned⟩, hunused, ?_⟩, hsame⟩
  exact ⟨hbegun.poses, hbegun.apt, hseat ▸ hbegun.number, hseat ▸ hbegun.ticket⟩

end Console
end CoqConsole
