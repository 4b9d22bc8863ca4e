import CoqConsole.Proofs.Console.Asking

/-!
# Events and turns

With an event one call has its turn, or none has: then processes act, messages are read, and time goes on.

* `Console.Turned` : a call has its turn; `Console.Passes` : the request of a call got through;
* `after_cases` : an event is one of these, or one of the others;
* `Steady.turned`, `Concludes.turned` : what a turn comes to, whatever it is;
* `mem_calls_after`, `exists_turned` : a call that waits has begun to wait in a turn of its own;
* `Console.Spent`, `spent_afterAll` : a call that has ended has no more turns;
* `Console.Placed`, `placed_after` : the seats of all calls are there.
-/

namespace CoqConsole

/-- What a call waits for once its request got through: the answer. -/
inductive Errand.Passes : Errand → Errand → Prop
  | through {k id p cleared : Nat} {timeout : Json} {plan : Plan} {query : Query} {sequel : Sequel} (limit : Limit) :
    Passes ⟨k, .line ⟨.flush id p cleared timeout, plan⟩, .asking query sequel⟩
      ⟨k, .line ⟨.answer id limit, plan⟩, .asking query sequel⟩

theorem Errand.Passes.seat {e e' : Errand} (h : e.Passes e') : e'.seat = e.seat := by
  cases h
  rfl

theorem Errand.Passes.purpose {e e' : Errand} (h : e.Passes e') : e'.purpose = e.purpose := by
  cases h
  rfl

/-- What waits for an answer has got through. -/
theorem Errand.Passes.not_passes {e e' e'' : Errand} (h : e.Passes e') : ¬ e'.Passes e'' := by
  cases h
  exact fun h' => by cases h'

namespace Console

variable {c c' : Console} {k n : Nat} {lost : List Nat} {e : Event} {r : Except Failure Turn}

def without (c : Console) (n : Nat) : Console := { c with calls := Keyed.erase n c.calls }

/-- A call has its turn with an event: its number, how the turn ends, and the state then. -/
inductive Turned (c : Console) : Event → Nat → Except Failure Turn → Console → Prop
  | refused {name : String} {args : Tool.Arguments} {cause : Failure} (hcall : Tool.ofCall name args = .error cause) :
    Turned c (.call name args) c.made (.error cause) c
  | called {name : String} {args : Tool.Arguments} {tool : Tool} (hcall : Tool.ofCall name args = .ok tool) :
    Turned c (.call name args) c.made ((run tool).run.run c).1 ((run tool).run.run c).2
  | resumed {n : Nat} {late : Bool} {errand : Errand} (hget : Keyed.get? n c.calls = some errand)
    (hover : (if late then c.isLate errand else c.isMet errand) = true) (hpursues : c.Pursues late errand) :
    Turned c (.move (.resume n late)) n ((resume late errand).run.run (c.without n)).1
      ((resume late errand).run.run (c.without n)).2

/-- The request of a call got through, and nothing else happens. -/
structure Passes (c : Console) (e : Event) (n : Nat) (errand errand' : Errand) : Prop where
  event : e = .move (.resume n false)
  waits : Keyed.get? n c.calls = some errand
  passes : errand.Passes errand'
  after : c.after e = { c with calls := Keyed.erase n c.calls ++ [(n, errand')] }

theorem rewire_wired (c : Console) (k : Nat) : c.rewire k (c.wired k) = c := by
  rw [rewire, editSeat_self (f := fun s => { s with line := (c.wired k).line }) rfl]
  rfl

/-- A call goes on, or, if it asked, its request got through. -/
theorem pursues_or_passes (c : Console) (late : Bool) (errand : Errand) :
    c.Pursues late errand ∨ ∃ errand', late = false ∧ errand.Passes errand' ∧
      (resume late errand).run.run c = (.ok (.awaits errand'), c) := by
  obtain ⟨k, wait, purpose⟩ := errand
  cases purpose with
  | asking query sequel =>
    cases wait with
    | line s =>
      rcases Line.resume_cases late s (c.wired k) with
        ⟨ending, hends, hrun⟩ | ⟨id, p, cleared, timeout, limit, hwait, hlate, -, hrun⟩
      · refine .inl fun query' sequel' s' _ hs => ?_
        cases hs
        exact ⟨ending, hends, hrun⟩
      · obtain ⟨wait, plan⟩ := s
        obtain rfl : wait = .flush id p cleared timeout := hwait
        refine .inr ⟨_, hlate, .through limit, ?_⟩
        simp only [resume, run_bind, run_attempt, onLine, run_withLine, hrun, rewire_wired]
        rfl
    | _ => exact .inl fun _ _ _ _ hs => by cases hs
  | _ => exact .inl fun _ _ _ hpurpose => by cases hpurpose

/-- A call whose wait is over has its turn, or its request got through. -/
theorem turned_or_passes {late : Bool} {errand : Errand} (hget : Keyed.get? n c.calls = some errand)
    (hover : (if late then c.isLate errand else c.isMet errand) = true) :
    (∃ r c', c.Turned (.move (.resume n late)) n r c' ∧ c.after (.move (.resume n late)) = c'.stand n r) ∨
      ∃ errand', c.Passes (.move (.resume n late)) n errand errand' := by
  have hafter : c.after (.move (.resume n late)) =
      ((resume late errand).run.run (c.without n)).2.stand n ((resume late errand).run.run (c.without n)).1 := by
    simp only [after, apply, hget, if_pos hover]
    rfl
  rcases pursues_or_passes (c.without n) late errand with hpursues | ⟨errand', rfl, hpasses, hrun⟩
  · exact .inl ⟨_, _, .resumed hget hover hpursues, hafter⟩
  · refine .inr ⟨errand', rfl, hget, hpasses, ?_⟩
    rw [hafter, hrun]
    rfl

/-- An event is a turn, or a request gets through, or a message or a line is read, or something happens on the host. -/
theorem after_cases (c : Console) (e : Event) :
    (∃ n r c' made, c.Turned e n r c' ∧ c.after e = ({ c' with made } : Console).stand n r) ∨
      (∃ n errand errand', c.Passes e n errand errand') ∨
        (∃ k, e = .move (.read k)) ∨ (∃ k p, e = .move (.listen k p)) ∨
          ∃ host files rota, c.after e = { c with host, files, rota } ∧ c.host.Grows host ∧
            host.processes.length = c.host.processes.length := by
  have hrest {P Q R S T : Prop} (h : T) : P ∨ Q ∨ R ∨ S ∨ T := .inr (.inr (.inr (.inr h)))
  cases e with
  | call name args =>
    refine .inl ?_
    cases hcall : Tool.ofCall name args with
    | error cause =>
      refine ⟨c.made, .error cause, c, c.made + 1, .refused hcall, ?_⟩
      simp only [after, call, hcall]
    | ok tool => exact ⟨c.made, _, _, c.made + 1, .called hcall, after_call hcall⟩
  | move m =>
    cases m with
    | wake p => exact hrest ⟨_, c.files, c.rota, rfl, .wake _ _, List.length_modify _ _ _⟩
    | read k => exact .inr (.inr (.inl ⟨k, rfl⟩))
    | listen k p => exact .inr (.inr (.inr (.inl ⟨k, p, rfl⟩)))
    | resume n late =>
      rcases after_resume_cases c n late with hafter | ⟨errand, hget, hover, -⟩
      · exact hrest ⟨c.host, c.files, c.rota, hafter, .refl _, rfl⟩
      · rcases turned_or_passes hget hover with ⟨r, c', hturned, hafter⟩ | ⟨errand', hpasses⟩
        · exact .inl ⟨n, r, c', c'.made, hturned, hafter⟩
        · exact .inr (.inl ⟨n, errand, errand', hpasses⟩)
  | act p acts => exact hrest ⟨_, c.files, c.rota, rfl, .command _ _ _, List.length_modify _ _ _⟩
  | tick now => exact hrest ⟨_, c.files, c.rota, rfl, .of_eq rfl rfl, rfl⟩
  | store files => exact hrest ⟨c.host, files, c.rota, rfl, .refl _, rfl⟩
  | queue rota => exact hrest ⟨c.host, c.files, rota, rfl, .refl _, rfl⟩

/-- An event gives its turn to one call, and the turn comes out in one way. -/
theorem Turned.unique (h : c.Turned e n r c') {n' : Nat} {r' : Except Failure Turn} {c'' : Console} (h' : c.Turned e n' r' c'') :
    n = n' ∧ r = r' ∧ c' = c'' := by
  cases h with
  | refused hcall =>
    cases h' with
    | refused hcall' =>
      obtain rfl := Except.error.inj (hcall.symm.trans hcall')
      exact ⟨rfl, rfl, rfl⟩
    | called hcall' =>
      rw [hcall] at hcall'
      cases hcall'
  | called hcall =>
    cases h' with
    | refused hcall' =>
      rw [hcall] at hcall'
      cases hcall'
    | called hcall' =>
      obtain rfl := Except.ok.inj (hcall.symm.trans hcall')
      exact ⟨rfl, rfl, rfl⟩
  | resumed hget hover _ =>
    cases h' with
    | resumed hget' hover' _ =>
      obtain rfl := Option.some.inj (hget.symm.trans hget')
      exact ⟨rfl, rfl, rfl⟩

/-- In a turn no other call begins to wait, and seats stay. -/
theorem Turned.ledger (h : c.Turned e n r c') (hkept : c.Kept lost) :
    (∀ call ∈ c'.calls, call ∈ c.calls ∧ call.1 ≠ n) ∧ c'.done = c.done ∧ c.seats.length ≤ c'.seats.length := by
  have hnew (call : Nat × Errand) (hcall : call ∈ c.calls) : call ∈ c.calls ∧ call.1 ≠ c.made :=
    ⟨hcall, Nat.ne_of_lt (hkept.calls_made _ (List.mem_map.mpr ⟨call, hcall, rfl⟩))⟩
  cases h with
  | refused hcall => exact ⟨hnew, rfl, Nat.le_refl _⟩
  | @called _ _ tool hcall =>
    obtain ⟨hledger, hseats⟩ := ledger_run hkept tool
    have hcalls : ((run tool).run.run c).2.calls = c.calls := congrArg Prod.fst hledger
    exact ⟨hcalls ▸ hnew, congrArg (·.2.2) hledger, hseats⟩
  | @resumed n late errand hget hover hpursues =>
    obtain ⟨hledger, hseats⟩ := ledger_resume hkept hget hover
    have hcalls : ((resume late errand).run.run (c.without n)).2.calls = Keyed.erase n c.calls := congrArg Prod.fst hledger
    exact ⟨hcalls ▸ fun _ hcall => Keyed.mem_erase.mp hcall, congrArg (·.2.2) hledger, hseats⟩

/-- It is noted how far the call has come, and calls are numbered on. -/
theorem Turned.after (h : c.Turned e n r c') (hkept : c.Kept lost) :
    ∃ made, c.after e = ({ c' with made } : Console).stand n r ∧ c.made ≤ made ∧ n < made := by
  cases h with
  | @refused name args cause hcall =>
    refine ⟨c.made + 1, ?_, Nat.le_succ _, Nat.lt_succ_self _⟩
    simp only [Console.after, call, hcall]
  | called hcall => exact ⟨c.made + 1, after_call hcall, Nat.le_succ _, Nat.lt_succ_self _⟩
  | @resumed n late errand hget hover hpursues =>
    have hmade : ((resume late errand).run.run (c.without n)).2.made = c.made :=
      congrArg (·.2.1) (ledger_resume hkept hget hover).1
    have hn : n < c.made := hkept.calls_made n (List.mem_map.mpr ⟨_, Keyed.mem_of_get? hget, rfl⟩)
    refine ⟨_, ?_, Nat.le_of_eq hmade.symm, hmade.symm ▸ hn⟩
    simp only [Console.after, apply, hget, if_pos hover]
    rfl

/-- A turn is that of a new call, or of one that waits. -/
theorem Turned.number (h : c.Turned e n r c') : n = c.made ∨ n ∈ Keyed.keys c.calls := by
  cases h with
  | refused hcall => exact .inl rfl
  | called hcall => exact .inl rfl
  | resumed hget hover _ => exact .inr (List.mem_map.mpr ⟨_, Keyed.mem_of_get? hget, rfl⟩)

/-- A call that waits after an event waited before, or its request got through, or it has had its turn. -/
theorem mem_calls_after (hkept : c.Kept lost) (e : Event) {call : Nat × Errand} (hcall : call ∈ (c.after e).calls) :
    call ∈ c.calls ∨ (∃ errand, (call.1, errand) ∈ c.calls ∧ errand.Passes call.2) ∨
      ∃ c', c.Turned e call.1 (.ok (.awaits call.2)) c' ∧ (c.after e).seats = c'.seats := by
  rcases after_cases c e with ⟨n, r, c', made, hturned, hafter⟩ | ⟨n, errand, errand', hpasses⟩ | ⟨k, rfl⟩ | ⟨k, p, rfl⟩ |
    ⟨host, files, rota, hafter, -, -⟩
  · have hold := (hturned.ledger hkept).1
    rw [hafter] at hcall ⊢
    rcases r with cause | (text | errand)
    · exact .inl (hold _ hcall).1
    · exact .inl (hold _ hcall).1
    · rcases List.mem_append.mp hcall with hcall | hcall
      · exact .inl (hold _ hcall).1
      · obtain rfl := List.mem_singleton.mp hcall
        exact .inr (.inr ⟨c', hturned, rfl⟩)
  · rw [hpasses.after] at hcall
    rcases List.mem_append.mp hcall with hold | hnew
    · exact .inl (Keyed.mem_erase.mp hold).1
    · obtain rfl := List.mem_singleton.mp hnew
      exact .inr (.inl ⟨errand, Keyed.mem_of_get? hpasses.waits, hpasses.passes⟩)
  · exact .inl ((abides_read hkept.filed k).calls ▸ hcall)
  · exact .inl ((abides_listen hkept.filed k p).calls ▸ hcall)
  · rw [hafter] at hcall
    exact .inl hcall

theorem length_after (hkept : c.Kept lost) (e : Event) : c.seats.length ≤ (c.after e).seats.length := by
  rcases after_cases c e with ⟨n, r, c', made, hturned, hafter⟩ | ⟨n, errand, errand', hpasses⟩ | ⟨k, rfl⟩ | ⟨k, p, rfl⟩ |
    ⟨host, files, rota, hafter, -, -⟩
  · rw [hafter]
    refine Nat.le_trans (hturned.ledger hkept).2.2 (Nat.le_of_eq ?_)
    rcases r with cause | (text | errand) <;> rfl
  · rw [hpasses.after]
  · exact Nat.le_of_eq (abides_read hkept.filed k).seats.symm
  · exact Nat.le_of_eq (abides_listen hkept.filed k p).seats.symm
  · rw [hafter]

/-- A call has had its last turn. -/
structure Spent (c : Console) (n : Nat) : Prop where
  absent : n ∉ Keyed.keys c.calls
  made : n < c.made

theorem made_stand (c : Console) (n : Nat) (r : Except Failure Turn) : (c.stand n r).made = c.made := by
  rcases r with cause | (text | errand) <;> rfl

/-- Who has ended in a turn has no more. -/
theorem Turned.spent (h : c.Turned e n r c') (hkept : c.Kept lost) (hends : ∀ errand, r ≠ .ok (.awaits errand)) :
    (c.after e).Spent n := by
  obtain ⟨made, hafter, -, hn⟩ := h.after hkept
  rw [hafter]
  refine ⟨fun hmem => ?_, (made_stand _ n r).symm ▸ hn⟩
  obtain ⟨call, hcall, rfl⟩ := List.mem_map.mp hmem
  rcases r with cause | (text | errand)
  · exact ((h.ledger hkept).1 call hcall).2 rfl
  · exact ((h.ledger hkept).1 call hcall).2 rfl
  · exact hends errand rfl

theorem made_after (hkept : c.Kept lost) (e : Event) : c.made ≤ (c.after e).made := by
  rcases after_cases c e with ⟨n, r, c', made, hturned, -⟩ | ⟨n, errand, errand', hpasses⟩ | ⟨k, rfl⟩ | ⟨k, p, rfl⟩ |
    ⟨host, files, rota, hafter, -, -⟩
  · obtain ⟨made, hafter, hle, -⟩ := hturned.after hkept
    rw [hafter, made_stand]
    exact hle
  · rw [hpasses.after]
  · exact Nat.le_of_eq (abides_read hkept.filed k).made.symm
  · exact Nat.le_of_eq (abides_listen hkept.filed k p).made.symm
  · rw [hafter]

theorem spent_after (hkept : c.Kept lost) (h : c.Spent n) (e : Event) : (c.after e).Spent n := by
  refine ⟨fun hmem => ?_, Nat.lt_of_lt_of_le h.made (made_after hkept e)⟩
  obtain ⟨call, hcall, rfl⟩ := List.mem_map.mp hmem
  rcases mem_calls_after hkept e hcall with hold | ⟨errand, hold, -⟩ | ⟨c', hturned, -⟩
  · exact h.absent (List.mem_map.mpr ⟨call, hold, rfl⟩)
  · exact h.absent (List.mem_map.mpr ⟨_, hold, rfl⟩)
  · rcases hturned.number with hnew | hwaits
    · exact Nat.lt_irrefl _ (hnew ▸ h.made)
    · exact h.absent hwaits

/-! ## What turns come to -/

/-- The seats of all calls that wait are there. -/
def Placed (c : Console) : Prop := ∀ call ∈ c.calls, call.2.seat < c.seats.length

section Steady

variable {may : Nat → Session → List (Path × Nat) → Prop} {I : Console → Prop} {Q : Except Failure Turn → Console → Prop}

theorem Steady.turned (s : Steady may I) (q : Concludes may I Q) (hkept : c.Kept lost) (hplaced : c.Placed)
    (hwithout : ∀ n, I c → I (c.without n))
    (hmay : ∀ late errand name next, e = .move (.resume n late) → Keyed.get? n c.calls = some errand →
      errand.purpose = .starting name next →
        may errand.seat (c.seatAt errand.seat).session (c.seatAt errand.seat).documents)
    (hstop : ∀ name args session k, e = .call name args → Tool.ofCall name args = .ok (.stop session) →
      c.find? session = .ok (some k) →
        I ((c.dismiss session).putDesk k (Desk.shutdown.run.run ((c.dismiss session).desk k)).2))
    (hanswer : ∀ late errand query sequel answer, e = .move (.resume n late) → Keyed.get? n c.calls = some errand →
      errand.purpose = .asking query sequel →
        Ensures (fun c => I c ∧ errand.seat < c.seats.length) (answered errand.seat query sequel answer) Q)
    (hc : I c) (h : c.Turned e n r c') : Q r c' := by
  cases h with
  | refused hcall => exact q.error _ c hc
  | @called name args tool hcall =>
    by_cases htool : ∃ session, tool = .stop session
    · obtain ⟨session, rfl⟩ := htool
      exact s.stop q hkept (fun _ => hc) (fun k hfind => hstop name args session k rfl hcall hfind) c rfl
    · exact s.run q (fun session heq => htool ⟨session, heq⟩) c hc
  | @resumed n late errand hget hover hpursues =>
    have hmem : (n, errand) ∈ c.calls := Keyed.mem_of_get? hget
    refine s.resume q late (hkept.fits _ hmem) (fun query sequel answer hpurpose => ?_) (c.without n) ?_
    · exact hanswer late errand query sequel answer rfl hget hpurpose
    · exact ⟨hwithout n hc, hplaced _ hmem, hpursues, fun htends => hkept.not_registered hmem htends,
        fun name next => hmay late errand name next rfl hget⟩

end Steady

theorem seated_of_seats (h : c.Seated) (hregistry : c'.registry = c.registry) (hseats : c.seats.length ≤ c'.seats.length) :
    c'.Seated := fun entry hentry => Nat.lt_of_lt_of_le (h entry (hregistry ▸ hentry)) hseats

/-- Registered sessions keep their seats. -/
theorem steady_seated : Steady (fun _ _ _ => True) Seated where
  seated h := h
  chore h _ := seated_of_seats h rfl (Nat.le_of_eq (length_putDesk _ _ _).symm)
  adopt h _ _ _ := seated_of_seats h rfl (Nat.le_of_eq (by rw [length_putDesk, shelve, length_editSeat]))
  close h _ _ := seated_of_seats h rfl (Nat.le_of_eq (by rw [length_putDesk, unshelve, length_editSeat]))
  line h _ _ := seated_of_seats h rfl (Nat.le_of_eq (length_rewire _ _ _).symm)
  stamp h := seated_of_seats h rfl (Nat.le_of_eq (length_editSeat _ _ _).symm)
  dismiss {c name} h := fun entry hentry => (seats_dismiss c name).symm ▸ h entry (registry_dismiss c name hentry)
  enroll {c k name} h hk _ := by
    intro entry hentry
    rw [seats_enroll]
    unfold enroll at hentry
    split at hentry
    · rcases Keyed.mem_put hentry with hmem | heq
      · exact h entry hmem
      · rw [heq]
        exact hk
    · exact h entry hentry
  append h _ := seated_of_seats h rfl (by rw [List.length_append]; exact Nat.le_add_right _ _)
  fresh _ _ := trivial

/-- A turn leaves a call at a seat that is there. -/
theorem concludes_placed :
    Concludes (fun _ _ _ => True) Seated fun r c => ∀ errand, r = .ok (.awaits errand) → errand.seat < c.seats.length where
  rests _ hrests errand he := (hrests errand he).seat
  views k timeout room := by
    refine .step (.get fun _ hc => hc) (fun c => ?_) fun _ _ _ _ he => by cases he
    refine .step (.lift fun _ hc => hc) (fun limit => .pure fun _ hc errand he => ?_) fun _ _ _ _ he => by cases he
    cases he
    exact hc.2
  sends k n request timeout sequel _ := by
    rintro c ⟨-, hk⟩ errand he
    have hsent := sent k n request timeout sequel c
    rw [(hsent.errand he).1, hsent.length]
    exact hk

theorem seated_shutdown (h : c.Seated) (name : Json) (k : Nat) :
    ((c.dismiss name).putDesk k (Desk.shutdown.run.run ((c.dismiss name).desk k)).2).Seated :=
  seated_of_seats (steady_seated.dismiss h) rfl (Nat.le_of_eq (length_putDesk _ _ _).symm)

/-- What a turn comes to if all that matters is that registered sessions keep their seats. -/
theorem Concludes.turned {Q : Except Failure Turn → Console → Prop} (q : Concludes (fun _ _ _ => True) Seated Q)
    (hkept : c.Kept lost) (hplaced : c.Placed)
    (hanswer : ∀ late errand query sequel answer, e = .move (.resume n late) → Keyed.get? n c.calls = some errand →
      errand.purpose = .asking query sequel →
        Ensures (fun c => c.Seated ∧ errand.seat < c.seats.length) (answered errand.seat query sequel answer) Q)
    (h : c.Turned e n r c') : Q r c' :=
  steady_seated.turned q hkept hplaced (fun _ hc => hc) (fun _ _ _ _ _ _ _ => trivial)
    (fun _ _ session k _ _ _ => seated_shutdown hkept.isSeated session k) hanswer hkept.isSeated h

theorem placed_after (hkept : c.Kept lost) (h : c.Placed) (e : Event) : (c.after e).Placed := by
  intro call hcall
  have hseats : c.seats.length ≤ (c.after e).seats.length := length_after hkept e
  rcases mem_calls_after hkept e hcall with hold | ⟨errand, hold, hpasses⟩ | ⟨c', hturned, hafter⟩
  · exact Nat.lt_of_lt_of_le (h call hold) hseats
  · exact hpasses.seat ▸ Nat.lt_of_lt_of_le (h _ hold) hseats
  · rw [hafter]
    refine concludes_placed.turned hkept h ?_ hturned call.2 rfl
    rintro late errand query sequel answer - - - c ⟨-, hk⟩ errand' he
    obtain ⟨wait, room, time, -, rfl⟩ := follows_answered _ query sequel answer c errand' he
    exact (length_answered _ query sequel answer c).symm ▸ hk

/-! ## Runs -/

theorem exists_kept_afterAll (hkept : c.Kept lost) (es : List Event) : ∃ lost', (c.afterAll es).Kept lost' := by
  obtain ⟨more, hmore, -⟩ := kept_afterAll hkept es
  exact ⟨more ++ lost, hmore⟩

/-- A call that waits has begun to wait in a turn of its own, and since then at most its request got through. -/
theorem exists_turned (hc : c.IsUnused) (es : List Event) {call : Nat × Errand} (hcall : call ∈ (c.afterAll es).calls) :
    ∃ before e later c' errand, es = before ++ e :: later ∧
      (c.afterAll before).Turned e call.1 (.ok (.awaits errand)) c' ∧
        (c.afterAll (before ++ [e])).seats = c'.seats ∧ (call.2 = errand ∨ errand.Passes call.2) := by
  induction es using List.reverseRecOn generalizing call with
  | nil =>
    rw [afterAll, List.foldl_nil, hc.calls] at hcall
    exact absurd hcall List.not_mem_nil
  | append_singleton es e ih =>
    obtain ⟨lost, hkept⟩ := exists_kept_afterAll hc.kept es
    have hsnoc : c.afterAll (es ++ [e]) = (c.afterAll es).after e := afterAll_append c es [e]
    have hsplit {before later : List Event} {e' : Event} : before ++ e' :: later ++ [e] = before ++ e' :: (later ++ [e]) := by
      rw [List.append_assoc, List.cons_append]
    rw [hsnoc] at hcall
    rcases mem_calls_after hkept e hcall with hold | ⟨errand, hold, hpasses⟩ | ⟨c', hturned, hseats⟩
    · obtain ⟨before, e', later, c', errand, rfl, hrest⟩ := ih hold
      exact ⟨before, e', later ++ [e], c', errand, hsplit, hrest⟩
    · obtain ⟨before, e', later, c', errand', rfl, hturned, hseats, hsame⟩ := ih hold
      refine ⟨before, e', later ++ [e], c', errand, hsplit, ?_, hseats, .inr hpasses⟩
      rcases hsame with rfl | hbefore
      · exact hturned
      · exact absurd hpasses hbefore.not_passes
    · exact ⟨es, e, [], c', call.2, rfl, hturned, hsnoc ▸ hseats, .inl rfl⟩

/-- Who has ended waits no more. -/
theorem spent_afterAll (hkept : c.Kept lost) (h : c.Spent n) (es : List Event) : (c.afterAll es).Spent n := by
  induction es generalizing c lost with
  | nil => exact h
  | cons e es ih =>
    obtain ⟨lost', hkept'⟩ := exists_kept_after hkept e
    exact ih hkept' (spent_after hkept h e)

end Console
end CoqConsole
