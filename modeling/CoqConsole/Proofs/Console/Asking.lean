import CoqConsole.Proofs.Console.Turning

/-!
# Requests at the console

A request is begun at a desk and sent on the line of its seat. It waits for its answer, or has failed by then.

* `Poses` : a call that waits for the answer to its request;
* `Console.Sent`, `sent` : how far a request comes with the turn in which it is made; `Steady.sent` : what that keeps;
* `run_answered`, `run_answered_error`, `state_answered` : what an answer changes, and what is said;
* `run_say`, `looks_follow`, `Follows` : what follows a request that succeeded.
-/

namespace CoqConsole.Console

variable {c : Console} {k n : Nat} {timeout : Json} {request : Request} {sequel : Sequel} {query : Query}

/-! ## Answers -/

theorem looks_say (output : String) (room : Json) : Looks (say output room) := .bind (.lift _) fun _ => .pure _

theorem run_say (output : String) (room : Json) (c : Console) :
    (say output room).run.run c = ((Wording.truncate output room).map Turn.said, c) := by
  simp only [say, run_bind, run_lift]
  cases Wording.truncate output room <;> rfl

theorem looks_showResults (room : Json) : Looks (showResults k room) := .bind looks_session fun _ => looks_say _ room

theorem looks_follow (k : Nat) (sequel : Sequel) : Looks (follow k sequel) := by
  cases sequel with
  | collect wait room =>
    refine .bind (.lift _) fun pause c => ?_
    rw [run_ite]
    split
    · rfl
    · exact looks_showResults room c
  | «show» room => exact .bind looks_session fun _ => looks_say _ room
  | confirm uri => exact .pure _

/-- After a request that succeeded a call has ended, or it waits at its seat to show the hits of a search. -/
def Follows (k : Nat) (sequel : Sequel) (r : Except Failure Turn) : Prop :=
  ∀ errand, r = .ok (.awaits errand) →
    ∃ wait room time, sequel = .collect wait room ∧ errand = ⟨k, .sleep time, .collecting room⟩

theorem follows_follow (k : Nat) (sequel : Sequel) (c : Console) : Follows k sequel ((follow k sequel).run.run c).1 := by
  have herror {P : Console → Prop} (cause : Failure) (c : Console) (_ : P c) : Follows k sequel (.error cause) :=
    fun _ h => by cases h
  have hsay (output : String) (room : Json) : Ensures (fun _ => True) (say output room) fun r _ => Follows k sequel r :=
    .step (.lift fun _ h => h) (fun text => .pure fun _ _ _ h => by cases h) herror
  suffices h : Ensures (fun _ => True) (follow k sequel) fun r _ => Follows k sequel r from h c trivial
  cases sequel with
  | collect wait room =>
    refine .step (.lift fun _ h => h) (fun pause => ?_) herror
    refine .ite (fun _ => ?_) fun _ => .step looks_session.ensures (fun s => hsay _ room) herror
    refine .step (.get fun _ h => h) (fun c => .pure fun _ _ errand h => ?_) herror
    cases h
    exact ⟨wait, room, _, rfl, rfl⟩
  | «show» room => exact .step looks_session.ensures (fun s => hsay _ room) herror
  | confirm uri => exact .pure fun _ _ _ h => by cases h

theorem run_answered (k : Nat) (query : Query) (sequel : Sequel) (answer : Except Failure Json) (c : Console) :
    (answered k query sequel answer).run.run c =
      match (Desk.finish query answer).run.run (c.desk k) with
      | (.ok true, d) => (follow k sequel).run.run (c.putDesk k d)
      | (.ok false, d) => (.ok (.said (Wording.lastNotice ((c.putDesk k d).seatAt k).session)), c.putDesk k d)
      | (.error cause, d) => (.error cause, c.putDesk k d) := by
  simp only [answered, run_bind, run_withDesk]
  rcases (Desk.finish query answer).run.run (c.desk k) with ⟨cause | (_ | _), d⟩ <;> rfl

def noting (c : Console) (k : Nat) (notice : Notice) : Console :=
  c.putDesk k { c.desk k with session := { (c.desk k).session with notices := (c.desk k).session.notices ++ [notice] } }

/-- A failed request becomes a notice and is told of with it, or it fails. -/
theorem run_answered_error (k : Nat) (query : Query) (sequel : Sequel) (cause : Failure) (c : Console) :
    (answered k query sequel (.error cause)).run.run c =
      match query.notice? cause with
      | some notice => (.ok (.said (Wording.lastNotice ((c.noting k notice).seatAt k).session)), c.noting k notice)
      | none => (.error cause, c) := by
  rw [run_answered, Desk.run_finish_error]
  cases query.notice? cause with
  | none =>
    simp only
    rw [putDesk_desk]
  | some notice => rfl

theorem follows_answered (k : Nat) (query : Query) (sequel : Sequel) (answer : Except Failure Json) (c : Console) :
    Follows k sequel ((answered k query sequel answer).run.run c).1 := by
  rw [run_answered]
  generalize (Desk.finish query answer).run.run (c.desk k) = out
  rcases out with ⟨cause | (_ | _), d⟩
  · exact fun _ h => by cases h
  · exact fun _ h => by cases h
  · exact follows_follow k sequel _

/-- An answer changes only the desk of its seat. -/
theorem state_answered (k : Nat) (query : Query) (sequel : Sequel) (answer : Except Failure Json) (c : Console) :
    ((answered k query sequel answer).run.run c).2 = c.putDesk k ((Desk.finish query answer).run.run (c.desk k)).2 := by
  rw [run_answered]
  generalize (Desk.finish query answer).run.run (c.desk k) = out
  rcases out with ⟨cause | (_ | _), d⟩
  · rfl
  · rfl
  · exact looks_follow k sequel _

theorem length_answered (k : Nat) (query : Query) (sequel : Sequel) (answer : Except Failure Json) (c : Console) :
    ((answered k query sequel answer).run.run c).2.seats.length = c.seats.length := by
  rw [state_answered, length_putDesk]

/-! ## Requests -/

/-- A call has posed a request, and waits for the answer to its number, or until the request gets through. -/
structure Poses (e : Errand) (id : Nat) (query : Query) (sequel : Sequel) : Prop where
  purpose : e.purpose = .asking query sequel
  wait : ∃ wait, e.wait = .line ⟨wait, .request id (.text query.method) query.params⟩ ∧ wait.ids = [id]

/-- A request that goes on goes on with what is collected for it. -/
theorem Poses.run_resume {e : Errand} {id : Nat} (h : Poses e id query sequel) {late : Bool} {c : Console}
    (hpursues : c.Pursues late e) :
    ∃ ending : Ending, ending.IsProper late ∧
      let out := (Line.collect id (.text query.method) query.params ending).run.run (c.wired e.seat)
      (resume late e).run.run c = (answered e.seat query sequel out.1).run.run (c.rewire e.seat out.2) := by
  obtain ⟨k, wait, purpose⟩ := e
  obtain ⟨hpurpose, wait, hwait, -⟩ := h
  subst hpurpose hwait
  obtain ⟨ending, hends, hrun⟩ := hpursues query sequel _ rfl rfl
  refine ⟨ending, hends.isProper, ?_⟩
  simp only [resume, run_bind, run_attempt, onLine, run_withLine, hrun, Line.conclude]
  rcases (Line.collect id (.text query.method) query.params ending).run.run (c.wired k) with ⟨_ | _, _⟩ <;> rfl

/-- How far a request comes with the turn in which it is made. -/
inductive Sent (c : Console) (k n : Nat) (request : Request) (timeout : Json) (sequel : Sequel) :
    Except Failure Turn → Console → Prop
  /-- It cannot be made. -/
  | refused {cause : Failure} {d : Desk Wired}
    (hbegin : (Desk.begin lineCarrier n timeout request).run.run (c.desk k) = (.error cause, d)) :
    Sent c k n request timeout sequel (.error cause) (c.putDesk k d)
  /-- Its answer is waited for. -/
  | waits {query : Query} {d : Desk Wired} {call : Suspended} {w : Wired}
    (hbegin : (Desk.begin lineCarrier n timeout request).run.run (c.desk k) = (.ok query, d))
    (hask : (Line.ask (.text query.method) query.params query.timeout).run.run ((c.putDesk k d).wired k) =
      (.ok (.waiting call), w)) :
    Sent c k n request timeout sequel (.ok (.awaits ⟨k, .line call, .asking query sequel⟩)) ((c.putDesk k d).rewire k w)
  /-- It cannot be sent, or not be waited for. -/
  | unsent {query : Query} {d : Desk Wired} {cause : Failure} {w : Wired}
    (hbegin : (Desk.begin lineCarrier n timeout request).run.run (c.desk k) = (.ok query, d))
    (hask : (Line.ask (.text query.method) query.params query.timeout).run.run ((c.putDesk k d).wired k) =
      (.error cause, w)) :
    Sent c k n request timeout sequel
      ((answered k query sequel (.error cause)).run.run ((c.putDesk k d).rewire k w)).1
      ((answered k query sequel (.error cause)).run.run ((c.putDesk k d).rewire k w)).2

/-- A request that is made takes the next number of its line, and is waited for under it, or it fails. -/
theorem ask_cases (method params timeout : Json) (w : Wired) :
    (∃ cause w', (Line.ask method params timeout).run.run w = (.error cause, w')) ∨
      ∃ wait w', wait.ids = [w.line.nextId] ∧ w'.line.nextId = w.line.nextId + 1 ∧
        (Line.ask method params timeout).run.run w =
          (.ok (.waiting ⟨wait, .request w.line.nextId method params⟩), w') := by
  have htransmitted := Line.transmitted w.line.nextId method params timeout (Line.issued w)
  simp only [Line.ask, run_bind, Line.run_post]
  generalize (Line.transmit w.line.nextId method params timeout).run.run (Line.issued w) = out at htransmitted
  rcases out with ⟨cause | wait, w'⟩
  · exact .inl ⟨cause, _, rfl⟩
  · obtain ⟨hbooks, hids⟩ := htransmitted
    exact .inr ⟨wait, w', hids, congrArg Books.nextId hbooks, rfl⟩

theorem sent (k n : Nat) (request : Request) (timeout : Json) (sequel : Sequel) (c : Console) :
    c.Sent k n request timeout sequel ((send k n request timeout sequel).run.run c).1
      ((send k n request timeout sequel).run.run c).2 := by
  simp only [send, run_bind, run_withDesk]
  cases hbegin : (Desk.begin lineCarrier n timeout request).run.run (c.desk k) with
  | mk r d =>
    cases r with
    | error cause => exact .refused hbegin
    | ok query =>
      have hcases := ask_cases (.text query.method) query.params query.timeout ((c.putDesk k d).wired k)
      simp only [run_attempt, run_withLine]
      rcases hcases with ⟨cause, w, hask⟩ | ⟨wait, w, -, -, hask⟩
      · rw [hask]
        exact .unsent hbegin hask
      · rw [hask]
        exact .waits hbegin hask

theorem Sent.length {r : Except Failure Turn} {c' : Console} (h : c.Sent k n request timeout sequel r c') :
    c'.seats.length = c.seats.length := by
  cases h with
  | refused hbegin => exact length_putDesk c k _
  | waits hbegin hask => exact (length_rewire _ k _).trans (length_putDesk c k _)
  | unsent hbegin hask =>
    exact (length_answered k _ sequel _ _).trans ((length_rewire _ k _).trans (length_putDesk c k _))

/-- What cannot be sent ends at once, with a notice or without. -/
theorem answered_error_ne_awaits (k : Nat) (query : Query) (sequel : Sequel) (cause : Failure) (c : Console) (errand : Errand) :
    ((answered k query sequel (.error cause)).run.run c).1 ≠ .ok (.awaits errand) := by
  intro he
  rw [run_answered_error] at he
  cases hnotice : query.notice? cause with
  | none =>
    rw [hnotice] at he
    cases he
  | some notice =>
    rw [hnotice] at he
    cases he

/-- Who waits then is at the seat where it was asked for, and waits for the answer. -/
theorem Sent.errand {r : Except Failure Turn} {c' : Console} (h : c.Sent k n request timeout sequel r c') {errand : Errand}
    (he : r = .ok (.awaits errand)) : errand.seat = k ∧ ∃ query id, Poses errand id query sequel := by
  cases h with
  | refused hbegin => cases he
  | @waits query d _ _ hbegin hask =>
    cases he
    refine ⟨rfl, query, ?_⟩
    rcases ask_cases (.text query.method) query.params query.timeout ((c.putDesk k d).wired k) with
      ⟨cause, w, hask'⟩ | ⟨wait, w, hids, -, hask'⟩
    · rw [hask] at hask'
      cases hask'
    · rw [hask] at hask'
      cases hask'
      exact ⟨_, rfl, wait, rfl, hids⟩
  | unsent hbegin hask => exact absurd he (answered_error_ne_awaits k _ sequel _ _ errand)

/-- What is kept in turns is kept when a request is sent, if it is kept by one that fails. -/
theorem Steady.sent {may : Nat → Session → List (Path × Nat) → Prop} {I : Console → Prop} (s : Steady may I)
    (hfinish : ∀ {c k} query cause, I c → I (c.putDesk k ((Desk.finish query (.error cause)).run.run (c.desk k)).2))
    {r : Except Failure Turn} {c' : Console} (h : c.Sent k n request timeout sequel r c') (hc : I c) : I c' := by
  have hbegun := s.chore (k := k) hc (.begin n timeout request)
  have hasked {query : Query} {d : Desk Wired} {stood : Except Failure Standing} {w : Wired} (hd : I (c.putDesk k d))
      (hask : (Line.ask (.text query.method) query.params query.timeout).run.run ((c.putDesk k d).wired k) = (stood, w)) :
      I ((c.putDesk k d).rewire k w) := by
    have honward := (Wired.Onward.traffic _).ask (.text query.method) query.params query.timeout _
      (.refl ((c.putDesk k d).wired k))
    rw [hask] at honward
    exact s.line hd honward.further fun _ => honward.abides
  cases h with
  | refused hbegin =>
    rw [hbegin] at hbegun
    exact hbegun
  | waits hbegin hask =>
    rw [hbegin] at hbegun
    exact hasked hbegun hask
  | unsent hbegin hask =>
    rw [hbegin] at hbegun
    rw [state_answered]
    exact hfinish _ _ (hasked hbegun hask)

end CoqConsole.Console
