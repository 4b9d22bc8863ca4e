import CoqConsole.Proofs.Line.Keeping

/-!
# What a message enters in the books

* `Json.IsAnswer`, `Json.reply?` : messages that are answers, and the request that one names;
* `run_dispatch_answer`, `keeps_dispatch` : an answer to a pending request is kept; no other message enters anything;
* `Wired.incoming?`, `Wired.reply?` : the message that is read next, and the answer that it is;
* `read_incoming`, `read_reply`, `books_read` : reading.
-/

namespace CoqConsole

/-- The message is an answer, and `target` is the number that it names. Requests of the server and notifications
have a method; an answer to nothing that the line wrote names no number. -/
structure Json.IsAnswer (message : Json) (target : Option Nat) : Prop where
  object : ∃ method, message.find "method" = .ok method ∧ (method.getD .null).isNull = true
  named : Line.keyOf ((message.get? "id").getD .null) = .ok target

def Json.reply? (message : Json) : Option Nat :=
  if ((message.get? "method").getD .null).isNull then
    match Line.keyOf ((message.get? "id").getD .null) with
    | .ok target => target
    | .error _ => none
  else none

theorem Json.isAnswer_of_reply? {message : Json} {id : Nat} (h : message.reply? = some id) :
    message.IsAnswer (some id) := by
  cases message with
  | object members =>
    unfold reply? at h
    split at h
    · next hmethod =>
      split at h
      · next target htarget =>
        subst h
        exact ⟨⟨_, rfl, hmethod⟩, htarget⟩
      · cases h
    · cases h
  | _ => cases h

theorem Json.reply?_of_isAnswer {message : Json} {target : Option Nat} (h : message.IsAnswer target) :
    message.reply? = target := by
  obtain ⟨⟨method, hfind, hnull⟩, hnamed⟩ := h
  cases message with
  | object members =>
    cases hfind
    rw [reply?, show get? "method" (.object members) = Keyed.get? "method" members from rfl, if_pos hnull, hnamed]
  | _ => cases hfind

/-- A whole number names the request of that number. -/
theorem Json.IsAnswer.int {message : Json} {id : Nat} (h : message.IsAnswer (some id)) {k : Int}
    (hid : message.get? "id" = some (.int k)) : k = id := by
  have hnamed := h.named
  rw [hid, Option.getD_some, Line.keyOf, key, Except.map] at hnamed
  simp only at hnamed
  split at hnamed
  · cases hnamed
    omega
  · cases hnamed

/-- A text names no request. -/
theorem Json.IsAnswer.text {message : Json} {id : Nat} (h : message.IsAnswer (some id)) (s : String) :
    message.get? "id" ≠ some (.text s) := by
  intro hid
  have hnamed := h.named
  rw [hid] at hnamed
  cases hnamed

namespace Line

theorem settle_of_not_open {w : Wired} {id : Nat} (h : ¬ w.books.IsOpen id) (answer : Except Failure Json) :
    w.line.settle id answer = w.line := by
  rw [settle, if_neg]
  intro hsettle
  rw [Bool.and_eq_true, List.contains_iff_mem, Bool.not_eq_true', ← Bool.not_eq_true, Keyed.has_eq_true] at hsettle
  exact h hsettle

theorem run_dispatch_answer (handles : String → Bool) {message : Json} {target : Option Nat}
    (h : message.IsAnswer target) (w : Wired) :
    (dispatch handles message).run.run w =
      (.ok none, match target with
        | some id => { w with line := w.line.settle id (.ok message) }
        | none => w) := by
  obtain ⟨⟨method, hfind, hnull⟩, hnamed⟩ := h
  simp only [dispatch, run_bind, run_lift, hfind, hnull, if_true, hnamed]
  cases target with
  | none => rfl
  | some id => rfl

theorem key_answerFor {method message value : Json} {key : String} (h : answerFor method message = .ok (key, value)) :
    key = "result" ∨ key = "error" := by
  unfold answerFor at h
  extract_lets named at h
  split at h
  · cases h
    exact .inl rfl
  · split at h
    · simp only [bind, Except.bind] at h
      split at h
      · cases h
      · split at h
        · cases h
        · cases h
          exact .inl rfl
    · cases h
      exact .inr rfl

theorem keeps_dispatch (handles : String → Bool) {message : Json} (h : message.reply? = none) :
    Keeps (dispatch handles message) := by
  unfold dispatch
  refine .lift_bind fun method hfind => ?_
  extract_lets method'
  refine .ite (fun hnull => ?_) fun _ => ?_
  · refine .lift_bind fun target hnamed => ?_
    have htarget := Json.reply?_of_isAnswer ⟨⟨method, hfind, hnull⟩, hnamed⟩
    rw [h] at htarget
    subst htarget
    exact .pure _
  · cases message.get? "id" with
    | some id =>
      refine .lift_bind fun (key, value) hanswer => ?_
      have hplain : requestId? (.object [("jsonrpc", .text "2.0"), ("id", id), (key, value)]) = none := by
        rcases key_answerFor hanswer with rfl | rfl <;> rfl
      exact (Keeps.write hplain).bind fun _ => .pure _
    | none =>
      refine .lift_bind fun key _ => ?_
      cases key <;> exact .pure _

end Line

namespace Wired

/-- The message that is read next, with the process that wrote it and the octets after it. -/
def incoming? (w : Wired) : Option (Nat × Json × List UInt8) := do
  let p ← if w.line.reading && !w.line.closing then w.line.process else none
  let q ← w.host.process? p
  match Frame.read (!q.outputOpen) q.output with
  | .found .null _ => none
  | .found message rest => some (p, message, rest)
  | _ => none

/-- The request that is answered by the message that is read next, with that message. -/
def reply? (w : Wired) : Option (Nat × Json) :=
  w.incoming?.bind fun (_, message, _) => message.reply?.map fun id => (id, message)

/-- A message was taken from the output of a process. -/
def consumed (w : Wired) (p : Nat) (rest : List UInt8) : Wired :=
  { w with host := w.host.edit p fun q => { q with output := rest } }

theorem books_consumed (w : Wired) (p : Nat) (rest : List UInt8) : (w.consumed p rest).books = w.books := rfl

theorem books_endReading (w : Wired) (r : Option Record) :
    (w.endReading r).books = w.books.fail .lostConnection := by
  cases r with
  | none => exact Line.books_failPending { w with line := { w.line with reading := false } } .lostConnection
  | some r =>
    exact Line.books_failPending ⟨w.host.record r, { w.line with reading := false }⟩ .lostConnection

/-- Reading is taking the next message and doing what it says, or else the end. -/
theorem read_cases (handles : String → Bool) (w : Wired) :
    (∃ p message rest, w.incoming? = some (p, message, rest) ∧
      w.read handles = some
        (match (Line.dispatch handles message).run.run (w.consumed p rest) with
          | (.ok handed, w) => (w, handed)
          | (.error cause, w) => (w.endReading (some (.unreadable cause)), none))) ∨
      (w.incoming? = none ∧
        ∀ w' handed, w.read handles = some (w', handed) → w'.books = w.books.fail .lostConnection) := by
  -- The stream can end, fail or be let go; each time the same is entered.
  have hend (r : Option Record) (v : Wired) (hv : v.books = w.books) (w' : Wired) (handed : Option (String × Json))
      (h : some (v.endReading r, none) = some (w', handed)) : w'.books = w.books.fail .lostConnection := by
    cases h
    rw [books_endReading, hv]
  unfold read incoming?
  cases w.line.reading with
  | false => exact .inr ⟨rfl, nofun⟩
  | true =>
    cases w.line.process with
    | none =>
      refine .inr ⟨?_, nofun⟩
      split <;> rfl
    | some p =>
      cases w.line.closing with
      | true => exact .inr ⟨rfl, hend none w rfl⟩
      | false =>
        simp only [Bool.not_false, Bool.and_self, if_true, Option.bind_eq_bind, Option.bind_some, Bool.false_eq_true,
          if_false]
        cases w.host.process? p with
        | none => exact .inr ⟨rfl, nofun⟩
        | some q =>
          simp only [Option.bind_some]
          cases Frame.read (!q.outputOpen) q.output with
          | starved => exact .inr ⟨rfl, nofun⟩
          | ended => exact .inr ⟨rfl, hend none w rfl⟩
          | failed cause =>
            refine .inr ⟨rfl, ?_⟩
            cases cause <;> exact hend _ w rfl
          | found message rest =>
            by_cases hnull : message = .null
            · subst hnull
              exact .inr ⟨rfl, hend none (w.consumed p rest) rfl⟩
            · refine .inl ⟨p, message, rest, ?_, ?_⟩
              · cases message <;> first | rfl | exact absurd rfl hnull
              · unfold consumed
                cases message
                case null => exact absurd rfl hnull
                all_goals
                  simp only
                  generalize StateT.run (ExceptT.run (Line.dispatch handles _)) _ = out
                  rcases out with ⟨_ | _, _⟩ <;> rfl

theorem read_incoming (handles : String → Bool) {w : Wired} {p : Nat} {message : Json} {rest : List UInt8}
    (h : w.incoming? = some (p, message, rest)) :
    w.read handles = some
      (match (Line.dispatch handles message).run.run (w.consumed p rest) with
        | (.ok handed, w) => (w, handed)
        | (.error cause, w) => (w.endReading (some (.unreadable cause)), none)) := by
  rcases w.read_cases handles with ⟨p', message', rest', heq, hread⟩ | ⟨hnone, -⟩
  · rw [h] at heq
    cases heq
    exact hread
  · rw [h] at hnone
    cases hnone

/-- Reading an answer keeps it, if it is the first to a pending request, and does nothing else. -/
theorem read_answer (handles : String → Bool) {w : Wired} {p : Nat} {message : Json} {rest : List UInt8}
    (h : w.incoming? = some (p, message, rest)) {target : Option Nat} (hanswer : message.IsAnswer target) :
    w.read handles = some
      (match target with
        | some id => { w.consumed p rest with line := w.line.settle id (.ok message) }
        | none => w.consumed p rest, none) := by
  rw [read_incoming handles h, Line.run_dispatch_answer handles hanswer]
  rfl

/-- A message that is no answer leaves the books as they are, unless it is the last that is read. -/
theorem books_read (handles : String → Bool) {w w' : Wired} {handed : Option (String × Json)} (h : w.reply? = none)
    (hread : w.read handles = some (w', handed)) :
    w'.books = w.books ∨ w'.books = w.books.fail .lostConnection := by
  rcases w.read_cases handles with ⟨p, message, rest, hin, hdispatch⟩ | ⟨-, hend⟩
  · have hreply : message.reply? = none := by
      rw [reply?, hin, Option.bind_some] at h
      exact Option.map_eq_none_iff.mp h
    have hbooks := (Line.keeps_dispatch handles hreply (w.consumed p rest)).trans (books_consumed w p rest)
    rw [hread] at hdispatch
    generalize (Line.dispatch handles message).run.run (w.consumed p rest) = out at hbooks hdispatch
    rcases out with ⟨cause | handed, v⟩
    · cases hdispatch
      exact .inr (by rw [books_endReading, hbooks])
    · cases hdispatch
      exact .inl hbooks
  · exact .inr (hend w' handed hread)

/-- An error stream brings no messages. -/
theorem books_listen {w w' : Wired} {p : Nat} (h : w.listen p = some w') : w'.books = w.books := by
  unfold listen at h
  extract_lets line deaf heard go at h
  have hgo (q : Server) (hq : go q = some w') : w'.books = w.books := by
    unfold go at hq
    split at hq
    · rw [← Option.some.inj hq]
      rfl
    · split at hq
      · cases hq
      · rw [← Option.some.inj hq]
        rfl
      · rw [← Option.some.inj hq]
        rfl
      · rw [← Option.some.inj hq]
        simp only [heard]
        split <;> rfl
  split at h
  · obtain ⟨q, -, hq⟩ := Option.bind_eq_some_iff.mp h
    exact hgo q hq
  · cases h

end Wired
end CoqConsole
