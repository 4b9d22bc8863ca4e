import CoqConsole.Proofs.Frame
import CoqConsole.Proofs.Line.Correlation
import CoqConsole.Proofs.Line.Onward

/-!
# What keeps a line reading

A line goes on reading after a message only if it could do what the message asks for. Answers with a key for a number
and notifications with a key for a method never fail; the answer to a request of the server has to be written, which
needs a process that still runs.

* `Line.bears`, `Line.Heeds`, `dispatch_cases` : the messages that a line can bear, and what it does with them;
* `Wired.Ends`, `read_end`, `read_ends_or_heeds` : what ends the reading apart from messages, and all that reading comes to;
* `Host.Holds`, `Circuit.heardFrom`, `heardFrom_follow` : what stands complete in the output of a process is read in order;
* `Circuit.kept_after` : what all operations of a line keep, every event keeps that is not a message read;
* `Circuit.Attentive`, `attentive` : in every state, reading goes on after a message exactly if it can be borne.
-/

namespace CoqConsole

/-! ## Messages -/

theorem Json.get?_of_find {message : Json} {key : String} {found : Option Json} (h : message.find key = .ok found) :
    message.get? key = found := by
  cases message with
  | object members => exact Except.ok.inj h
  | _ => cases h

namespace Line

/-- Whether a message can be borne by a line whose process runs, or by one whose process does not. -/
def bears (running : Bool) (message : Json) : Bool :=
  match message.find "method" with
  | .error _ => false
  | .ok method =>
    let method := method.getD .null
    if method.isNull then (keyOf ((message.get? "id").getD .null)).isOk
    else if (message.get? "id").isSome then running && (answerFor method message).isOk
    else method.key.isOk

/-- What a line does with a message. -/
inductive Heeds (handles : String → Bool) (w : Wired) (message : Json) : Wired → Option (String × Json) → Prop
  | answer {id : Nat} (h : message.IsAnswer (some id)) :
    Heeds handles w message { w with line := w.line.settle id (.ok message) } none
  | stray (h : message.IsAnswer none) : Heeds handles w message w none
  | request {method id value : Json} {key : String} {p : Nat} (hmethod : message.get? "method" = some method)
      (hid : message.get? "id" = some id) (hanswer : answerFor method message = .ok (key, value))
      (hp : w.running? = some p) :
    Heeds handles w message
      { w with host := w.host.deliver p (.object [("jsonrpc", .text "2.0"), ("id", id), (key, value)]) } none
  | notification {name : String} (hmethod : message.get? "method" = some (.text name))
      (hid : message.get? "id" = none) (hhandled : handles name = true) :
    Heeds handles w message w (some (name, (message.get? "params").getD .null))
  | unheard {method : Json} (hmethod : message.get? "method" = some method) (hid : message.get? "id" = none)
      (hhandled : ∀ name, method = .text name → handles name = false) : Heeds handles w message w none

theorem Heeds.onward {handles : String → Bool} {w w' : Wired} {message : Json} {handed : Option (String × Json)}
    (h : Heeds handles w message w' handed) : w.Onward w' := by
  cases h with
  | answer hanswer =>
    obtain ⟨settled, hsettle, hnew⟩ := eq_of_settle _ (.ok message) w.line
    rw [hsettle]
    refine ⟨.refl _, rfl, rfl, rfl, rfl, rfl, fun i cause hmem => .inl ?_, Nat.le_refl _, fun i message' hmem => ?_⟩
    · rcases hnew _ hmem with hmem | heq
      · exact hmem
      · cases heq
    · refine (hnew _ hmem).imp_right fun heq => ?_
      cases heq
      exact hanswer
  | request _ _ _ _ =>
    exact ⟨.deliver _ _ _, List.length_modify _ _ _, rfl, rfl, rfl, rfl, .of_subset (List.Subset.refl _), .refl _⟩
  | _ => exact .refl w

theorem isRunning_eq (w : Wired) : w.isRunning = w.running?.isSome := rfl

/-- A request of the server is answered while its process runs, if there is an answer. -/
theorem dispatch_request_cases (handles : String → Bool) {message id : Json} {method : Option Json} {w : Wired}
    (hfind : message.find "method" = .ok method) (hnull : ¬ (method.getD .null).isNull = true)
    (hmethod : message.get? "method" = some (method.getD .null)) (hid : message.get? "id" = some id) :
    ((w.isRunning && (answerFor (method.getD .null) message).isOk) = true ∧ ∃ w' handed,
      Heeds handles w message w' handed ∧ (dispatch handles message).run.run w = (.ok handed, w')) ∨
    ((w.isRunning && (answerFor (method.getD .null) message).isOk) = false ∧
      ∃ cause, (dispatch handles message).run.run w = (.error cause, w)) := by
  unfold dispatch
  simp only [run_bind, run_lift, hfind, if_neg hnull, hid]
  cases hanswer : answerFor (method.getD .null) message with
  | error cause => exact .inr ⟨by simp [Except.isOk, Except.toBool], cause, rfl⟩
  | ok answer =>
    obtain ⟨key, value⟩ := answer
    simp only [run_write, run_pure]
    cases hp : w.running? with
    | none => exact .inr ⟨by simp [isRunning_eq, hp], .notRunning, rfl⟩
    | some p =>
      refine .inl ⟨by simp [isRunning_eq, hp, Except.isOk, Except.toBool], _, none, ?_, rfl⟩
      exact .request hmethod hid hanswer hp

/-- A notification is handed on if it has a handler, whatever names it as long as it can be looked up. -/
theorem dispatch_notification_cases (handles : String → Bool) {message : Json} {method : Option Json} {w : Wired}
    (hfind : message.find "method" = .ok method) (hnull : ¬ (method.getD .null).isNull = true)
    (hmethod : message.get? "method" = some (method.getD .null)) (hid : message.get? "id" = none) :
    ((method.getD .null).key.isOk = true ∧ ∃ w' handed,
      Heeds handles w message w' handed ∧ (dispatch handles message).run.run w = (.ok handed, w')) ∨
    ((method.getD .null).key.isOk = false ∧ ∃ cause, (dispatch handles message).run.run w = (.error cause, w)) := by
  unfold dispatch
  simp only [run_bind, run_lift, hfind, if_neg hnull, hid]
  cases hkey : (method.getD .null).key with
  | error cause => exact .inr ⟨rfl, cause, rfl⟩
  | ok key =>
    refine .inl ⟨rfl, ?_⟩
    by_cases htext : ∃ name, key = .text name
    · obtain ⟨name, rfl⟩ := htext
      rw [Json.key_eq_text.mp hkey] at hmethod
      simp only [run_pure]
      by_cases hhandled : handles name = true
      · rw [if_pos hhandled]
        exact ⟨w, _, .notification hmethod hid hhandled, rfl⟩
      · rw [if_neg hhandled]
        refine ⟨w, none, .unheard hmethod hid ?_, rfl⟩
        rintro _ ⟨⟩
        exact Bool.not_eq_true _ |>.mp hhandled
    · refine ⟨w, none, .unheard hmethod hid ?_, ?_⟩
      · intro name hname
        rw [hname] at hkey
        exact absurd ⟨name, (Except.ok.inj hkey).symm⟩ htext
      · cases key with
        | text name => exact absurd ⟨name, rfl⟩ htext
        | _ => rfl

/-- A message is heeded if it can be borne, and changes nothing otherwise. -/
theorem dispatch_cases (handles : String → Bool) (message : Json) (w : Wired) :
    (bears w.isRunning message = true ∧ ∃ w' handed, Heeds handles w message w' handed ∧
      (dispatch handles message).run.run w = (.ok handed, w')) ∨
    (bears w.isRunning message = false ∧ ∃ cause, (dispatch handles message).run.run w = (.error cause, w)) := by
  unfold bears
  cases hfind : message.find "method" with
  | error cause => exact .inr ⟨rfl, cause, by simp only [dispatch, run_bind, run_lift, hfind]⟩
  | ok method =>
    simp only
    by_cases hnull : (method.getD .null).isNull = true
    · rw [if_pos hnull]
      cases hkey : keyOf ((message.get? "id").getD .null) with
      | error cause => exact .inr ⟨rfl, cause, by simp only [dispatch, run_bind, run_lift, hfind, if_pos hnull, hkey]⟩
      | ok target =>
        have hanswer : message.IsAnswer target := ⟨⟨method, hfind, hnull⟩, hkey⟩
        rw [run_dispatch_answer handles hanswer]
        cases target with
        | none => exact .inl ⟨rfl, w, none, .stray hanswer, rfl⟩
        | some id => exact .inl ⟨rfl, _, none, .answer hanswer, rfl⟩
    · rw [if_neg hnull]
      have hmethod : message.get? "method" = some (method.getD .null) := by
        rw [Json.get?_of_find hfind]
        cases method with
        | none => exact absurd rfl hnull
        | some method => rfl
      cases hid : message.get? "id" with
      | some id =>
        rw [Option.isSome_some, if_pos rfl]
        exact dispatch_request_cases handles hfind hnull hmethod hid
      | none =>
        rw [Option.isSome_none, if_neg Bool.false_ne_true]
        exact dispatch_notification_cases handles hfind hnull hmethod hid

end Line

/-! ## Streams -/

/-- Messages stand complete at the beginning of what a process has written and nobody has read. -/
def Host.Holds (h : Host) (p : Nat) (messages : List Json) : Prop :=
  ∃ q, h.process? p = some q ∧ Frame.Holds q.output messages

theorem Host.Holds.grows {h h' : Host} {p : Nat} {messages : List Json} (hholds : h.Holds p messages)
    (hgrows : h.Grows h') : h'.Holds p messages := by
  obtain ⟨q, hq, hmessages⟩ := hholds
  obtain ⟨q', hq', hlater⟩ := hgrows.processes p q hq
  obtain ⟨more, hmore⟩ := hlater.output
  refine ⟨q', hq', ?_⟩
  rw [hmore]
  exact hmessages.append more

namespace Wired

variable {w w' : Wired} {handles : String → Bool}

/-- What ends the reading, apart from messages: the line is being closed, or the stream of its process has ended or
cannot be read any further, or holds a null. -/
inductive Ends (w : Wired) : Prop
  | closing (h : w.line.closing = true)
  | ended {p : Nat} {q : Server} (hp : w.line.process = some p) (hq : w.host.process? p = some q)
      (h : Frame.read (!q.outputOpen) q.output = .ended)
  | unreadable {p : Nat} {q : Server} {cause : Failure} (hp : w.line.process = some p)
      (hq : w.host.process? p = some q) (h : Frame.read (!q.outputOpen) q.output = .failed cause)
  | null {p : Nat} {q : Server} {rest : List UInt8} (hp : w.line.process = some p) (hq : w.host.process? p = some q)
      (h : Frame.read (!q.outputOpen) q.output = .found .null rest)

theorem reading_endReading (w : Wired) (r : Option Record) : (w.endReading r).line.reading = false := by
  obtain ⟨settled, hfail, -⟩ := Line.eq_of_failPending .lostConnection { w.line with reading := false }
  show (Line.failPending .lostConnection { w.line with reading := false }).reading = false
  rw [hfail]

theorem grows_endReading (w : Wired) (r : Option Record) : w.host.Grows (w.endReading r).host := by
  cases r with
  | none => exact .refl _
  | some r => exact .record _ r

theorem wire_endReading (w : Wired) (r : Option Record) : (w.endReading r).host.wire = w.host.wire := by cases r <;> rfl

theorem eq_of_incoming {p : Nat} {message : Json} {rest : List UInt8} (h : w.incoming? = some (p, message, rest)) :
    w.line.reading = true ∧ w.line.closing = false ∧ w.line.process = some p ∧
      ∃ q, w.host.process? p = some q ∧ Frame.read (!q.outputOpen) q.output = .found message rest := by
  unfold incoming? at h
  cases hreading : w.line.reading with
  | false =>
    rw [hreading] at h
    cases h
  | true =>
    cases hclosing : w.line.closing with
    | true =>
      rw [hreading, hclosing] at h
      cases h
    | false =>
      simp only [hreading, hclosing, Bool.not_false, Bool.and_self, if_true, Option.bind_eq_bind] at h
      obtain ⟨p', hp, h⟩ := Option.bind_eq_some_iff.mp h
      obtain ⟨q, hq, h⟩ := Option.bind_eq_some_iff.mp h
      split at h
      · cases h
      · next hread =>
        cases h
        exact ⟨rfl, rfl, hp, q, hq, hread⟩
      · cases h

theorem incoming_of_read {p : Nat} {q : Server} {message : Json} {rest : List UInt8} (hreading : w.line.reading = true)
    (hclosing : w.line.closing = false) (hp : w.line.process = some p) (hq : w.host.process? p = some q)
    (hread : Frame.read (!q.outputOpen) q.output = .found message rest) (hvalue : message ≠ .null) :
    w.incoming? = some (p, message, rest) := by
  unfold incoming?
  rw [hreading, hclosing, hp]
  simp only [Bool.not_false, Bool.and_self, if_true, Option.bind_eq_bind, Option.bind_some, hq, hread]

/-- A message that stands complete is the next to be read. -/
theorem incoming_of_holds {p : Nat} {message : Json} {messages : List Json} (hreading : w.line.reading = true)
    (hclosing : w.line.closing = false) (hp : w.line.process = some p) (h : w.host.Holds p (message :: messages)) :
    ∃ rest, w.incoming? = some (p, message, rest) := by
  obtain ⟨q, hq, hmessages⟩ := h
  cases hmessages with
  | cons hread hvalue hrest =>
    exact ⟨_, incoming_of_read hreading hclosing hp hq (Frame.read_of_complete hread _) hvalue⟩

/-- The message that is read is the first that stands in the output, and leaves those after it. -/
theorem holds_consumed {p : Nat} {message : Json} {rest : List UInt8} (hin : w.incoming? = some (p, message, rest))
    {n : Nat} {first : Json} {messages : List Json} (h : w.host.Holds n (first :: messages)) :
    if p = n then first = message ∧ (w.consumed p rest).host.Holds n messages
    else (w.consumed p rest).host.Holds n (first :: messages) := by
  obtain ⟨-, -, -, q, hq, hread⟩ := eq_of_incoming hin
  obtain ⟨q', hq', hmessages⟩ := h
  split
  · next heq =>
    subst heq
    rw [hq] at hq'
    cases hq'
    cases hmessages with
    | cons hfirst hvalue hrest =>
      rw [Frame.read_of_complete hfirst] at hread
      cases hread
      refine ⟨rfl, { q with output := rest }, ?_, hrest⟩
      rw [process?_consumed, hq, Option.map_some, if_pos rfl]
  · next hne =>
    refine ⟨q', ?_, hmessages⟩
    rw [process?_consumed, hq', Option.map_some, if_neg hne]

/-- What stands complete is no null: after a null was read, it stands where it stood. -/
theorem holds_consumed_null {p : Nat} {q : Server} {rest : List UInt8} (hq : w.host.process? p = some q)
    (hread : Frame.read (!q.outputOpen) q.output = .found .null rest) {n : Nat} {first : Json} {messages : List Json}
    (h : w.host.Holds n (first :: messages)) : (w.consumed p rest).host.Holds n (first :: messages) := by
  obtain ⟨q', hq', hmessages⟩ := h
  have hne : p ≠ n := by
    rintro rfl
    rw [hq] at hq'
    cases hq'
    cases hmessages with
    | cons hfirst hvalue hrest =>
      rw [Frame.read_of_complete hfirst] at hread
      cases hread
      exact hvalue rfl
  refine ⟨q', ?_, hmessages⟩
  rw [process?_consumed, hq', Option.map_some, if_neg hne]

/-- Without a message to read, whatever reading does is the end of it. -/
theorem read_end (h : w.incoming? = none) {handed : Option (String × Json)} (hread : w.read handles = some (w', handed)) :
    handed = none ∧ w.Ends ∧
      (∀ p message messages, w.host.Holds p (message :: messages) → w'.host.Holds p (message :: messages)) ∧
      ∃ v r, w' = v.endReading r ∧ (v = w ∨ ∃ p rest, v = w.consumed p rest) := by
  -- The stream can end, fail or be let go; each time the same is done.
  have hend (hends : w.Ends) (r : Option Record) (hw : some (w.endReading r, none) = some (w', handed)) :
      handed = none ∧ w.Ends ∧
        (∀ p message messages, w.host.Holds p (message :: messages) → w'.host.Holds p (message :: messages)) ∧
        ∃ v r, w' = v.endReading r ∧ (v = w ∨ ∃ p rest, v = w.consumed p rest) := by
    cases hw
    exact ⟨rfl, hends, fun p message messages hholds => hholds.grows (grows_endReading w r), w, r, rfl, .inl rfl⟩
  unfold read at hread
  cases hreading : w.line.reading with
  | false =>
    rw [hreading] at hread
    cases hread
  | true =>
    simp only [hreading, if_true, Option.bind_eq_bind] at hread
    obtain ⟨p, hp, hread⟩ := Option.bind_eq_some_iff.mp hread
    cases hclosing : w.line.closing with
    | true =>
      rw [if_pos hclosing] at hread
      exact hend (.closing hclosing) none hread
    | false =>
      rw [if_neg (Bool.not_eq_true _ |>.mpr hclosing)] at hread
      obtain ⟨q, hq, hread⟩ := Option.bind_eq_some_iff.mp hread
      cases hframe : Frame.read (!q.outputOpen) q.output with
      | starved =>
        rw [hframe] at hread
        cases hread
      | ended =>
        rw [hframe] at hread
        exact hend (.ended hp hq hframe) none hread
      | failed cause =>
        rw [hframe] at hread
        cases cause <;> exact hend (.unreadable hp hq hframe) _ hread
      | found message rest =>
        by_cases hnull : message = .null
        · subst hnull
          rw [hframe] at hread
          cases hread
          refine ⟨rfl, .null hp hq hframe, ?_, w.consumed p rest, none, rfl, .inr ⟨p, rest, rfl⟩⟩
          exact fun n first messages hholds => holds_consumed_null hq hframe hholds
        · have hsome := incoming_of_read hreading hclosing hp hq hframe hnull
          rw [h] at hsome
          cases hsome

/-- What reading comes to: it ends, before a message or behind one, or the line heeds a message. -/
theorem read_ends_or_heeds {handed : Option (String × Json)} (h : w.read handles = some (w', handed)) :
    (∃ v r, (v = w ∨ ∃ p rest, v = w.consumed p rest) ∧ w' = v.endReading r) ∨
      ∃ p message rest, Line.Heeds handles (w.consumed p rest) message w' handed := by
  cases hin : w.incoming? with
  | none =>
    obtain ⟨-, -, -, v, r, hend, hv⟩ := read_end hin h
    exact .inl ⟨v, r, hv, hend⟩
  | some incoming =>
    obtain ⟨p, message, rest⟩ := incoming
    have hread := read_incoming handles hin
    rw [h] at hread
    rcases Line.dispatch_cases handles message (w.consumed p rest) with ⟨-, v, handed', hheeds, hrun⟩ | ⟨-, cause, hrun⟩
    · rw [hrun] at hread
      cases hread
      exact .inr ⟨p, message, rest, hheeds⟩
    · rw [hrun] at hread
      cases hread
      exact .inl ⟨_, _, .inr ⟨p, rest, rfl⟩, rfl⟩

theorem isRunning_consumed (w : Wired) (p : Nat) (rest : List UInt8) : (w.consumed p rest).isRunning = w.isRunning := by
  unfold isRunning running?
  simp only [isAlive_consumed]
  rfl

end Wired

/-! ## Reading along a run -/

namespace Circuit

variable {c : Circuit}

/-- The message of a process that is read with an event. -/
def heard? (c : Circuit) (p : Nat) : Event → Option Json
  | .move .read => (c.wired.incoming?.filter fun m => decide (m.1 = p)).map fun m => m.2.1
  | _ => none

theorem heard?_of_ne {p : Nat} {e : Event} (he : e ≠ .move .read) : c.heard? p e = none := by
  cases e with
  | move m =>
    cases m with
    | read => exact absurd rfl he
    | _ => rfl
  | _ => rfl

/-- The messages of a process that are read along a run. -/
def heardFrom (c : Circuit) (p : Nat) : List Event → List Json
  | [] => []
  | e :: es => (c.heard? p e).toList ++ (c.after e).heardFrom p es

def hand (c : Circuit) : Option (String × Json) → Circuit
  | some (method, params) => c.handle method params
  | none => c

theorem onward_hand (c : Circuit) (w : Wired) (handed : Option (String × Json)) :
    w.Onward (({ c with wired := w } : Circuit).hand handed).wired := by
  cases handed with
  | none => exact .refl _
  | some handed =>
    unfold hand handle
    simp only
    split
    · exact ⟨.record _ _, rfl, rfl, rfl, rfl, rfl, .of_subset (List.Subset.refl _), .refl _⟩
    · exact .refl _

theorem read_cases {p : Nat} {message : Json} {rest : List UInt8} (hin : c.wired.incoming? = some (p, message, rest)) :
    (Line.bears c.wired.isRunning message = true ∧ ∃ w handed,
      Line.Heeds (fun m => Keyed.has m c.handlers) (c.wired.consumed p rest) message w handed ∧
        c.after (.move .read) = ({ c with wired := w } : Circuit).hand handed) ∨
    (Line.bears c.wired.isRunning message = false ∧ ∃ cause,
      c.after (.move .read) =
        { c with wired := (c.wired.consumed p rest).endReading (some (.unreadable cause)) }) := by
  have hread := Wired.read_incoming (fun m => Keyed.has m c.handlers) hin
  rcases Line.dispatch_cases (fun m => Keyed.has m c.handlers) message (c.wired.consumed p rest) with
    ⟨hbears, w, handed, hheeds, hrun⟩ | ⟨hbears, cause, hrun⟩
  · rw [Wired.isRunning_consumed] at hbears
    refine .inl ⟨hbears, w, handed, hheeds, ?_⟩
    rw [hrun] at hread
    rw [after, apply, hread]
    cases handed <;> rfl
  · rw [Wired.isRunning_consumed] at hbears
    refine .inr ⟨hbears, cause, ?_⟩
    rw [hrun] at hread
    rw [after, apply, hread]

theorem wired_stand (c : Circuit) (n : Nat) (r : Except Failure Standing) : (c.stand n r).wired = c.wired := by
  rcases r with _ | (_ | _) <;> rfl

/-- Whatever happens, what all operations of a line keep is kept, unless a message is read. -/
theorem kept_after {P : Wired → Prop} (s : Line.Service P)
    (hlisten : ∀ {w : Wired} {host : Host} {listening : List Nat}, P w → w.host.Grows host → host.wire = w.host.wire →
      P ⟨host, { w.line with listening }⟩) {e : Event} (he : e ≠ .move .read) (h : P c.wired) : P (c.after e).wired := by
  have hcall {op : Line.Op Standing} (hop : Ensures P op fun _ => P) : P (c.call op).2.wired := by
    rw [call_eq, wired_stand]
    exact hop c.wired h
  cases e with
  | ask method params timeout => exact hcall (s.ask method params timeout)
  | start options timeout brief => exact hcall (s.start options timeout brief)
  | stop => exact hcall (s.stop .null)
  | notify method params => exact s.notify method params c.wired h
  | cancel id => exact s.cancel id c.wired h
  | move m =>
    cases m with
    | wake p => exact s.host h (.wake _ _) rfl
    | read => exact absurd rfl he
    | listen p =>
      show P (c.apply (.listen p)).wired
      unfold apply
      simp only
      split
      · next w heard =>
        obtain ⟨host, listening, rfl, hgrows, hwire, -⟩ := Wired.eq_of_listen heard
        exact hlisten h hgrows hwire
      · exact h
    | resume n late =>
      show P (c.apply (.resume n late)).wired
      rcases c.resume_cases n late with heq | ⟨suspended, -, -, heq⟩
      · rw [heq]
        exact h
      · rw [heq, resumed_eq, wired_stand]
        exact s.resume late suspended c.wired h
  | act p acts => exact s.host h (.command _ _ _) rfl
  | tick now => exact s.host h (.of_eq rfl rfl) rfl
  | queue rota => exact h

/-- The processes go on, and what is read is read on unless reading itself ends it. -/
theorem ahead_after (c : Circuit) {e : Event} (he : e ≠ .move .read) : c.wired.Ahead (c.after e).wired :=
  kept_after (Wired.Ahead.service c.wired) (fun h hgrows _ => h.trans ⟨hgrows, fun h => h⟩) he (.refl _)

/-- Of what stands complete in the output of a process, an event reads the first or nothing. -/
theorem holds_after {p : Nat} {first : Json} {messages : List Json}
    (h : c.wired.host.Holds p (first :: messages)) (e : Event) :
    ∃ left, (c.heard? p e).toList ++ left = first :: messages ∧ (c.after e).wired.host.Holds p left := by
  by_cases he : e = .move .read
  · subst he
    cases hin : c.wired.incoming? with
    | none =>
      have hnone : c.heard? p (.move .read) = none := by rw [heard?, hin, Option.filter_none, Option.map_none]
      refine ⟨_, by rw [hnone]; rfl, ?_⟩
      rw [after, apply]
      cases hread : c.wired.read fun m => Keyed.has m c.handlers with
      | none => exact h
      | some out =>
        obtain ⟨w, handed⟩ := out
        obtain ⟨rfl, -, hholds, -⟩ := Wired.read_end hin hread
        exact hholds p first messages h
    | some incoming =>
      obtain ⟨n, message, rest⟩ := incoming
      have hgrows : (c.wired.consumed n rest).host.Grows (c.after (.move .read)).wired.host := by
        rcases read_cases hin with ⟨-, w, handed, hheeds, heq⟩ | ⟨-, cause, heq⟩
        · rw [heq]
          exact hheeds.onward.grows.trans (onward_hand c w handed).grows
        · rw [heq]
          exact Wired.grows_endReading _ _
      have hconsumed := Wired.holds_consumed hin h
      by_cases hn : n = p
      · rw [if_pos hn] at hconsumed
        obtain ⟨rfl, hleft⟩ := hconsumed
        refine ⟨messages, ?_, hleft.grows hgrows⟩
        rw [heard?, hin, Option.filter_some, if_pos (decide_eq_true hn)]
        rfl
      · rw [if_neg hn] at hconsumed
        refine ⟨_, ?_, hconsumed.grows hgrows⟩
        rw [heard?, hin, Option.filter_some, if_neg (fun hd => hn (of_decide_eq_true hd))]
        rfl
  · exact ⟨_, by rw [heard?_of_ne he]; rfl, h.grows (c.ahead_after he).grows⟩

theorem heardFrom_follow {p : Nat} {messages : List Json} (h : c.wired.host.Holds p messages) (es : List Event) :
    (∃ left, c.heardFrom p es ++ left = messages ∧ (c.follow es).wired.host.Holds p left) ∨
      messages <+: c.heardFrom p es := by
  induction es generalizing c messages with
  | nil => exact .inl ⟨messages, rfl, h⟩
  | cons e es ih =>
    cases messages with
    | nil => exact .inr List.nil_prefix
    | cons first messages =>
      obtain ⟨left, hleft, hholds⟩ := holds_after h e
      rw [heardFrom, ← hleft]
      rcases ih hholds with ⟨last, hlast, hend⟩ | hprefix
      · exact .inl ⟨last, by rw [List.append_assoc, hlast], hend⟩
      · exact .inr ((List.prefix_append_right_inj _).mpr hprefix)

/-- As long as the line stays with a process and bears its messages, it reads on until it has read all that stood
complete. -/
theorem reading_follow {p : Nat} {messages : List Json} (hreading : c.wired.line.reading = true)
    (h : c.wired.host.Holds p messages) (es : List Event)
    (hstays : ∀ before later, es = before ++ later → (c.follow before).wired.line.process = some p ∧
      (c.follow before).wired.line.closing = false)
    (hbears : ∀ before later message rest, es = before ++ .move .read :: later →
      (c.follow before).wired.incoming? = some (p, message, rest) →
        Line.bears (c.follow before).wired.isRunning message = true) :
    (c.follow es).wired.line.reading = true ∨ messages <+: c.heardFrom p es := by
  induction es generalizing c messages with
  | nil => exact .inl hreading
  | cons e es ih =>
    cases messages with
    | nil => exact .inr List.nil_prefix
    | cons first messages =>
      obtain ⟨left, hleft, hholds⟩ := holds_after h e
      have hreading' : (c.after e).wired.line.reading = true := by
        by_cases he : e = .move .read
        · subst he
          obtain ⟨hp, hclosing⟩ := hstays [] _ rfl
          obtain ⟨rest, hin⟩ := Wired.incoming_of_holds hreading hclosing hp h
          rcases read_cases hin with ⟨-, w, handed, hheeds, heq⟩ | ⟨hnot, -⟩
          · rw [heq]
            exact (hheeds.onward.trans (onward_hand c w handed)).reading.trans hreading
          · have hborne := hbears [] es first rest rfl hin
            rw [show c.follow [] = c from rfl, hnot] at hborne
            cases hborne
        · exact (c.ahead_after he).reading hreading
      rw [heardFrom, ← hleft]
      refine (ih hreading' hholds (fun before later hes => ?_) fun before later message rest hes hin => ?_).imp_right
        (List.prefix_append_right_inj _).mpr
      · exact hstays (e :: before) later (by rw [hes]; rfl)
      · exact hbears (e :: before) later message rest (by rw [hes]; rfl) hin

/-- What ends the reading is the end of the stream, or a message that cannot be borne. -/
theorem ends_after {e : Event} (hreads : c.wired.line.reading = true)
    (hends : (c.after e).wired.line.reading = false) :
    e = .move .read ∧ (c.wired.Ends ∨ ∃ p message rest, c.wired.incoming? = some (p, message, rest) ∧
      Line.bears c.wired.isRunning message = false) := by
  by_cases he : e = .move .read
  · subst he
    refine ⟨rfl, ?_⟩
    cases hin : c.wired.incoming? with
    | none =>
      rw [after, apply] at hends
      cases hread : c.wired.read fun m => Keyed.has m c.handlers with
      | none =>
        rw [hread] at hends
        exact absurd hreads (Bool.eq_false_iff.mp hends)
      | some out =>
        obtain ⟨w, handed⟩ := out
        exact .inl (Wired.read_end hin hread).2.1
    | some incoming =>
      obtain ⟨p, message, rest⟩ := incoming
      refine .inr ⟨p, message, rest, rfl, ?_⟩
      rcases read_cases hin with ⟨-, w, handed, hheeds, heq⟩ | ⟨hnot, -⟩
      · have hreading : (c.wired.consumed p rest).line.reading = true := hreads
        rw [heq, (hheeds.onward.trans (onward_hand c w handed)).reading, hreading] at hends
        cases hends
      · exact hnot
  · rw [(c.ahead_after he).reading hreads] at hends
    cases hends

/-- What reading does in a state of a line. -/
structure Attentive (c : Circuit) : Prop where
  /-- What stands complete in the output of a process is read in order, and before anything else of it. -/
  order : ∀ p messages es, c.wired.host.Holds p messages →
    c.heardFrom p es <+: messages ∨ messages <+: c.heardFrom p es
  /-- While the line reads, the first of it can be read. -/
  next : ∀ p message messages, c.wired.line.reading = true → c.wired.line.closing = false →
    c.wired.line.process = some p → c.wired.host.Holds p (message :: messages) →
      ∃ rest, c.wired.incoming? = some (p, message, rest)
  /-- A message that can be borne is heeded, whatever its handler does, and the line reads on. -/
  heeded : ∀ p message rest, c.wired.incoming? = some (p, message, rest) →
    Line.bears c.wired.isRunning message = true →
      (c.after (.move .read)).wired.line.reading = true ∧ ∃ w handed,
        Line.Heeds (fun m => Keyed.has m c.handlers) (c.wired.consumed p rest) message w handed ∧
          c.after (.move .read) = ({ c with wired := w } : Circuit).hand handed
  /-- An answer can be borne; the first to a pending request is kept for whoever asked. -/
  answered : ∀ p message rest i, c.wired.incoming? = some (p, message, rest) → message.IsAnswer (some i) →
    c.wired.books.IsOpen i →
      (c.after (.move .read)).wired.books = c.wired.books.settle i (.ok message) ∧
        Keyed.get? i (c.after (.move .read)).wired.line.settled = some (.ok message)
  /-- After one that cannot be borne nothing is read, and every pending request is lost. -/
  lost : ∀ p message rest, c.wired.incoming? = some (p, message, rest) →
    Line.bears c.wired.isRunning message = false →
      (c.after (.move .read)).wired.line.reading = false ∧
        (c.after (.move .read)).wired.books = c.wired.books.fail .lostConnection
  /-- Nothing else ends the reading, unless the line is being closed or its stream ends or cannot be read. -/
  ends : ∀ e, c.wired.line.reading = true → (c.after e).wired.line.reading = false → e = .move .read ∧
    (c.wired.Ends ∨ ∃ p message rest, c.wired.incoming? = some (p, message, rest) ∧
      Line.bears c.wired.isRunning message = false)
  /-- A line that stays with its process and bears its messages reads on until it has read all that stood complete. -/
  survives : ∀ p messages es, c.wired.line.reading = true → c.wired.host.Holds p messages →
    (∀ before later, es = before ++ later → (c.follow before).wired.line.process = some p ∧
      (c.follow before).wired.line.closing = false) →
    (∀ before later message rest, es = before ++ .move .read :: later →
      (c.follow before).wired.incoming? = some (p, message, rest) →
        Line.bears (c.follow before).wired.isRunning message = true) →
    (c.follow es).wired.line.reading = true ∨ messages <+: c.heardFrom p es

theorem attentive (c : Circuit) : Attentive c := by
  have hreading {p : Nat} {message : Json} {rest : List UInt8} (hin : c.wired.incoming? = some (p, message, rest)) :
      (c.wired.consumed p rest).line.reading = true := (Wired.eq_of_incoming hin).1
  constructor
  · intro p messages es h
    rcases heardFrom_follow h es with ⟨left, hleft, -⟩ | hprefix
    · exact .inl ⟨left, hleft⟩
    · exact .inr hprefix
  · intro p message messages hreading hclosing hp h
    exact Wired.incoming_of_holds hreading hclosing hp h
  · intro p message rest hin hbears
    rcases read_cases hin with ⟨-, w, handed, hheeds, heq⟩ | ⟨hnot, -⟩
    · refine ⟨?_, w, handed, hheeds, heq⟩
      rw [heq]
      exact (hheeds.onward.trans (onward_hand c w handed)).reading.trans (hreading hin)
    · rw [hbears] at hnot
      cases hnot
  · intro p message rest i hin hanswer hopen
    have hread : (c.after (.move .read)).wired =
        { c.wired.consumed p rest with line := c.wired.line.settle i (.ok message) } := by
      rw [after, apply, Wired.read_answer _ hin hanswer]
    have hbooks : (c.after (.move .read)).wired.books = c.wired.books.settle i (.ok message) := by
      rw [hread]
      exact Line.books_settle (c.wired.consumed p rest) i (.ok message)
    refine ⟨hbooks, ?_⟩
    show Keyed.get? i (c.after (.move .read)).wired.books.settled = _
    rw [hbooks, Books.settle_of_open hopen, Keyed.get?_append, Keyed.get?_eq_none.mpr hopen.2, Option.none_or]
    exact if_pos rfl
  · intro p message rest hin hnot
    rcases read_cases hin with ⟨hbears, -⟩ | ⟨-, cause, heq⟩
    · rw [hnot] at hbears
      cases hbears
    · rw [heq]
      refine ⟨Wired.reading_endReading _ _, ?_⟩
      rw [Wired.books_endReading, Wired.books_consumed]
  · intro e hreads hends
    exact ends_after hreads hends
  · intro p messages es hreads h hstays hbears
    exact reading_follow hreads h es hstays hbears

/-- The server asks for something and answers the request of a call, all at once, and exits before any of it is
read. -/
def bereft : List Event :=
  [.start .null .null false, .ask (.text "vscoq/check") .null .null,
    .act 0 [.emit (Frame.encode (.object [("id", .int 1), ("method", .text "client/registerCapability")])),
      .emit (Frame.encode (answering (.int 2) "nat")), .exit 0]]

/-- What of the answers that wait to be collected is none of the server's. -/
def losses (c : Circuit) : List (Nat × Failure) :=
  c.wired.line.settled.filterMap fun (i, r) => match r with
    | .error cause => some (i, cause)
    | .ok _ => none

theorem attentive_bereft :
    let c := mute.follow bereft
    (c.wired.line.reading, c.wired.isRunning, c.wired.line.pending) = (true, false, [1, 2]) ∧
      (c.wired.incoming?.map fun m => Line.bears false m.2.1) = some false ∧
      ((c.follow [.move .read]).wired.host.process? 0).map Server.output =
        some (Frame.encode (answering (.int 2) "nat")) ∧
      (c.follow [.move .read, .move .read]).wired.line.reading = false ∧
      ((c.follow [.move .read, .move .read]).losses.map fun m => (m.1, m.2.wording)) =
        [(1, Failure.lostConnection.wording), (2, Failure.lostConnection.wording)] ∧
      (c.heardFrom 0 [.move .read, .move .read]).length = 1 ∧ Attentive c := by
  refine ⟨?_, ?_, ?_, ?_, ?_, ?_, attentive _⟩
  all_goals decide +kernel

end Circuit
end CoqConsole
