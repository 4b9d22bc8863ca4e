import CoqConsole.Proofs.Line.Winding
import CoqConsole.Proofs.Session.Overtaking

/-!
# What becomes of a request, and how a line counts

A line counts in an encoding that there is, whatever its server says. A request that takes a limit cannot be made for
two reasons only, and once it is made its failure is one that is noted, unless it was answered with an odd error.

* `Wired.Counts` : the encoding is one; `Counts.service`, `Counts.read`, `Counts.listen` : so it stays;
* `sends_ask` : what making a request comes to;
* `Line.Judges`, `judges_request` : what its answer comes to.
-/

namespace CoqConsole

/-- The encoding of the line is one that there is. -/
def Wired.Counts (w : Wired) : Prop := ∃ e, Encoding.ofJson w.line.encoding = .ok e

namespace Wired

variable {w w' : Wired}

theorem counts_fresh (host : Host) (workdir : String) (command : List String) (environment : Json) (offered : List Json) :
    Counts ⟨host, .fresh workdir command environment offered⟩ := ⟨.utf16, rfl⟩

namespace Counts

theorem of_eq (h : w.Counts) (hencoding : w'.line.encoding = w.line.encoding) : w'.Counts := by
  unfold Counts
  rw [hencoding]
  exact h

theorem service : Line.Service Counts where
  deliver h _ _ := h.of_eq rfl
  edit h hlearns := hlearns.encoding.elim (fun hsame => h.of_eq hsame) fun hnew => hnew
  host h _ _ := h.of_eq rfl
  spawned h _ _ _ := h.of_eq rfl
  released h _ _ := h.of_eq rfl

theorem endReading (h : w.Counts) (r : Option Record) : (w.endReading r).Counts := by
  obtain ⟨settled, hfail, -⟩ := Line.eq_of_failPending .lostConnection { w.line with reading := false }
  have hend : (w.endReading r).line.encoding = w.line.encoding := by
    rw [show (w.endReading r).line = w.line.endReading from rfl, Line.endReading, hfail]
  exact h.of_eq hend

theorem read {handles : String → Bool} {handed : Option (String × Json)} (h : w.Counts)
    (hread : w.read handles = some (w', handed)) : w'.Counts := by
  rcases read_ends_or_heeds hread with ⟨v, r, rfl | ⟨p, rest, rfl⟩, rfl⟩ | ⟨p, message, rest, hheeds⟩
  · exact h.endReading r
  · exact endReading (w := w.consumed p rest) (h.of_eq rfl) r
  · have hconsumed : (w.consumed p rest).Counts := h.of_eq rfl
    cases hheeds with
    | @answer id _ =>
      obtain ⟨settled, hsettle, -⟩ := Line.eq_of_settle id (.ok message) (w.consumed p rest).line
      refine hconsumed.of_eq ?_
      simp only [hsettle]
    | request _ _ _ _ => exact hconsumed.of_eq rfl
    | _ => exact hconsumed

theorem listen {p : Nat} (h : w.Counts) (hlisten : w.listen p = some w') : w'.Counts := by
  obtain ⟨host, listening, rfl, -⟩ := eq_of_listen hlisten
  exact h.of_eq rfl

end Counts
end Wired

namespace Line

variable {w : Wired}

/-! ## Requests -/

/-- A request that takes a limit ends with a wait that has one, if it is made. -/
theorem sends_ask (method params : Json) {timeout : Json} (htimeout : ∀ now, ∃ limit, Limit.after now timeout = .ok limit)
    (w : Wired) :
    Sends ((ask method params timeout).run.run w).1 ((ask method params timeout).run.run w).2 ∧
      (∀ value, ((ask method params timeout).run.run w).1 ≠ .ok (.finished value)) ∧
        ∀ s, ((ask method params timeout).run.run w).1 = .ok (.waiting s) → s.wait.IsTimed := by
  have hpost := sends_post method params htimeout w
  have htimed := fun id wait => @isTimed_post method params timeout htimeout id wait w
  simp only [ask, run_bind]
  generalize (post method params timeout).run.run w = out at hpost htimed
  obtain ⟨r, w'⟩ := out
  cases hpost with
  | made =>
    refine ⟨.made, fun _ h => (by cases h), fun s h => ?_⟩
    cases h
    exact htimed _ _ rfl
  | silent hrunning => exact ⟨.silent hrunning, fun _ h => (by cases h), fun _ h => (by cases h)⟩
  | broken hprocess hbreaks => exact ⟨.broken hprocess hbreaks, fun _ h => (by cases h), fun _ h => (by cases h)⟩

/-! ## Answers -/

/-- What a request comes to whose wait is over: its result, a failure that is noted, or one that is not, as the pipe broke
while it was flushed or the error that answers it is no object; or its answer is waited for from now on. -/
inductive Judges (w : Wired) (late : Bool) (wait : Wait) (plan : Plan) : Except Failure Standing → Prop
  | result {id : Nat} {method params message value : Json} (hid : id ∈ plan.ids)
      (hanswer : Keyed.get? id w.line.settled = some (.ok message)) (hresult : resultOf method params message = .ok value) :
    Judges w late wait plan (.ok (.finished value))
  | noted {cause : Failure} (hnoted : cause.isNoted = true) : Judges w late wait plan (.error cause)
  | odd {id : Nat} {method params message : Json} {cause : Failure} (hid : id ∈ plan.ids)
      (hanswer : Keyed.get? id w.line.settled = some (.ok message)) (hodd : message.IsOddRefusal)
      (hresult : resultOf method params message = .error cause) : Judges w late wait plan (.error cause)
  | broken {id p cleared : Nat} {timeout : Json} (hlate : late = true) (hwait : wait = .flush id p cleared timeout) :
    Judges w late wait plan (.error .brokenPipe)
  | flushed {id : Nat} {limit : Limit} : Judges w late wait plan (.ok (.waiting ⟨.answer id limit, plan⟩))

theorem judges_request (late : Bool) {wait : Wait} (htimed : wait.IsTimed) (id : Nat) (method params : Json)
    (htruthful : ∀ i cause, (i, .error cause) ∈ w.line.settled → cause = .lostConnection ∨ cause = .stopped) :
    Judges w late wait (.request id method params) ((resume late ⟨wait, .request id method params⟩).run.run w).1 := by
  rcases resume_cases late ⟨wait, .request id method params⟩ w with
    ⟨ending, hends, hrun⟩ | ⟨id', p, cleared, timeout, limit, -, -, -, hrun⟩
  · have hcollects := collects id method params ending w
    rw [hrun]
    simp only [conclude, run_bind]
    generalize (collect id method params ending).run.run w = out at hcollects
    obtain ⟨r, w'⟩ := out
    cases hcollects with
    | late => exact .noted rfl
    | unsent cause =>
      obtain ⟨rfl, hlate, id', p, cleared, timeout, hwait⟩ := hends.eq_brokenPipe htimed
      exact .broken hlate hwait
    | unanswered => exact .noted rfl
    | failed hkept =>
      refine .noted ?_
      rcases htruthful id _ hkept with rfl | rfl <;> rfl
    | answered hkept hresult =>
      cases r with
      | ok value => exact .result List.mem_cons_self hkept hresult
      | error cause =>
        rcases refused_or_odd hresult with ⟨code, text, rfl⟩ | hodd
        · exact .noted rfl
        · exact .odd List.mem_cons_self hkept hodd hresult
  · rw [hrun]
    exact .flushed

end Line
end CoqConsole
