import CoqConsole.Proofs.Session.History
import CoqConsole.Proofs.Session.Hits
import Mathlib.Data.List.Induction

/-!
# Questions that overtake one another

Of questions under way together only the last one is shown, whichever answers come and in which order.

* `Failure.isNoted` : the causes that become a notice;
* `Ruling` : how a question ends and what it leaves on the pane;
* `AskedAfter` : a later question has begun;
* `answered_ascending` : the questions whose answers are shown follow one another;
* `questions_judged` : in every run a question is true exactly if it was answered in time by something that can
  be shown; it is false if it was late or its failure is noted, and fails in all other cases.
-/

namespace CoqConsole

def Failure.isNoted : Failure → Bool
  | .refused .. | .timedOut | .notRunning | .lostConnection | .stopped | .unsupportedChoice _ | .unreachable _ => true
  | _ => false

theorem isSome_notice? (q : Query) (cause : Failure) : (q.notice? cause).isSome = cause.isNoted := by
  cases cause <;> rfl

/-! ## One question -/

/-- How a question ends, by its answer, and the pane that it leaves. -/
inductive Ruling (late : Prop) (pane : Pane) : Except Failure Json → Except Failure Bool → Pane → Prop
  | shown {value : Json} {lines : List String} (rendered : renderAnswer value = .ok lines) (last : ¬ late) :
    Ruling late pane (.ok value) (.ok true) (pane.write (.replace lines))
  | unreadable {value : Json} {cause : Failure} (rendered : renderAnswer value = .error cause) (last : ¬ late) :
    Ruling late pane (.ok value) (.error cause) pane
  | dropped {value : Json} (overtaken : late) : Ruling late pane (.ok value) (.ok false) pane
  | noted {cause : Failure} (h : cause.isNoted = true) : Ruling late pane (.error cause) (.ok false) pane
  | raised {cause : Failure} (h : cause.isNoted = false) : Ruling late pane (.error cause) (.error cause) pane

section Finish

variable {L : Type} (d : Desk L) {q : Query} {late : Prop}

theorem Desk.ruling_failure (cause : Failure) :
    Ruling late d.session.queryPane (.error cause) ((finish q (.error cause)).run.run d).1
      ((finish q (.error cause)).run.run d).2.session.queryPane := by
  rw [run_finish_error]
  have hnoted := isSome_notice? q cause
  cases hnotice : q.notice? cause with
  | some notice => exact .noted (by rw [← hnoted, hnotice]; rfl)
  | none => exact .raised (by rw [← hnoted, hnotice]; rfl)

theorem Desk.ruling_answer {t : Nat} (haim : q.aim = .question t)
    (hlate : d.session.tickets.accept questionChannel t = true ↔ ¬ late) (answer : Except Failure Json) :
    Ruling late d.session.queryPane answer ((finish q answer).run.run d).1
      ((finish q answer).run.run d).2.session.queryPane := by
  cases answer with
  | error cause => exact d.ruling_failure cause
  | ok value =>
    rw [run_finish_question d q haim]
    split
    · next accepted =>
      cases hrender : renderAnswer value with
      | ok lines => exact .shown hrender (hlate.mp accepted)
      | error cause => exact .unreadable hrender (hlate.mp accepted)
    · next accepted => exact .dropped (not_not.mp fun hnot => accepted (hlate.mpr hnot))

end Finish

/-! ## Questions one after another -/

def AskedAfter (t : Nat) (ts : List Moment) : Prop :=
  ∃ us vs u, ts = us ++ .begun (.question t) :: vs ∧ .begun (.question u) ∈ vs

theorem overtaken_iff_askedAfter {ts : List Moment} (h : Orderly ts) {t : Nat} (hbegun : .begun (.question t) ∈ ts) :
    Overtaken questionChannel t ts ↔ AskedAfter t ts := by
  have hpairwise := h.recorded.ascending
  constructor
  · rintro ⟨⟨_, u⟩, hu, rfl, hlt⟩
    obtain ⟨us, vs, rfl⟩ := List.append_of_mem hbegun
    rcases List.mem_append.mp (mem_taken_question.mp hu) with hmem | hmem
    · rw [taken_append, List.map_append, List.pairwise_append] at hpairwise
      have hle : u < t := hpairwise.2.2 u (List.mem_map.mpr ⟨_, mem_taken_question.mpr hmem, rfl⟩) t List.mem_cons_self
      omega
    · rcases List.mem_cons.mp hmem with heq | hmem
      · cases heq
        omega
      · exact ⟨us, vs, u, rfl, hmem⟩
  · rintro ⟨us, vs, u, rfl, hmem⟩
    refine ⟨(questionChannel, u), mem_taken_question.mpr (by simp [hmem]), rfl, ?_⟩
    rw [taken_append, List.map_append, List.pairwise_append] at hpairwise
    have hcons : taken (.begun (.question t) :: vs) = (questionChannel, t) :: taken vs := rfl
    rw [hcons, List.map_cons, List.pairwise_cons] at hpairwise
    exact Int.ofNat_lt.mpr (hpairwise.2.1.1 u (List.mem_map.mpr ⟨_, mem_taken_question.mpr hmem, rfl⟩))

def Writing.question? : Writing → Option Nat
  | .answer t _ => some t
  | _ => none

/-- The questions whose answers were shown, in order. -/
def answered (ts : List Moment) : List Nat := (written ts).filterMap Writing.question?

theorem answered_snoc {ts : List Moment} (h : Orderly ts) (u : Moment) :
    answered (ts ++ [u]) = answered ts ∨
      ∃ t value, u = .ended (.question t) (.ok value) ∧ ¬ Overtaken questionChannel t ts ∧
        answered (ts ++ [u]) = answered ts ++ [t] := by
  have hopening (s : Int) : ((Board.after ts).opening s).filterMap Writing.question? = [] := by
    rw [Board.opening]
    split <;> rfl
  have hanswered : answered (ts ++ [u]) = answered ts ++ ((Board.after ts).writings u).filterMap Writing.question? := by
    rw [answered, written_snoc, List.filterMap_append, answered]
  have hwrites := (Board.after ts).writes u
  generalize (Board.after ts).writings u = ws at hwrites hanswered
  cases hwrites with
  | nothing stale => exact .inl (by rw [hanswered, List.filterMap_nil, List.append_nil])
  | @opened _ s told accepted none => exact .inl (by rw [hanswered, hopening, List.append_nil])
  | @added params hit lines read accepted rendered =>
    refine .inl ?_
    rw [hanswered, List.filterMap_append, hopening]
    exact List.append_nil _
  | @answered t value lines accepted rendered =>
    exact .inr ⟨t, value, rfl, (h.accept_iff questionChannel t).mp accepted, hanswered⟩

theorem ended_of_answered {ts : List Moment} (h : Orderly ts) {t : Nat} (hmem : t ∈ answered ts) :
    ∃ value, .ended (.question t) (.ok value) ∈ ts := by
  induction h with
  | nil => cases hmem
  | @snoc ts u h due ih =>
    have hbefore : t ∈ answered ts → ∃ value, .ended (.question t) (.ok value) ∈ ts ++ [u] := fun hmem => by
      obtain ⟨value, hvalue⟩ := ih hmem
      exact ⟨value, List.mem_append_left _ hvalue⟩
    rcases answered_snoc h u with heq | ⟨t', value, rfl, -, heq⟩
    · exact hbefore (heq ▸ hmem)
    · rcases List.mem_append.mp (heq ▸ hmem) with hmem | hmem
      · exact hbefore hmem
      · rw [List.mem_singleton.mp hmem]
        exact ⟨value, by simp⟩

/-- Each question that is shown began after those that were shown before. -/
theorem answered_ascending {ts : List Moment} (h : Orderly ts) : (answered ts).Pairwise (· < ·) := by
  induction h with
  | nil => exact List.Pairwise.nil
  | @snoc ts u h due ih =>
    rcases answered_snoc h u with heq | ⟨t, value, rfl, hnot, heq⟩
    · rw [heq]
      exact ih
    · rw [heq, List.pairwise_append]
      refine ⟨ih, List.pairwise_singleton _ _, fun t' ht' b hb => ?_⟩
      rw [List.mem_singleton.mp hb]
      obtain ⟨value', hended⟩ := ended_of_answered h ht'
      obtain ⟨-, hunended⟩ := due (by simp)
      have hbegun := mem_taken_question.mpr (h.begun_of_ended hended (by simp))
      rcases Nat.lt_trichotomy t' t with hlt | rfl | hlt
      · exact hlt
      · exact absurd hended (hunended _)
      · exact absurd ⟨_, hbegun, rfl, Int.ofNat_lt.mpr hlt⟩ hnot

/-! ## Runs -/

/-- How a question ends: after the moments `ts`, in the moments `us` of one event. -/
structure Judged (ts us : List Moment) (t : Nat) (r : Except Failure Bool) (pane pane' : Pane) : Prop where
  /-- True exactly if it was answered by something that can be shown and none has begun after it. -/
  true_iff : r = .ok true ↔
    ∃ value lines, .ended (.question t) (.ok value) ∈ us ∧ renderAnswer value = .ok lines ∧ ¬ AskedAfter t ts
  /-- Then its answer is on the pane. -/
  shown : r = .ok true →
    ∃ value lines, .ended (.question t) (.ok value) ∈ us ∧ renderAnswer value = .ok lines ∧
      pane' = pane.write (.replace lines)
  /-- In all other cases the pane stays as it is. -/
  kept : r ≠ .ok true → pane' = pane
  /-- False exactly if it was overtaken, or failed for a cause that becomes a notice. -/
  false_iff : r = .ok false ↔
    (∃ value, .ended (.question t) (.ok value) ∈ us ∧ AskedAfter t ts) ∨
      ∃ cause, .ended (.question t) (.error cause) ∈ us ∧ cause.isNoted = true
  /-- A failure exactly if it was not sent, its answer cannot be shown, or its cause does not become a notice. -/
  error_iff : (∃ cause, r = .error cause) ↔
    (∀ a, .ended (.question t) a ∉ us) ∨
      (∃ value cause, .ended (.question t) (.ok value) ∈ us ∧ ¬ AskedAfter t ts ∧ renderAnswer value = .error cause) ∨
      ∃ cause, .ended (.question t) (.error cause) ∈ us ∧ cause.isNoted = false

theorem judged_unsent {ts us : List Moment} {t : Nat} {pane : Pane} (cause : Failure)
    (h : ∀ a, .ended (.question t) a ∉ us) : Judged ts us t (.error cause) pane pane where
  true_iff := by simp [h]
  shown := by simp
  kept := fun _ => rfl
  false_iff := by simp [h]
  error_iff := ⟨fun _ => .inl h, fun _ => ⟨cause, rfl⟩⟩

theorem judged_of_ruling {ts us : List Moment} {t : Nat} {r : Except Failure Bool} {pane pane' : Pane}
    {answer : Except Failure Json} (hanswer : ∀ a, .ended (.question t) a ∈ us ↔ a = answer)
    (h : Ruling (AskedAfter t ts) pane answer r pane') : Judged ts us t r pane pane' := by
  cases h with
  | @shown value lines rendered last => constructor <;> simp [hanswer, rendered, last]
  | @unreadable value cause rendered last => constructor <;> simp [hanswer, rendered, last]
  | @dropped value overtaken => constructor <;> simp [hanswer, overtaken]
  | @noted cause h => constructor <;> simp [hanswer, h]
  | @raised cause h => constructor <;> simp [hanswer, h]

namespace Exchange

variable {L : Type} (carrier : Carrier L)

/-- The event that ends a question judges it. -/
theorem Recorded.judged {x : Exchange L} {ts : List Moment} (h : x.Recorded ts) {e : Event L} {t : Nat}
    {r : Except Failure Bool} (hverdict : x.verdict? carrier e = some (.question t, r)) :
    Judged ts (x.moments carrier e) t r x.desk.session.queryPane (x.after carrier e).desk.session.queryPane := by
  cases e with
  | ask n timeout request =>
    obtain ⟨o, hbegin, haim⟩ := begin_eq carrier x n timeout request
    rw [verdict?, hbegin] at hverdict
    rw [moments, after, hbegin]
    cases o with
    | ok q => cases hverdict
    | error cause =>
      obtain ⟨aim, -, heq⟩ := Option.map_eq_some_iff.mp hverdict
      cases heq
      exact judged_unsent cause (by simp)
  | refuse n timeout request cause =>
    obtain ⟨o, hbegin, haim⟩ := begin_eq carrier x n timeout request
    rw [verdict?, hbegin] at hverdict
    rw [moments, after, hbegin]
    cases o with
    | error cause' =>
      obtain ⟨aim, -, heq⟩ := Option.map_eq_some_iff.mp hverdict
      cases heq
      exact judged_unsent cause' (by simp)
    | ok q =>
      obtain ⟨hq, rfl⟩ := Prod.mk.inj (Option.some.inj hverdict)
      have hanswer (a : Except Failure Json) :
          .ended (.question t) a ∈ (x.aim? request).toList.map Moment.begun ++ [Moment.ended q.aim (.error cause)] ↔
            a = .error cause := by simp [hq]
      exact judged_of_ruling hanswer ((x.desk.served (x.aim? request)).ruling_failure cause)
  | answer number answer =>
    rw [verdict?] at hverdict
    rw [moments, after]
    cases hq : Keyed.get? number x.underWay with
    | none => rw [hq] at hverdict; cases hverdict
    | some q =>
      rw [hq, settle_eq hq] at hverdict
      rw [settle_eq hq]
      obtain ⟨haim, rfl⟩ := Prod.mk.inj (Option.some.inj hverdict)
      have hbegun : .begun (.question t) ∈ ts := haim ▸ h.filed.begun _ (Keyed.mem_of_get? hq) (by rw [haim]; simp)
      have hlate : x.desk.session.tickets.accept questionChannel t = true ↔ ¬ AskedAfter t ts := by
        rw [h.tickets.accept_iff, overtaken_iff_askedAfter h.orderly hbegun]
      refine judged_of_ruling (fun a => ?_) (x.desk.ruling_answer haim hlate answer)
      simp [haim]
  | hit params => cases hverdict
  | elsewhere d => cases hverdict

/-- However questions overtake one another in a run, each is judged by the event that ends it, and those that
are shown began one after another. -/
theorem questions_judged {overrides : Json} {ns : String} {s : Session} (created : Session.create overrides ns = .ok s)
    (buffers : List (Buffer Reaction Mark)) (link : L) (es : List (Event L)) :
    (answered ((idle s buffers link).history carrier es)).Pairwise (· < ·) ∧
    ∀ fs e gs, es = fs ++ e :: gs → ∀ t r,
      ((idle s buffers link).follow carrier fs).verdict? carrier e = some (.question t, r) →
      Judged ((idle s buffers link).history carrier fs) (((idle s buffers link).follow carrier fs).moments carrier e) t r
        ((idle s buffers link).follow carrier fs).desk.session.queryPane
        ((idle s buffers link).follow carrier (fs ++ [e])).desk.session.queryPane := by
  have hrecorded (fs : List (Event L)) := recorded_follow carrier (Recorded.idle created buffers link) fs
  simp only [List.nil_append] at hrecorded
  refine ⟨answered_ascending (hrecorded es).orderly, fun fs e gs _ t r hverdict => ?_⟩
  have hjudged := (hrecorded fs).judged carrier hverdict
  rwa [follow_append]

/-- A check is sent, and another meets a closed pipe. -/
def checkTwice : List (Event Unit) :=
  [.ask 0 .null (.question (.text "check") (.text "nat") .cursor),
    .refuse 0 .null (.question (.text "check") (.text "bool") .cursor) .brokenPipe,
    .answer 0 (.ok (.text "nat : Set"))]

/-- The second check fails and is no notice; the first comes too late. -/
theorem questions_judged_checkTwice : ∃ s : Session, Session.create (.object []) "" = .ok s ∧
    Judged [.begun (.question 1)] [.begun (.question 2), .ended (.question 2) (.error .brokenPipe)]
      2 (.error .brokenPipe) (.named "coq-infos") (.named "coq-infos") ∧
    Judged [.begun (.question 1), .begun (.question 2), .ended (.question 2) (.error .brokenPipe)]
      [.ended (.question 1) (.ok (.text "nat : Set"))] 1 (.ok false) (.named "coq-infos") (.named "coq-infos") := by
  obtain ⟨s, created⟩ : ∃ s, Session.create (.object []) "" = .ok s := ⟨_, rfl⟩
  obtain ⟨-, hjudged⟩ := questions_judged silent created [.ofText "" "" ""] () checkTwice
  refine ⟨s, created, ?_, ?_⟩
  · have hsecond := hjudged [checkTwice[0]] checkTwice[1] [checkTwice[2]] rfl 2 (.error .brokenPipe)
    cases created
    exact hsecond rfl
  · have hfirst := hjudged [checkTwice[0], checkTwice[1]] checkTwice[2] [] rfl 1 (.ok false)
    cases created
    exact hfirst rfl

end Exchange
end CoqConsole
