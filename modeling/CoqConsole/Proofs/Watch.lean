import CoqConsole.Pane.Watch

/-!
# Readers of a pane

A reader that waits returns as soon as anything is written, or as its deadline comes. Whoever knew the pane as it was
returns with a revision that is new to him; whoever asked for one still ahead returns with the next, whatever it is.

* `Watch.Event`, `Watch.after`, `Watch.follow` : what can happen to a pane and its readers, in any order;
  `exists_follow_of_run` : time that goes on with writes due is such a run;
* `Event.ends?`, `waiter_after` : what an event does to a reader;
* `Watch.verdict?`, `verdict?_follow`, `idle_follow`, `late_follow` : what a run does to one;
* `Watch.Returns`, `readers_returned` : how a reader returns, among any others.
-/

namespace CoqConsole

theorem Limit.after_ofScalar (now : Int) (x : Scalar) : Limit.after now (.ofScalar x) = .ok (afterSeconds now x) := by
  cases x <;> rfl

theorem Limit.afterSeconds_ne_passed (now : Int) {x : Scalar} (h : x.le 0 = false) : afterSeconds now x ≠ .passed := by
  unfold afterSeconds
  rw [h, if_neg Bool.false_ne_true]
  split <;> nofun

namespace Watch

/-! ## Runs -/

/-- What can happen to a pane and its readers. -/
inductive Event
  | wait (since : Scalar) (timeout : Json)
  | write (change : PaneWrite)
  | pass (time : Int)

/-- The state after an event. Nobody comes to wait for a time that cannot be read. -/
def after (w : Watch) : Event → Watch
  | .wait since timeout =>
    match w.wait since timeout with
    | .ok w => w
    | .error _ => w
  | .write change => w.write change
  | .pass time => w.expire time

def follow (w : Watch) (es : List Event) : Watch := es.foldl after w

theorem follow_append (w : Watch) (es fs : List Event) : w.follow (es ++ fs) = (w.follow es).follow fs :=
  List.foldl_append

/-- Writes that are due, each at its time. -/
def moves (writes : List (Int × PaneWrite)) : List Event := writes.flatMap fun (t, change) => [.pass t, .write change]

theorem exists_follow_of_runWith (writes : List (Int × PaneWrite)) (w : Watch) :
    ∃ played left last, writes = played ++ left ∧ (last = [] ∨ ∃ time, last = [Event.pass time]) ∧
      runWith writes w = { w.follow (moves played ++ last) with due := left } := by
  induction writes generalizing w with
  | nil => exact ⟨[], [], [.pass w.lastDeadline], rfl, .inr ⟨_, rfl⟩, rfl⟩
  | cons first rest ih =>
    obtain ⟨t, change⟩ := first
    unfold runWith
    split
    · simp only
      split
      · obtain ⟨played, left, last, hrest, hlast, hrun⟩ := ih ((w.expire t).write change)
        exact ⟨(t, change) :: played, left, last, congrArg _ hrest, hlast, hrun⟩
      · exact ⟨[], (t, change) :: rest, [.pass w.lastDeadline], rfl, .inr ⟨_, rfl⟩, rfl⟩
    · exact ⟨[], (t, change) :: rest, [], rfl, .inl rfl, rfl⟩

/-- As time goes on until no reader waits, the writes that are due come first by time, and the rest stay due. -/
theorem exists_follow_of_run (w : Watch) :
    ∃ played left last, (w.due.mergeSort fun a b => decide (a.1 ≤ b.1)) = played ++ left ∧
      (last = [] ∨ ∃ time, last = [Event.pass time]) ∧
        w.run = { w.follow (moves played ++ last) with due := left } :=
  exists_follow_of_runWith _ w

/-! ## Readers -/

/-- How an event ends the wait of a reader with a deadline, if it does. -/
def Event.ends? (deadline : Option Int) (now : Int) : Event → Option Verdict
  | .wait .. => none
  | .write _ => some ⟨true, now⟩
  | .pass time => deadline.bind fun d => if d ≤ time then some ⟨false, d⟩ else none

variable {w : Watch} {n : Nat} {r : Waiter}

theorem waiter_after (h : w.waiters[n]? = some r) (e : Event) :
    (w.after e).waiters[n]? = some { r with verdict := r.verdict.or (e.ends? r.deadline w.now) } := by
  obtain ⟨since, deadline, verdict⟩ := r
  cases e with
  | wait since' timeout =>
    rw [Event.ends?, Option.or_none]
    cases henter : w.enter since' timeout with
    | error cause =>
      simp only [after, wait, henter]
      exact h
    | ok newcomer =>
      simp only [after, wait, henter]
      exact (List.getElem?_append_left (List.getElem?_eq_some_iff.mp h).1).trans h
  | write change =>
    show (w.waiters.map _)[n]? = _
    rw [List.getElem?_map, h]
    cases verdict <;> rfl
  | pass time =>
    show (w.waiters.map _)[n]? = _
    rw [List.getElem?_map, h]
    cases deadline with
    | none => simp [Waiter.expire, Event.ends?]
    | some d =>
      by_cases hd : d ≤ time <;> cases verdict <;> simp [Waiter.expire, Waiter.settle, Event.ends?, hd]

/-- How the wait of a reader ended, if it has. -/
def verdict? (w : Watch) (n : Nat) : Option Verdict := w.waiters[n]?.bind Waiter.verdict

theorem verdict?_eq (h : w.waiters[n]? = some r) : w.verdict? n = r.verdict := by rw [verdict?, h, Option.bind_some]

theorem revision_after (w : Watch) (e : Event) :
    (w.after e).pane.revision = w.pane.revision + if e matches .write _ then 1 else 0 := by
  cases e with
  | wait since timeout =>
    cases henter : w.enter since timeout <;> simp [after, wait, henter, Except.map]
  | write change => rfl
  | pass time => rfl

/-- What has ended stays so. -/
theorem waiter_follow_of_some (h : w.waiters[n]? = some r) {verdict : Verdict} (hr : r.verdict = some verdict)
    (es : List Event) : (w.follow es).waiters[n]? = some r := by
  induction es generalizing w with
  | nil => exact h
  | cons e es ih =>
    refine ih ?_
    rw [waiter_after h e, hr, Option.some_or, ← hr]

/-- While a reader waits nothing is written. -/
theorem idle_follow {since : Scalar} {deadline : Option Int} (h : w.waiters[n]? = some ⟨since, deadline, none⟩)
    {es : List Event} (hnone : (w.follow es).verdict? n = none) :
    (w.follow es).waiters[n]? = some ⟨since, deadline, none⟩ ∧ (w.follow es).pane.revision = w.pane.revision := by
  induction es generalizing w with
  | nil => exact ⟨h, rfl⟩
  | cons e es ih =>
    have hafter := waiter_after h e
    rw [Option.none_or] at hafter
    cases hends : e.ends? deadline w.now with
    | some verdict =>
      rw [hends] at hafter
      have hkept : (w.follow (e :: es)).verdict? n = some verdict := verdict?_eq (waiter_follow_of_some hafter rfl es)
      rw [hnone] at hkept
      cases hkept
    | none =>
      rw [hends] at hafter
      obtain ⟨hwaiter, hrevision⟩ := ih hafter hnone
      refine ⟨hwaiter, hrevision.trans ?_⟩
      rw [revision_after]
      cases e with
      | write change => cases hends
      | _ => rfl

theorem now_le_after (w : Watch) (e : Event) : w.now ≤ (w.after e).now := by
  cases e with
  | wait since timeout => cases henter : w.enter since timeout <;> simp [after, wait, henter, Except.map]
  | write change => exact Int.le_refl _
  | pass time => exact Int.le_max_left _ _

theorem now_le_follow (w : Watch) (es : List Event) : w.now ≤ (w.follow es).now := by
  induction es generalizing w with
  | nil => exact Int.le_refl _
  | cons e es ih => exact Int.le_trans (w.now_le_after e) (ih _)

/-- Whoever returns without news returns at its deadline. -/
theorem late_follow {since : Scalar} {deadline : Option Int} (h : w.waiters[n]? = some ⟨since, deadline, none⟩)
    {es : List Event} {t : Int} (hlate : (w.follow es).verdict? n = some ⟨false, t⟩) :
    deadline = some t ∧ t ≤ (w.follow es).now := by
  induction es generalizing w with
  | nil =>
    rw [follow, List.foldl_nil, verdict?_eq h] at hlate
    cases hlate
  | cons e es ih =>
    have hafter := waiter_after h e
    rw [Option.none_or] at hafter
    cases hends : e.ends? deadline w.now with
    | none =>
      rw [hends] at hafter
      exact ih hafter hlate
    | some verdict =>
      rw [hends] at hafter
      have hkept : (w.follow (e :: es)).verdict? n = some verdict := verdict?_eq (waiter_follow_of_some hafter rfl es)
      rw [hlate] at hkept
      cases hkept
      cases e with
      | wait => cases hends
      | write => cases hends
      | pass time =>
        obtain ⟨d, hd, hif⟩ := Option.bind_eq_some_iff.mp hends
        split at hif
        · next hle =>
          cases hif
          exact ⟨hd, Int.le_trans (Int.le_trans hle (Int.le_max_right _ _)) (now_le_follow (w.expire time) es)⟩
        · cases hif

/-! ## How a reader returns -/

section

variable (w : Watch) (since : Int) (timeout : Scalar)

/-- A reader comes, behind all the others. -/
def joined : Watch := w.after (.wait (.whole since) (.ofScalar timeout))

/-- How it has returned at the end of a run, if it has. -/
def returned? (es : List Event) : Option Verdict := ((w.joined since timeout).follow es).verdict? w.waiters.length

/-- Until when it waits, if not for ever. -/
def deadline? : Option Int := (Limit.afterSeconds w.now timeout).due?

/-- The reader as it comes: it has returned, or it waits. -/
def newcomer : Waiter :=
  if since < w.pane.revision then ⟨.whole since, none, some ⟨true, w.now⟩⟩
  else ⟨.whole since, w.deadline? timeout, none⟩

/-- How the reader returns along a run. -/
structure Returns (es : List Event) : Prop where
  /-- Past its revision it returns at once. -/
  entered : w.returned? since timeout [] = if since < w.pane.revision then some ⟨true, w.now⟩ else none
  /-- It returns once. -/
  once : ∀ before later verdict, es = before ++ later → w.returned? since timeout before = some verdict →
    w.returned? since timeout es = some verdict
  /-- Any write wakes it at that write. -/
  woken : ∀ before change later, es = before ++ .write change :: later → w.returned? since timeout before = none →
    w.returned? since timeout (before ++ [.write change]) =
      some ⟨true, ((w.joined since timeout).follow before).now⟩
  /-- Nothing else does. It is the first since the reader came, so the revision is past its own exactly if it was not
  behind it when the reader came. -/
  changed : ∀ before e later t, es = before ++ e :: later → w.returned? since timeout before = none →
    w.returned? since timeout (before ++ [e]) = some ⟨true, t⟩ →
      (∃ change, e = .write change) ∧
        ((w.joined since timeout).follow (before ++ [e])).pane.revision = w.pane.revision + 1 ∧
        (since < ((w.joined since timeout).follow (before ++ [e])).pane.revision ↔ since ≤ w.pane.revision)
  /-- Without news it returns only at its deadline, with nothing written from the call up to then. -/
  timedOut : ∀ t, w.returned? since timeout es = some ⟨false, t⟩ →
    w.deadline? timeout = some t ∧ ∀ before later, es = before ++ later →
      ((w.joined since timeout).follow before).now < t →
        ((w.joined since timeout).follow before).pane.revision = w.pane.revision ∧ w.pane.revision ≤ since
  /-- By its deadline it has returned. -/
  overdue : ∀ deadline time, w.deadline? timeout = some deadline → deadline ≤ time → .pass time ∈ es →
    w.returned? since timeout es ≠ none

end

variable {since : Int} {timeout : Scalar}

theorem enter_eq (w : Watch) (since : Int) {timeout : Scalar} (h : timeout.le 0 = false) :
    w.enter (.whole since) (.ofScalar timeout) = .ok (w.newcomer since timeout) := by
  have hlt : (Scalar.whole since).lt (.whole w.pane.revision) = decide (since < w.pane.revision) := by
    simp [Scalar.lt, Scalar.size, Size.lt]
  unfold enter newcomer deadline?
  rw [hlt, Limit.after_ofScalar]
  by_cases hpast : since < w.pane.revision
  · simp only [hpast, decide_true, if_true]
  · simp only [hpast, decide_false, Bool.false_eq_true, if_false]
    have hlimit := Limit.afterSeconds_ne_passed w.now h
    generalize Limit.afterSeconds w.now timeout = limit at hlimit
    cases limit with
    | passed => exact absurd rfl hlimit
    | _ => rfl

theorem joined_eq (w : Watch) (since : Int) {timeout : Scalar} (h : timeout.le 0 = false) :
    w.joined since timeout = { w with waiters := w.waiters ++ [w.newcomer since timeout] } := by
  simp only [joined, after, wait, enter_eq w since h]
  rfl

theorem waiter_joined (w : Watch) (since : Int) {timeout : Scalar} (h : timeout.le 0 = false) :
    (w.joined since timeout).waiters[w.waiters.length]? = some (w.newcomer since timeout) := by
  rw [joined_eq w since h]
  exact List.getElem?_concat_length

theorem returned?_once {before later : List Event} {verdict : Verdict}
    (h : w.returned? since timeout before = some verdict) : w.returned? since timeout (before ++ later) = some verdict := by
  obtain ⟨r, hr, hverdict⟩ := Option.bind_eq_some_iff.mp h
  rw [returned?, follow_append, verdict?_eq (waiter_follow_of_some hr hverdict later), hverdict]

/-- A reader that has not returned waits still, and nothing was written since it came. -/
theorem idle_of_returned? (h : timeout.le 0 = false) {before : List Event}
    (hnone : w.returned? since timeout before = none) :
    ((w.joined since timeout).follow before).waiters[w.waiters.length]? =
        some ⟨.whole since, w.deadline? timeout, none⟩ ∧
      ((w.joined since timeout).follow before).pane.revision = w.pane.revision ∧ w.pane.revision ≤ since := by
  have hjoined := waiter_joined w since h
  unfold newcomer at hjoined
  split at hjoined
  · have hkept := waiter_follow_of_some hjoined rfl before
    rw [returned?, verdict?_eq hkept] at hnone
    cases hnone
  · next hpast =>
    obtain ⟨hwaiter, hrevision⟩ := idle_follow hjoined hnone
    refine ⟨hwaiter, hrevision.trans ?_, Int.not_lt.mp hpast⟩
    rw [joined_eq w since h]

/-- What the next event does to a reader that has not returned. -/
theorem returned?_snoc (h : timeout.le 0 = false) {before : List Event}
    (hnone : w.returned? since timeout before = none) (e : Event) :
    w.returned? since timeout (before ++ [e]) =
      e.ends? (w.deadline? timeout) ((w.joined since timeout).follow before).now := by
  have hafter := waiter_after (idle_of_returned? h hnone).1 e
  rw [Option.none_or] at hafter
  rw [returned?, follow_append]
  exact verdict?_eq hafter

/-- However many readers there are and whatever happens in whatever order, each returns so. -/
theorem readers_returned (w : Watch) (since : Int) (timeout : Scalar) (h : timeout.le 0 = false) (es : List Event) :
    Returns w since timeout es where
  entered := by
    rw [returned?, show (w.joined since timeout).follow [] = w.joined since timeout from rfl,
      verdict?_eq (waiter_joined w since h)]
    unfold newcomer
    split <;> rfl
  once before later verdict hes hbefore := hes ▸ returned?_once hbefore
  woken before change later _ hnone := returned?_snoc h hnone _
  changed before e later t _ hnone htrue := by
    obtain ⟨-, hrevision, -⟩ := idle_of_returned? h hnone
    rw [returned?_snoc h hnone] at htrue
    cases e with
    | wait => cases htrue
    | pass time =>
      obtain ⟨d, -, hif⟩ := Option.bind_eq_some_iff.mp htrue
      split at hif <;> cases hif
    | write change =>
      have hnext : ((w.joined since timeout).follow (before ++ [.write change])).pane.revision = w.pane.revision + 1 := by
        rw [follow_append, ← hrevision]
        rfl
      refine ⟨⟨change, rfl⟩, hnext, ?_⟩
      rw [hnext]
      omega
  timedOut t hlate := by
    have hjoined := waiter_joined w since h
    unfold newcomer at hjoined
    split at hjoined
    · rw [returned?, verdict?_eq (waiter_follow_of_some hjoined rfl es)] at hlate
      cases hlate
    · refine ⟨(late_follow hjoined hlate).1, fun before later hes hearly => ?_⟩
      cases hbefore : w.returned? since timeout before with
      | none => exact (idle_of_returned? h hbefore).2
      | some verdict =>
        -- It would have returned by then, and with the same verdict.
        have honce : w.returned? since timeout es = some verdict := hes ▸ returned?_once hbefore
        rw [hlate] at honce
        cases honce
        exact absurd hearly (Int.not_lt.mpr (late_follow hjoined hbefore).2)
  overdue deadline time hdeadline hle hmem hnone := by
    obtain ⟨before, later, rfl⟩ := List.append_of_mem hmem
    cases hbefore : w.returned? since timeout before with
    | some verdict =>
      rw [returned?_once hbefore] at hnone
      cases hnone
    | none =>
      have hends := returned?_snoc h hbefore (.pass time)
      rw [hdeadline, Event.ends?, Option.bind_some, if_pos hle] at hends
      rw [List.append_cons, returned?_once hends] at hnone
      cases hnone

/-- A pane that nothing was written to, with a reader who knows so. -/
def blank : Watch := joined ⟨.named "query", 0, [], []⟩ 0 1

/-- A quarter of a second goes by, something is written, and two seconds go by. -/
def cleared : List Event := [.pass (Time.second / 4), .write .clear, .pass (2 * Time.second)]

/-- Whoever asks for more than five writes is told of them after the first. -/
theorem readers_returned_ahead :
    blank.returned? 5 1 cleared = some ⟨true, Time.second / 4⟩ ∧ ((blank.joined 5 1).follow cleared).pane.revision = 1 ∧
      ((blank.joined 5 1).follow cleared).verdict? 0 = some ⟨true, Time.second / 4⟩ ∧
      blank.returned? 5 1 [.pass (2 * Time.second)] = some ⟨false, Time.second⟩ ∧ Returns blank 5 1 cleared :=
  ⟨by decide +kernel, by decide +kernel, by decide +kernel, by decide +kernel,
    readers_returned blank 5 1 (by decide +kernel) cleared⟩

end Watch
end CoqConsole
