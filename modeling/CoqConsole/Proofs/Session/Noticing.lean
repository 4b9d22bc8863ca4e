import CoqConsole.Proofs.Line.Waiting
import CoqConsole.Proofs.Session.Failing

/-!
# Sessions whose requests have no result

A session makes its requests on a line. A request without a result was not sent, was not answered in time or at all, or
was refused. Two of these failures are no notice: the pipe broke before the request got through, or the server answered
with an error that is no object.

* `Wired.Breaks`, `ask_cases` : what making a request comes to;
* `Misses` : why a request has no result; `misses_collect` : so it is when its answer is collected;
* `Circuit.Pursued`, `pursued_follow` : a request from the beginning to its end, on any run;
* `Exchange.Notes`, `Exchange.Raises` : a request of a session ends with a notice, or it raises;
* `Circuit.Noticed`, `failures_noticed` : the requests of a session on a line, and the two exceptions.
-/

namespace CoqConsole

/-! ## Making requests -/

/-- The pipe to the server breaks as a message is flushed. -/
def Wired.Breaks (w : Wired) (message : Json) : Prop :=
  ∃ p, w.running? = some p ∧ (w.host.deliver p message).breaks p message = true

namespace Line

/-- There is no server, the pipe breaks, or the call waits with its request. -/
theorem ask_cases (method params : Json) {timeout : Json}
    (htimeout : ∀ now, ∃ limit, Limit.after now timeout = .ok limit) (w : Wired) :
    (w.running? = none ∧ ((ask method params timeout).run.run w).1 = .error .notRunning) ∨
      (w.Breaks (request w.line.nextId method params) ∧
        ((ask method params timeout).run.run w).1 = .error .brokenPipe) ∨
      ((∃ p, w.running? = some p) ∧ ¬ w.Breaks (request w.line.nextId method params) ∧
        ∃ wait, wait.ids = [w.line.nextId] ∧ wait.IsTimed ∧ ((ask method params timeout).run.run w).1 =
          .ok (.waiting ⟨wait, .request w.line.nextId method params⟩)) := by
  have htransmits := transmits w.line.nextId method params timeout (issued w)
  have hwhole {p : Nat} {host : Host} (hp : (issued w).running? = some p)
      (hhost : host = (issued w).host.deliver p (request w.line.nextId method params))
      (hwhole : host.breaks p (request w.line.nextId method params) = false) :
      ¬ w.Breaks (request w.line.nextId method params) := by
    rintro ⟨p', hp', hbreaks⟩
    obtain rfl := Option.some.inj (hp.symm.trans hp')
    subst hhost
    exact Bool.false_ne_true (hwhole.symm.trans hbreaks)
  simp only [ask, run_bind, run_post]
  generalize (transmit w.line.nextId method params timeout).run.run (issued w) = out at htransmits
  obtain ⟨r, w'⟩ := out
  cases htransmits with
  | silent hp => exact .inl ⟨hp, rfl⟩
  | broken hp hhost hbreaks => exact .inr (.inl ⟨⟨_, hp, hhost ▸ hbreaks⟩, rfl⟩)
  | @held _ q cleared _ hp hhost hok =>
    exact .inr (.inr ⟨⟨_, hp⟩, hwhole hp hhost hok, .flush _ q cleared timeout, rfl, htimeout, rfl⟩)
  | unlimited _ _ _ hlimit =>
    obtain ⟨limit, hok⟩ := htimeout _
    cases hok.symm.trans hlimit
  | @asked _ _ limit hp hhost hok _ =>
    exact .inr (.inr ⟨⟨_, hp⟩, hwhole hp hhost hok, .answer _ limit, rfl, trivial, rfl⟩)

end Line

/-! ## Requests without a result -/

inductive Misses (log : List (Nat × Json)) (broke : Prop) (i : Nat) (method params : Json) : Failure → Prop
  | unsent : Misses log broke i method params .notRunning
  /-- The pipe broke as it was flushed, or before it got through. -/
  | broken (hbroke : broke) : Misses log broke i method params .brokenPipe
  | late : Misses log broke i method params .timedOut
  | lost : Misses log broke i method params .lostConnection
  | stopped : Misses log broke i method params .stopped
  /-- The first answer to it holds an error. -/
  | refused {message code text : Json} (hfirst : Keyed.get? i log = some message)
      (hresult : Line.resultOf method params message = .error (.refused method params code text)) :
    Misses log broke i method params (.refused method params code text)
  /-- The first answer to it holds an error that is no object. -/
  | odd {message : Json} {cause : Failure} (hfirst : Keyed.get? i log = some message) (hodd : message.IsOddRefusal)
      (hresult : Line.resultOf method params message = .error cause) : Misses log broke i method params cause

/-- The failures that are no notice: a broken pipe, and an answer whose error is no object. -/
inductive Escapes (log : List (Nat × Json)) (broke : Prop) (i : Nat) (method params : Json) : Failure → Prop
  | broken (hbroke : broke) : Escapes log broke i method params .brokenPipe
  | odd {message : Json} {cause : Failure} (hfirst : Keyed.get? i log = some message) (hodd : message.IsOddRefusal)
      (hresult : Line.resultOf method params message = .error cause) : Escapes log broke i method params cause

section Misses

variable {log : List (Nat × Json)} {broke : Prop} {i : Nat} {method params : Json} {cause : Failure}

theorem Misses.append (h : Misses log broke i method params cause) (later : List (Nat × Json)) :
    Misses (log ++ later) broke i method params cause := by
  have hget {message : Json} (hfirst : Keyed.get? i log = some message) :
      Keyed.get? i (log ++ later) = some message := by
    rw [Keyed.get?_append, hfirst, Option.some_or]
  cases h with
  | unsent => exact .unsent
  | broken hbroke => exact .broken hbroke
  | late => exact .late
  | lost => exact .lost
  | stopped => exact .stopped
  | refused hfirst hresult => exact .refused (hget hfirst) hresult
  | odd hfirst hodd hresult => exact .odd (hget hfirst) hodd hresult

theorem Misses.imp {broke' : Prop} (h : Misses log broke i method params cause) (hbroke : broke → broke') :
    Misses log broke' i method params cause := by
  cases h with
  | unsent => exact .unsent
  | broken h => exact .broken (hbroke h)
  | late => exact .late
  | lost => exact .lost
  | stopped => exact .stopped
  | refused hfirst hresult => exact .refused hfirst hresult
  | odd hfirst hodd hresult => exact .odd hfirst hodd hresult

theorem Misses.escapes_iff (h : Misses log broke i method params cause) :
    Escapes log broke i method params cause ↔ cause.isNoted = false := by
  constructor
  · intro hescapes
    cases hescapes with
    | broken _ => rfl
    | odd _ hodd hresult =>
      obtain ⟨kind, hkind⟩ := Line.resultOf_of_odd method params hodd
      cases hresult.symm.trans hkind
      rfl
  · intro hraised
    cases h with
    | broken hbroke => exact .broken hbroke
    | odd hfirst hodd hresult => exact .odd hfirst hodd hresult
    | _ => cases hraised

/-- The failure of a request is about its method and its params. -/
theorem Misses.blamed {q : Query} (h : Misses log broke i (.text q.method) q.params cause) :
    q.blamed cause = (.text q.method, q.params) := by
  cases h with
  | odd _ hodd hresult =>
    obtain ⟨kind, hkind⟩ := Line.resultOf_of_odd (.text q.method) q.params hodd
    cases hresult.symm.trans hkind
    rfl
  | _ => rfl

end Misses

theorem misses_collect {w : Wired} {log : List (Nat × Json)} {broke : Prop}
    (htruthful : ∀ i cause, (i, .error cause) ∈ w.line.settled → cause = .lostConnection ∨ cause = .stopped)
    (htold : Told w.books log) {id : Nat} {method params : Json} {ending : Ending} {cause : Failure}
    (hbroken : ∀ cause, ending = .failed cause → cause = .brokenPipe ∧ broke)
    (h : ((Line.collect id method params ending).run.run w).1 = .error cause) :
    Misses log broke id method params cause := by
  have hcollects := Line.collects id method params ending w
  rw [h] at hcollects
  cases hcollects with
  | late => exact .late
  | unsent cause =>
    obtain ⟨rfl, hbroke⟩ := hbroken cause rfl
    exact .broken hbroke
  | unanswered => exact .lost
  | failed hkept =>
    rcases htruthful id cause hkept with rfl | rfl
    · exact .lost
    · exact .stopped
  | answered hkept hresult =>
    have hfirst := htold.first id _ (Keyed.mem_of_get? hkept)
    rcases Line.refused_or_odd hresult with ⟨code, text, rfl⟩ | hodd
    · exact .refused hfirst hresult
    · exact .odd hfirst hodd hresult

/-! ## From the beginning to the end -/

namespace Circuit

variable {c : Circuit} {log : List (Nat × Json)} {gone : List Nat} {broke : Prop} {n i : Nat} {method params : Json}

/-- With an event a call goes on whose request does not get through any more. -/
def Snaps (c : Circuit) (n i : Nat) (e : Event) : Prop :=
  ∃ p cleared timeout plan, (n, ⟨.flush i p cleared timeout, plan⟩) ∈ c.calls ∧
    c.wired.isLate (.flush i p cleared timeout) = true ∧ c.after e = c.resumed n ⟨.flush i p cleared timeout, plan⟩ true

/-- So it is with one of the events of a run. -/
def SnapsIn (c : Circuit) (n i : Nat) (es : List Event) : Prop :=
  ∃ before e later, es = before ++ e :: later ∧ (c.follow before).Snaps n i e

theorem SnapsIn.cons {e : Event} {es : List Event} (h : (c.after e).SnapsIn n i es) : c.SnapsIn n i (e :: es) := by
  obtain ⟨before, e', later, rfl, hsnaps⟩ := h
  exact ⟨e :: before, e', later, rfl, hsnaps⟩

/-- The call `n` asked with the request `i`, and waits with it or ended, for a reason if without a result. -/
def Pursued (c : Circuit) (log : List (Nat × Json)) (broke : Prop) (n i : Nat) (method params : Json) : Prop :=
  (∃ wait, wait.ids = [i] ∧ wait.IsTimed ∧ (n, ⟨wait, .request i method params⟩) ∈ c.calls) ∨
    ∃ r, (n, r) ∈ c.done ∧ ∀ cause, r = .error cause → Misses log broke i method params cause

theorem pursued_after (h : Sound c) (hwatched : Watched c gone) (htold : Told c.wired.books log)
    (hpursued : Pursued c log broke n i method params) (e : Event) :
    Pursued (c.after e) (log ++ (c.reply? e).toList) (broke ∨ c.Snaps n i e) n i method params := by
  have hprogress := progress_after h e
  rcases hpursued with ⟨wait, hids, htimed, hcall⟩ | ⟨r, hdone, hmisses⟩
  · rcases hprogress.calls _ hcall with hcall' | ⟨late, hover, heq⟩
    · exact .inl ⟨wait, hids, htimed, hcall'⟩
    · rcases Line.resume_cases late ⟨wait, .request i method params⟩ c.wired with
        ⟨ending, hends, hrun⟩ | ⟨id, p, cleared, timeout, limit, hwait, -, -, hrun⟩
      · rw [resumed_request n hrun] at heq
        refine .inr ⟨((Line.collect i method params ending).run.run c.wired).1, ?_, fun cause hcause => ?_⟩
        · rw [heq]
          exact List.mem_append_right _ (List.mem_singleton.mpr rfl)
        · refine (misses_collect hwatched.truthful htold (fun cause hfailed => ?_) hcause).append _
          -- The request takes a limit, so its wait can only have failed with the pipe.
          subst hfailed
          obtain ⟨rfl, rfl, id, p, cleared, timeout, rfl⟩ := hends.eq_brokenPipe htimed
          obtain rfl := List.singleton_inj.mp hids
          exact ⟨rfl, .inr ⟨p, cleared, timeout, _, hcall, hover, heq.trans (resumed_request n hrun).symm⟩⟩
      · obtain rfl : wait = .flush id p cleared timeout := hwait
        obtain rfl := List.singleton_inj.mp hids
        refine .inl ⟨.answer id limit, rfl, trivial, ?_⟩
        rw [heq, resumed_eq, hrun]
        exact List.mem_append_right _ (List.mem_singleton.mpr rfl)
  · exact .inr ⟨r, hprogress.done _ hdone, fun cause hcause => ((hmisses cause hcause).imp .inl).append _⟩

theorem pursued_follow (h : Sound c) (hwatched : Watched c gone) (htold : Told c.wired.books log)
    (hpursued : Pursued c log broke n i method params) (es : List Event) :
    Pursued (c.follow es) (log ++ c.replies es) (broke ∨ c.SnapsIn n i es) n i method params := by
  induction es generalizing c log gone broke with
  | nil =>
    rw [replies, List.append_nil]
    refine hpursued.imp_right fun h => ?_
    obtain ⟨r, hdone, hmisses⟩ := h
    exact ⟨r, hdone, fun cause hcause => (hmisses cause hcause).imp .inl⟩
  | cons e es ih =>
    have hrest := ih (progress_after h e).sound (watched_after h hwatched e) (told_after h htold e)
      (pursued_after h hwatched htold hpursued e)
    rw [replies, ← List.append_assoc]
    refine hrest.imp_right fun h => ?_
    obtain ⟨r, hdone, hmisses⟩ := h
    refine ⟨r, hdone, fun cause hcause => (hmisses cause hcause).imp ?_⟩
    rintro ((hbroke | hsnaps) | hsnaps)
    · exact .inl hbroke
    · exact .inr ⟨[], e, es, rfl, hsnaps⟩
    · exact .inr hsnaps.cons

theorem pursued_ask (log : List (Nat × Json)) {timeout : Json}
    (htimeout : ∀ now, ∃ limit, Limit.after now timeout = .ok limit) :
    Pursued (c.after (.ask method params timeout)) log (c.wired.Breaks (Line.request c.wired.line.nextId method params))
      c.made c.wired.line.nextId method params := by
  rw [after, call_eq]
  rcases Line.ask_cases method params htimeout c.wired with
    ⟨-, hrun⟩ | ⟨hbreaks, hrun⟩ | ⟨-, -, wait, hids, htimed, hrun⟩
  · rw [hrun]
    refine .inr ⟨_, List.mem_append_right _ (List.mem_singleton.mpr rfl), fun cause hcause => ?_⟩
    cases hcause
    exact .unsent
  · rw [hrun]
    refine .inr ⟨_, List.mem_append_right _ (List.mem_singleton.mpr rfl), fun cause hcause => ?_⟩
    cases hcause
    exact .broken hbreaks
  · rw [hrun]
    exact .inl ⟨wait, hids, htimed, List.mem_append_right _ (List.mem_singleton.mpr rfl)⟩

/-- The pipe breaks under the request that a call makes after some events, as it is written or while it is flushed. -/
def BreaksUnder (c : Circuit) (before : List Event) (method params timeout : Json) (later : List Event) : Prop :=
  (c.follow before).wired.Breaks (Line.request (c.follow before).wired.line.nextId method params) ∨
    ((c.follow before).after (.ask method params timeout)).SnapsIn (c.follow before).made
      (c.follow before).wired.line.nextId later

/-- The request of the call that asked at some point of a run, at its end. -/
theorem pursued_run (hc : c.IsFresh) (before : List Event) {timeout : Json}
    (htimeout : ∀ now, ∃ limit, Limit.after now timeout = .ok limit) (later : List Event) :
    Pursued (c.follow (before ++ .ask method params timeout :: later))
      (c.replies (before ++ .ask method params timeout :: later)) (c.BreaksUnder before method params timeout later)
      (c.follow before).made (c.follow before).wired.line.nextId method params := by
  have hsound : Sound (c.follow before) := sound_follow hc.sound before
  have hwatched : Watched (c.follow before) (c.lost before) := watched_follow hc.sound hc.watched before
  have htold : Told (c.follow before).wired.books (c.replies before) := told_follow hc.sound hc.told before
  let e : Event := .ask method params timeout
  have hask : Pursued ((c.follow before).after e) (c.replies before ++ ((c.follow before).reply? e).toList)
      ((c.follow before).wired.Breaks (Line.request (c.follow before).wired.line.nextId method params))
      (c.follow before).made (c.follow before).wired.line.nextId method params := pursued_ask _ htimeout
  rw [follow_append, replies_append, replies, ← List.append_assoc]
  exact pursued_follow (progress_after hsound e).sound (watched_after hsound hwatched e) (told_after hsound htold e)
    hask later

end Circuit

/-! ## The end of a request of a session -/

namespace Exchange

variable {L : Type}

/-- However it ends, the request is false, and all that it leaves is a notice on its method and its params. -/
structure Notes (x : Exchange L) (q : Query) (cause : Failure) : Prop where
  waiting : ∀ number, Keyed.get? number x.underWay = some q →
    ∃ notice, (notice.method, notice.params) = (.text q.method, q.params) ∧
      x.settle number (.error cause) =
        (some (.ok false), { x with desk := x.desk.noting notice, underWay := Keyed.erase number x.underWay })
  unsent : ∃ notice, (notice.method, notice.params) = (.text q.method, q.params) ∧
    x.refuse q cause = (.ok false, { x with desk := x.desk.noting notice })

/-- However it ends, the request fails with the same cause, and there is no notice. -/
structure Raises (x : Exchange L) (q : Query) (cause : Failure) : Prop where
  waiting : ∀ number, Keyed.get? number x.underWay = some q →
    x.settle number (.error cause) = (some (.error cause), { x with underWay := Keyed.erase number x.underWay })
  unsent : x.refuse q cause = (.error cause, x)

theorem notes_of_isNoted (x : Exchange L) {q : Query} {cause : Failure} (h : cause.isNoted = true)
    (hblamed : q.blamed cause = (.text q.method, q.params)) : x.Notes q cause := by
  obtain ⟨notice, habout, hrun⟩ : ∃ notice, (notice.method, notice.params) = (.text q.method, q.params) ∧
      (Desk.finish q (.error cause)).run.run x.desk = (.ok false, x.desk.noting notice) := by
    obtain ⟨notice, hnotice, habout⟩ := notice?_of_isNoted q h
    refine ⟨notice, habout.trans hblamed, ?_⟩
    rw [Desk.run_finish_error, hnotice]
    rfl
  refine ⟨fun number hq => ⟨notice, habout, ?_⟩, notice, habout, ?_⟩
  · rw [settle_eq hq, hrun]
  · rw [refuse_eq, hrun]

theorem raises_of_not_isNoted (x : Exchange L) (q : Query) {cause : Failure} (h : cause.isNoted = false) :
    x.Raises q cause := by
  have hnone : q.notice? cause = none := by
    rw [← Option.isNone_iff_eq_none, ← Option.not_isSome, isSome_notice?, h]
    rfl
  have hrun : (Desk.finish q (.error cause)).run.run x.desk = (.error cause, x.desk) := by
    rw [Desk.run_finish_error, hnone]
  refine ⟨fun number hq => ?_, ?_⟩
  · rw [settle_eq hq, hrun]
  · rw [refuse_eq, hrun]

end Exchange

/-! ## All requests of a session on a line -/

namespace Circuit

variable {c : Circuit}

/-- How the requests of a run fail that have no result. -/
structure Noticed (c : Circuit) (es : List Event) : Prop where
  /-- There is a reason. The request is false and leaves one notice, unless the reason is one of two that it raises. -/
  failed : ∀ before (q : Query) later cause, es = before ++ .ask (.text q.method) q.params q.timeout :: later →
    (∀ now, ∃ limit, Limit.after now q.timeout = .ok limit) →
    ((c.follow before).made, .error cause) ∈ (c.follow es).done →
      let id := (c.follow before).wired.line.nextId
      let broke := c.BreaksUnder before (.text q.method) q.params q.timeout later
      Misses (c.replies es) broke id (.text q.method) q.params cause ∧
        (¬ Escapes (c.replies es) broke id (.text q.method) q.params cause →
          ∀ (L : Type) (x : Exchange L), x.Notes q cause) ∧
        (Escapes (c.replies es) broke id (.text q.method) q.params cause →
          ∀ (L : Type) (x : Exchange L), x.Raises q cause)
  /-- A request to no server, and one on which the pipe breaks, ends so at once. -/
  unsent : ∀ before (q : Query) later, es = before ++ .ask (.text q.method) q.params q.timeout :: later →
    (∀ now, ∃ limit, Limit.after now q.timeout = .ok limit) →
      ((c.follow before).wired.running? = none → ((c.follow before).made, .error .notRunning) ∈ (c.follow es).done) ∧
      ((c.follow before).wired.Breaks
          (Line.request (c.follow before).wired.line.nextId (.text q.method) q.params) →
        ((c.follow before).made, .error .brokenPipe) ∈ (c.follow es).done)
  /-- So does one on which the pipe breaks while it is flushed, as soon as its call goes on. -/
  broken : ∀ n i p cleared timeout method params,
    (n, ⟨.flush i p cleared timeout, .request i method params⟩) ∈ (c.follow es).calls →
      (c.follow es).wired.isLate (.flush i p cleared timeout) = true →
        (n, .error .brokenPipe) ∈ ((c.follow es).after (.move (.resume n true))).done
  /-- A request whose answer holds an error that is no object ends with what is no notice. -/
  odd : ∀ n i limit method params message, (n, ⟨.answer i limit, .request i method params⟩) ∈ (c.follow es).calls →
    (c.follow es).wired.isMet (.answer i limit) = true →
    Keyed.get? i (c.follow es).wired.line.settled = some (.ok message) → message.IsOddRefusal →
      ∃ cause, (n, .error cause) ∈ ((c.follow es).after (.move (.resume n false))).done ∧ cause.isNoted = false

theorem failures_noticed (hc : c.IsFresh) (es : List Event) : Noticed c es where
  failed := by
    intro before q later cause hes htimeout hdone id broke
    subst hes
    have hsound := sound_follow hc.sound (before ++ .ask (.text q.method) q.params q.timeout :: later)
    have hmisses : Misses (c.replies (before ++ .ask (.text q.method) q.params q.timeout :: later)) broke id
        (.text q.method) q.params cause := by
      rcases pursued_run hc before htimeout later with ⟨wait, -, -, hcall⟩ | ⟨r, hr, hmisses⟩
      · exact absurd hcall (hsound.notMem_calls hdone _)
      · exact hmisses cause (hsound.eq_of_done hr hdone)
    refine ⟨hmisses, fun hnot L x => ?_, fun hescapes L x => ?_⟩
    · rw [hmisses.escapes_iff, Bool.not_eq_false] at hnot
      exact x.notes_of_isNoted hnot hmisses.blamed
    · exact x.raises_of_not_isNoted q (hmisses.escapes_iff.mp hescapes)
  unsent := by
    intro before q later hes htimeout
    subst hes
    have hsound := sound_follow hc.sound before
    have hstands {cause : Failure} (hrun : ((Line.ask (.text q.method) q.params q.timeout).run.run
        (c.follow before).wired).1 = .error cause) : ((c.follow before).made, .error cause) ∈
          (c.follow (before ++ .ask (.text q.method) q.params q.timeout :: later)).done := by
      rw [follow_append]
      refine mem_done_follow (progress_after hsound _).sound ?_ later
      rw [after, call_eq, hrun]
      exact List.mem_append_right _ (List.mem_singleton.mpr rfl)
    refine ⟨fun hrunning => ?_, fun hbreaks => ?_⟩
    · rcases Line.ask_cases (.text q.method) q.params htimeout (c.follow before).wired with
        ⟨-, hrun⟩ | ⟨⟨p, hp, -⟩, -⟩ | ⟨⟨p, hp⟩, -⟩
      · exact hstands hrun
      · cases hrunning.symm.trans hp
      · cases hrunning.symm.trans hp
    · rcases Line.ask_cases (.text q.method) q.params htimeout (c.follow before).wired with
        ⟨hnone, -⟩ | ⟨-, hrun⟩ | ⟨-, hnot, -⟩
      · obtain ⟨p, hp, -⟩ := hbreaks
        cases hnone.symm.trans hp
      · exact hstands hrun
      · exact absurd hbreaks hnot
  broken := by
    intro n i p cleared timeout method params hcall hlate
    have hs := (Keyed.get?_eq_some (sound_follow hc.sound es).calls_single).mpr hcall
    have hover : (c.follow es).wired.isOver true (.flush i p cleared timeout) = true := hlate
    rw [after, resume_of_over hs hover, @resumed_request _ i method params _ true (.failed .brokenPipe) n rfl]
    exact List.mem_append_right _ (List.mem_singleton.mpr rfl)
  odd := by
    intro n i limit method params message hcall hmet hanswer hodd
    have hs := (Keyed.get?_eq_some (sound_follow hc.sound es).calls_single).mpr hcall
    have hover : (c.follow es).wired.isOver false (.answer i limit) = true := hmet
    obtain ⟨kind, hkind⟩ := Line.resultOf_of_odd method params hodd
    refine ⟨.noOperation kind "get", ?_, rfl⟩
    rw [after, resume_of_over hs hover, @resumed_request _ i method params _ false .met n rfl]
    refine List.mem_append_right _ (List.mem_singleton.mpr (Prod.ext rfl ?_))
    rw [Line.collect_result, hanswer]
    exact hkind.symm

def raising (c : Circuit) : List Nat :=
  c.done.filterMap fun (n, r) => match r with
    | .error cause => if cause.isNoted then none else some n
    | .ok _ => none

/-- A line to a server whose pipe breaks at a check. -/
def brittle : Circuit :=
  let breaksOn (message : Json) := message.get? "method" == some (.text "vscoq/check")
  let behaviour : Behaviour := ⟨fun _ _ => [], true, .ends, breaksOn, false⟩
  { mute with wired := { mute.wired with host := { mute.wired.host with programs := fun _ => behaviour } } }

/-- A search is refused with an object, a check with a text. -/
def snubbed : List Event :=
  [.start .null .null false] ++ spoken (.object [("id", .int 1), ("result", .object [])]) ++
    [.move (.resume 0 false), .ask (.text "vscoq/search") .null .null, .ask (.text "vscoq/check") .null .null] ++
    spoken (.object [("id", .int 2), ("error", .object [("message", .text "no")])]) ++
    spoken (.object [("id", .int 3), ("error", .text "no")]) ++ [.move (.resume 1 false), .move (.resume 2 false)]

theorem failures_noticed_snubbed :
    Keyed.keys (mute.follow snubbed).done = [0, 1, 2] ∧ (mute.follow snubbed).raising = [2] ∧
      (brittle.follow snubbed).raising = [2] ∧ Noticed mute snubbed ∧ Noticed brittle snubbed :=
  ⟨by decide +kernel, by decide +kernel, by decide +kernel, failures_noticed ⟨rfl, rfl, rfl, rfl, rfl⟩ snubbed,
    failures_noticed ⟨rfl, rfl, rfl, rfl, rfl⟩ snubbed⟩

end Circuit
end CoqConsole
