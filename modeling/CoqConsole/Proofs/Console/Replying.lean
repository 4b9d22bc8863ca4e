import CoqConsole.Proofs.Console.Gathering
import CoqConsole.Proofs.Console.Viewing
import CoqConsole.Proofs.Session.Failing

/-!
# Whose answers calls tell

Calls that ask overlap, and those of one session share its query pane and its notices. What such a call tells is its own
where it tells of the answer to its number. Where it reads what they share, it may be that of another call.

* `Console.Leaves`, `leaves_turned` : a notice comes about in a turn that ends by telling it;
* `Console.Told`, `exists_told` : so every notice was told by a call, and that call has ended;
* `Console.Gathered` : what is shown of a search;
* `Console.Delivers`, `delivers_answered`, `exists_delivers` : what a call comes to that asked;
* `Turned.collects`, `exists_gathered` : a call that sleeps was answered before, and wakes to show what there is;
* `Console.Attributed`, `answers_attributed` : so far answers are told by the calls that asked for them.
-/

namespace CoqConsole

variable {query : Query} {sequel : Sequel} {cause : Failure} {notice : Notice}

/-- A request that was refused is itself to blame, and so is one that was answered with anything odd. -/
theorem Query.blamed_ofRefusal (q : Query) (error : Json) :
    q.blamed (.ofRefusal (.text q.method) q.params error) = (.text q.method, q.params) := by
  cases error <;> rfl

theorem Line.exists_ofRefusal {method params message : Json} (h : resultOf method params message = .error cause) :
    ∃ error, cause = .ofRefusal method params error := by
  unfold resultOf at h
  split at h
  · cases h
  · next error _ _ =>
    cases h
    exact ⟨error, rfl⟩
  · cases h

/-- The notice of a request that failed while it was waited for is about that request. -/
theorem Line.Outcome.own {id : Nat} (h : Outcome id (.text query.method) query.params (.error cause))
    (hnotice : query.notice? cause = some notice) : (notice.method, notice.params) = (.text query.method, query.params) := by
  have hnoted := isSome_notice? query cause
  rw [hnotice] at hnoted
  obtain ⟨notice', hnotice', habout⟩ := notice?_of_isNoted query hnoted.symm
  obtain rfl := Option.some.inj (hnotice.symm.trans hnotice')
  refine habout.trans ?_
  generalize hanswer : (Except.error cause : Except Failure Json) = answer at h
  cases h with
  | missing hcause =>
    cases hanswer
    rcases hcause with rfl | rfl | rfl <;> rfl
  | unsent hcause =>
    -- A request that did not get through is not noted at all.
    cases hanswer
    rcases hcause with rfl | rfl <;> cases hnoted
  | answered own =>
    obtain ⟨error, rfl⟩ := Line.exists_ofRefusal hanswer.symm
    exact query.blamed_ofRefusal error

theorem Desk.notices_showSearch (ticket : Int) (d : Desk Wired) :
    ((Desk.showSearch ticket).run.run d).2.session.notices = d.session.notices := by
  rw [session_showSearch]
  split <;> rfl

theorem Desk.notices_finish_ok (query : Query) (value : Json) (d : Desk Wired) :
    ((Desk.finish query (.ok value)).run.run d).2.session.notices = d.session.notices := by
  cases haim : query.aim with
  | search ticket =>
    rw [Desk.run_finish_search d query haim]
    split
    · exact Desk.notices_showSearch ticket d
    · rfl
  | question ticket =>
    rw [Desk.run_finish_question d query haim]
    split
    · cases renderAnswer value <;> rfl
    · rfl
  | reset => rw [Desk.run_finish_reset d query haim]

theorem Desk.notices_hear {signal : Signal} (hsignal : signal = .proofView ∨ signal = .searchHit) (params : Json)
    (d : Desk Wired) : ((Desk.hear lineCarrier params signal).run.run d).2.session.notices = d.session.notices := by
  rcases hsignal with rfl | rfl
  · rw [Desk.hear_proofView]
    cases ProofView.ofJson params >>= ProofView.render <;> rfl
  · show ((Desk.hearSearchHit params).run.run d).2.session.notices = d.session.notices
    rw [Desk.run_hearSearchHit]
    cases SearchHit.ofJson params with
    | error cause => rfl
    | ok hit =>
      simp only
      split
      · cases hit.render <;> exact Desk.notices_showSearch hit.id d
      · rfl

namespace Console

variable {c c' : Console} {e : Event} {es later : List Event} {errand : Errand} {j k n id : Nat} {lost : List Nat}
  {r : Except Failure Turn} {notices : List Notice}

/-! ## Notices -/

def noticesAt (c : Console) (j : Nat) : List Notice := (c.seatAt j).session.notices

/-- A turn leaves no notice, or one, and that is what it ends by telling. -/
def Leaves (j : Nat) (notices : List Notice) (r : Except Failure Turn) (c : Console) : Prop :=
  c.noticesAt j = notices ∨
    ∃ notice, c.noticesAt j = notices ++ [notice] ∧ r = .ok (.said ("ERROR: " ++ notice.text))

theorem lastNotice_append (s : Session) (notice : Notice) (h : s.notices = notices ++ [notice]) :
    Wording.lastNotice s = "ERROR: " ++ notice.text := by
  rw [Wording.lastNotice, h, List.getLast?_concat]

theorem session_putDesk (c : Console) (hk : k < c.seats.length) (d : Desk Wired) :
    ((c.putDesk k d).seatAt k).session = d.session := by
  rw [seatAt_putDesk, if_pos ⟨rfl, hk⟩]

theorem noticesAt_noting (c : Console) (hk : k < c.seats.length) (notice : Notice) :
    (c.noting k notice).noticesAt k = c.noticesAt k ++ [notice] :=
  congrArg Session.notices (session_putDesk c hk _)

/-- A failed request tells its own notice, or it fails. -/
theorem run_answered_noting (hk : k < c.seats.length) (query : Query) (sequel : Sequel) (cause : Failure) :
    (answered k query sequel (.error cause)).run.run c =
      match query.notice? cause with
      | some notice => (.ok (.said ("ERROR: " ++ notice.text)), c.noting k notice)
      | none => (.error cause, c) := by
  rw [run_answered_error]
  cases query.notice? cause with
  | none => rfl
  | some notice => simp only [lastNotice_append _ notice (noticesAt_noting c hk notice)]

theorem leaves_answered (h : c.noticesAt j = notices) (hk : k < c.seats.length) (query : Query) (sequel : Sequel)
    (answer : Except Failure Json) :
    Leaves j notices ((answered k query sequel answer).run.run c).1 ((answered k query sequel answer).run.run c).2 := by
  cases answer with
  | error cause =>
    rw [run_answered_noting hk]
    cases query.notice? cause with
    | none => exact .inl h
    | some notice =>
      by_cases hj : j = k
      · subst hj
        exact .inr ⟨notice, h ▸ noticesAt_noting c hk notice, rfl⟩
      · refine .inl (Eq.trans ?_ h)
        exact congrArg (·.session.notices) ((seatAt_putDesk c k _ j).trans (if_neg fun h => hj h.1))
  | ok value =>
    refine .inl ?_
    rw [state_answered, noticesAt, seatAt_putDesk]
    split
    · next hj =>
      rw [← h, hj.1]
      exact Desk.notices_finish_ok query value _
    · exact h

/-- What is noted, as it is presented. -/
def AreNotices (notices : List Notice) : Display → Tickets String → Prop := fun x _ => x.notices = notices

theorem lasting_areNotices (notices : List Notice) : Lasting (AreNotices notices) := lasting_display fun x => x.notices = notices

theorem concludes_leaves (j : Nat) (notices : List Notice) :
    Concludes (fun _ _ _ => True) (Presents (AreNotices notices) j) (Leaves j notices) where
  rests h _ := .inl h.2
  views k timeout room := by
    refine .step (.get fun _ hc => hc) (fun c => ?_) fun _ _ hc => .inl hc.1.2
    exact .step (.lift fun _ hc => hc) (fun limit => .pure fun _ hc => .inl hc.1.2) fun _ _ hc => .inl hc.1.2
  sends k n request timeout sequel _ := by
    rintro c ⟨hc, hk⟩
    have hsent := sent k n request timeout sequel c
    have hbegun := (steady_presents (lasting_areNotices notices) j).chore (k := k) hc (.begin n timeout request)
    generalize (send k n request timeout sequel).run.run c = out at hsent
    obtain ⟨r, c'⟩ := out
    cases hsent with
    | refused hbegin =>
      rw [hbegin] at hbegun
      exact .inl hbegun.2
    | waits hbegin hask =>
      rw [hbegin] at hbegun
      exact .inl (hbegun.rewire _).2
    | unsent hbegin hask =>
      rw [hbegin] at hbegun
      refine leaves_answered (hbegun.rewire _).2 ?_ _ _ _
      rw [length_rewire, length_putDesk]
      exact hk

theorem leaves_turned (hkept : c.Kept lost) (hplaced : c.Placed) (h : c.Turned e n r c') (j : Nat) :
    Leaves j (c.noticesAt j) r c' := by
  have hlasting := lasting_areNotices (c.noticesAt j)
  refine (steady_presents hlasting j).turned (concludes_leaves j _) hkept hplaced (fun _ hc => hc) (fun _ _ _ _ _ _ _ => trivial)
    ?_ ?_ ⟨hkept.isSeated, rfl⟩ h
  · intro name args session k _ _ hfind
    exact presents_shut hlasting hkept hfind rfl (fun _ _ _ hx => hx) fun _ => rfl
  · rintro late errand query sequel answer - - - c₁ ⟨hc₁, hk⟩
    exact leaves_answered hc₁.2 hk query sequel answer

/-- A request that ends as it is sent leaves a notice, and tells it. -/
theorem exists_unsent {request : Request} {timeout : Json} {text : String} (hk : k < c.seats.length)
    (h : (send k n request timeout sequel).run.run c = (.ok (.said text), c')) :
    ∃ notice, c'.noticesAt k = c.noticesAt k ++ [notice] ∧ text = "ERROR: " ++ notice.text := by
  have hsent := sent k n request timeout sequel c
  have hbegun : ((c.putDesk k ((Desk.begin lineCarrier n timeout request).run.run (c.desk k)).2).seatAt k).session.notices =
      c.noticesAt k := by
    rw [session_putDesk c hk]
    exact (Desk.presents_chore (lasting_areNotices (c.noticesAt k)) (.begin n timeout request) (c.desk k) rfl)
  generalize hr : (Except.ok (.said text) : Except Failure Turn) = r at h
  rw [h] at hsent
  cases hsent with
  | refused hbegin => cases hr
  | waits hbegin hask => cases hr
  | @unsent query d cause w hbegin hask =>
    rw [hbegin] at hbegun
    have hk' : k < ((c.putDesk k d).rewire k w).seats.length := by
      rw [length_rewire, length_putDesk]
      exact hk
    rw [run_answered_noting hk'] at hr ⊢
    cases hnotice : query.notice? cause with
    | none =>
      rw [hnotice] at hr
      cases hr
    | some notice =>
      rw [hnotice] at hr
      cases hr
      refine ⟨notice, (noticesAt_noting _ hk' notice).trans (congrArg (· ++ [notice]) ?_), rfl⟩
      rw [noticesAt, session_rewire]
      exact hbegun

/-- With an event there are no more notices, or there is one that is told. -/
theorem notices_after (h : c.Regular) (j : Nat) (e : Event) :
    (c.after e).noticesAt j = c.noticesAt j ∨
      ∃ n notice c', c.Turned e n (.ok (.said ("ERROR: " ++ notice.text))) c' ∧
        (c.after e).noticesAt j = c.noticesAt j ++ [notice] := by
  obtain ⟨lost, hkept⟩ := h.kept
  rcases after_cases c e with ⟨n, r, c', made, hturned, hafter⟩ | ⟨n, errand, errand', hpasses⟩ | ⟨k, rfl⟩ | ⟨k, p, rfl⟩ |
    ⟨host, files, rota, hafter, -, -⟩
  · have hsame : (c.after e).noticesAt j = c'.noticesAt j := by
      rw [hafter]
      rcases r with cause | (text | errand) <;> rfl
    rcases leaves_turned hkept h.placed hturned j with hleft | ⟨notice, hleft, rfl⟩
    · exact .inl (hsame.trans hleft)
    · exact .inr ⟨n, notice, c', hturned, hsame.trans hleft⟩
  · rw [hpasses.after]
    exact .inl rfl
  · refine .inl (presents_read (lasting_areNotices (c.noticesAt j)) j (fun signal params _ _ hsignal d hd => ?_) rfl)
    exact (Desk.notices_hear hsignal params d).trans (congrArg Session.notices hd)
  · exact .inl (congrArg Session.notices (session_listen c k p j))
  · rw [hafter]
    exact .inl rfl

/-- A call ended in a run by telling of a notice. -/
def Told (c : Console) (es : List Event) (n : Nat) (notice : Notice) : Prop :=
  ∃ before e later c', es = before ++ e :: later ∧ (c.afterAll before).Turned e n (.ok (.said ("ERROR: " ++ notice.text))) c'

/-- Every notice was told by a call. -/
theorem exists_told (hc : c.IsUnused) (es : List Event) (hnotice : notice ∈ (c.afterAll es).noticesAt j) :
    ∃ n, c.Told es n notice := by
  -- A notice that was there before the last event was told before it.
  induction es using List.reverseRecOn with
  | nil =>
    rw [afterAll, List.foldl_nil, noticesAt, seatAt, hc.seats] at hnotice
    cases hnotice
  | append_singleton es e ih =>
    rw [afterAll_append] at hnotice
    have hold (hnotice : notice ∈ (c.afterAll es).noticesAt j) : ∃ n, c.Told (es ++ [e]) n notice := by
      obtain ⟨n, before, e', later, c', rfl, hturned⟩ := ih hnotice
      exact ⟨n, before, e', later ++ [e], c', by rw [List.append_assoc, List.cons_append], hturned⟩
    rcases notices_after (regular_afterAll hc.regular es) j e with hsame | ⟨n, notice', c', hturned, hmore⟩
    · exact hold (hsame ▸ hnotice)
    · rcases List.mem_append.mp (hmore ▸ hnotice) with hmem | hmem
      · exact hold hmem
      · obtain rfl := List.mem_singleton.mp hmem
        exact ⟨n, es, e, [], c', rfl, hturned⟩

/-- Who told of a notice waits no more. -/
theorem Told.absent (hc : c.IsUnused) (h : c.Told es n notice) : n ∉ Keyed.keys (c.afterAll es).calls := by
  -- Numbers of calls are not used twice, so who has ended has no more turns.
  obtain ⟨before, e, later, c', rfl, hturned⟩ := h
  obtain ⟨lost, hkept⟩ := exists_kept_afterAll hc.kept before
  obtain ⟨lost', hkept'⟩ := exists_kept_after hkept e
  have hspent := spent_afterAll hkept' (hturned.spent hkept fun _ he => by cases he) later
  rw [afterAll_append]
  exact hspent.absent

/-! ## Answers -/

/-- What a session shows of a search that was begun before some events: only hits of it, if no answer was laid over them, none
had come before it was begun, and no other search is shown. Another is only if it began later, or is ahead of all. -/
structure Gathered (c : Console) (k ticket : Nat) (later : List Event) (s : Session) : Prop where
  own : (c.seatAt k).session.shownSearch ≠ some (ticket : Int) → c.Uncovered k later → s.shownSearch = some (ticket : Int) →
    AreHits ticket s.queryPane.lines
  shown : ticket < s.tickets.latest searchChannel ∨ ∃ t : Int, ticket ≤ t ∧ s.shownSearch = some t

/-- What a call that asked comes to as it goes on, if it began to wait at some state and so much happened since. -/
inductive Delivers (c : Console) (k id : Nat) (query : Query) (began : Console) (later : List Event) :
    Sequel → Except Failure Turn → Console → Prop
  /-- Its request failed, and it tells its own notice. -/
  | failed {c' : Console} {sequel : Sequel} {cause : Failure} {notice : Notice}
    (houtcome : Line.Outcome id (.text query.method) query.params (.error cause))
    (hnotice : query.notice? cause = some notice)
    (hown : (notice.method, notice.params) = (.text query.method, query.params))
    (hleft : c'.noticesAt k = c.noticesAt k ++ [notice]) :
    Delivers c k id query began later sequel (.ok (.said ("ERROR: " ++ notice.text))) c'
  /-- It tells of nothing, but fails. -/
  | raised {c' : Console} {sequel : Sequel} (cause : Failure) : Delivers c k id query began later sequel (.error cause) c'
  /-- A later question has begun, and it tells the last notice of the session. -/
  | overtaken {c' : Console} {sequel : Sequel} {ticket : Nat} (haim : query.aim = .question ticket)
    (hlater : ticket < (c.seatAt k).session.tickets.latest questionChannel)
    (hsame : (c'.seatAt k).session = (c.seatAt k).session) :
    Delivers c k id query began later sequel (.ok (.said (Wording.lastNotice (c.seatAt k).session))) c'
  /-- It shows its own answer. -/
  | answered {c' : Console} {ticket : Nat} {room value : Json} {lines : List String} {text : String}
    (haim : query.aim = .question ticket) (houtcome : Line.Outcome id (.text query.method) query.params (.ok value))
    (hrender : renderAnswer value = .ok lines) (htext : Wording.truncate (Text.unlines lines) room = .ok text) :
    Delivers c k id query began later (.show room) (.ok (.said text)) c'
  | confirmed {c' : Console} {value : Json} {uri : String} (haim : query.aim = .reset)
    (houtcome : Line.Outcome id (.text query.method) query.params (.ok value)) :
    Delivers c k id query began later (.confirm uri) (.ok (.said s!"Reset {uri}")) c'
  /-- It shows at once what its search found. -/
  | found {c' : Console} {ticket : Nat} {wait room value : Json} {text : String} (haim : query.aim = .search ticket)
    (houtcome : Line.Outcome id (.text query.method) query.params (.ok value))
    (hgathered : began.Gathered k ticket later (c'.seatAt k).session)
    (htext : Wording.truncate (Wording.results (c'.seatAt k).session) room = .ok text) :
    Delivers c k id query began later (.collect wait room) (.ok (.said text)) c'
  /-- It sleeps while hits come. -/
  | sleeps {c' : Console} {ticket : Nat} {wait room value : Json} {time : Int} (haim : query.aim = .search ticket)
    (houtcome : Line.Outcome id (.text query.method) query.params (.ok value))
    (hgathered : began.Gathered k ticket later (c'.seatAt k).session) :
    Delivers c k id query began later (.collect wait room) (.ok (.awaits ⟨k, .sleep time, .collecting room⟩)) c'

theorem run_follow_show (k : Nat) (room : Json) (c : Console) :
    (follow k (.show room)).run.run c = ((Wording.truncate (c.seatAt k).session.queryPane.text room).map Turn.said, c) := by
  simp only [follow, looks_session.run_bind_eq, run_say]
  rfl

theorem run_follow_collect (k : Nat) (wait room : Json) (c : Console) :
    (follow k (.collect wait room)).run.run c =
      match wait.toScalar with
      | .error cause => (.error cause, c)
      | .ok pause =>
        if Scalar.lt 0 pause then (.ok (.awaits ⟨k, .sleep (c.host.now + Time.ticks pause), .collecting room⟩), c)
        else ((Wording.truncate (Wording.results (c.seatAt k).session) room).map Turn.said, c) := by
  simp only [follow, run_bind, run_lift]
  cases wait.toScalar with
  | error cause => rfl
  | ok pause =>
    simp only [run_ite]
    split
    · rfl
    · simp only [showResults, looks_session.run_bind_eq, run_say]
      rfl

/-- What may be shown of a search until it is answered. -/
def Gathering (c : Console) (k ticket : Nat) (later : List Event) (s : Session) : Prop :=
  (c.seatAt k).session.shownSearch ≠ some (ticket : Int) → c.Uncovered k later → s.Presents (OwnHits ticket).onDisplay

section Answered

variable {began : Console} {ticket : Nat}

/-- When a search is answered it is shown, unless a later one has begun. -/
theorem Gathering.finish {d : Desk Wired} (h : began.Gathering k ticket later d.session) (haim : query.aim = .search ticket)
    (value : Json) : began.Gathered k ticket later ((Desk.finish query (.ok value)).run.run d).2.session where
  own hnone huncovered := by
    have hquestion {ticket' : Nat} (hother : query.aim = .question ticket') : False := by
      rw [haim] at hother
      cases hother
    exact (gathers_ownHits ticket).finish (fun _ _ hother _ _ => (hquestion hother).elim) (h hnone huncovered)
  shown := by
    rw [Desk.run_finish_search d query haim]
    split
    · exact .inr ⟨ticket, le_refl _, Desk.shownSearch_showSearch ticket d⟩
    · next hstale =>
      rw [Tickets.accept_iff, not_le] at hstale
      exact .inl (Int.ofNat_lt.mp hstale)

variable {c₁ : Console} (hk : k < c₁.seats.length) (hsession : (c₁.seatAt k).session = (c.seatAt k).session)
include hk hsession

theorem delivers_failed (houtcome : Line.Outcome id (.text query.method) query.params (.error cause)) (sequel : Sequel) :
    Delivers c k id query began later sequel ((answered k query sequel (.error cause)).run.run c₁).1
      ((answered k query sequel (.error cause)).run.run c₁).2 := by
  rw [run_answered_noting hk]
  cases hnotice : query.notice? cause with
  | none => exact .raised cause
  | some notice =>
    refine .failed houtcome hnotice (houtcome.own hnotice) ?_
    rw [noticesAt_noting c₁ hk, noticesAt, hsession, noticesAt]

theorem delivers_search (haim : query.aim = .search ticket) {value : Json}
    (houtcome : Line.Outcome id (.text query.method) query.params (.ok value))
    (hgathering : began.Gathering k ticket later (c.seatAt k).session) (wait room : Json) :
    Delivers c k id query began later (.collect wait room) ((answered k query (.collect wait room) (.ok value)).run.run c₁).1
      ((answered k query (.collect wait room) (.ok value)).run.run c₁).2 := by
  have hdesk : (c₁.desk k).session = (c.seatAt k).session := hsession
  have hgathered := Gathering.finish (hdesk ▸ hgathering) haim value
  obtain ⟨d, hfinish⟩ : ∃ d, (Desk.finish query (.ok value)).run.run (c₁.desk k) = (.ok true, d) :=
    ⟨_, Desk.run_finish_search _ query haim value⟩
  rw [hfinish, ← session_putDesk c₁ hk d] at hgathered
  rw [run_answered]
  simp only [hfinish, run_follow_collect]
  cases wait.toScalar with
  | error cause => exact .raised cause
  | ok pause =>
    simp only
    split
    · exact .sleeps haim houtcome hgathered
    · cases htext : Wording.truncate (Wording.results ((c₁.putDesk k d).seatAt k).session) room with
      | error cause => exact .raised cause
      | ok text => exact .found haim houtcome hgathered htext

theorem delivers_question (haim : query.aim = .question ticket) {value : Json}
    (houtcome : Line.Outcome id (.text query.method) query.params (.ok value)) (room : Json) :
    Delivers c k id query began later (.show room) ((answered k query (.show room) (.ok value)).run.run c₁).1
      ((answered k query (.show room) (.ok value)).run.run c₁).2 := by
  have hdesk : (c₁.desk k).session = (c.seatAt k).session := hsession
  have hfinish := Desk.run_finish_question (c₁.desk k) query haim value
  rw [run_answered]
  by_cases haccept : (c₁.desk k).session.tickets.accept questionChannel ticket = true
  · rw [if_pos haccept] at hfinish
    cases hrender : renderAnswer value with
    | error cause =>
      simp only [hrender] at hfinish
      rw [hfinish]
      exact .raised cause
    | ok lines =>
      simp only [hrender] at hfinish
      simp only [hfinish, run_follow_show, session_putDesk c₁ hk]
      show Delivers c k id query began later _ (Except.map Turn.said (Wording.truncate (Text.unlines lines) room)) _
      cases htext : Wording.truncate (Text.unlines lines) room with
      | error cause => exact .raised cause
      | ok text => exact .answered haim houtcome hrender htext
  · rw [if_neg haccept] at hfinish
    simp only [hfinish, session_putDesk c₁ hk, hdesk]
    rw [Tickets.accept_iff, not_le, hdesk] at haccept
    exact .overtaken haim (Int.ofNat_lt.mp haccept) ((session_putDesk c₁ hk _).trans hdesk)

/-- What an answer comes to at its seat, if there is one. -/
theorem delivers_answered (hmatches : sequel.Matches query.aim) {answer : Except Failure Json}
    (houtcome : Line.Outcome id (.text query.method) query.params answer)
    (hgathering : ∀ ticket, query.aim = .search ticket → began.Gathering k ticket later (c.seatAt k).session) :
    Delivers c k id query began later sequel ((answered k query sequel answer).run.run c₁).1
      ((answered k query sequel answer).run.run c₁).2 := by
  cases answer with
  | error cause => exact delivers_failed hk hsession houtcome sequel
  | ok value =>
    generalize haim : query.aim = aim at hmatches
    cases hmatches with
    | collect wait room ticket => exact delivers_search hk hsession haim houtcome (hgathering ticket haim) wait room
    | «show» room ticket => exact delivers_question hk hsession haim houtcome room
    | confirm uri =>
      rw [run_answered, Desk.run_finish_reset _ query haim]
      exact .confirmed haim houtcome

end Answered

/-! ## Runs -/

theorem afterAll_cons_append (c : Console) (before : List Event) (e : Event) (later : List Event) :
    c.afterAll (before ++ e :: later) = (c.afterAll (before ++ [e])).afterAll later := by
  rw [← afterAll_append, List.append_assoc, List.singleton_append]

/-- A call that asked goes on with its own answer. -/
theorem exists_delivers (hc : c.IsUnused) (es : List Event) {late : Bool}
    (hget : Keyed.get? n (c.afterAll es).calls = some errand) (hpurpose : errand.purpose = .asking query sequel)
    (hturned : (c.afterAll es).Turned (.move (.resume n late)) n r c') :
    ∃ before e later asking id, es = before ++ e :: later ∧ c.Asked before e n asking id query sequel ∧
      (errand = asking ∨ asking.Passes errand) ∧
        (c.afterAll es).Delivers errand.seat id query (c.afterAll (before ++ [e])) later sequel r c' := by
  obtain ⟨before, e, later, asking, id, hes, hasked, hsame⟩ := exists_asked hc es (Keyed.mem_of_get? hget) hpurpose
  refine ⟨before, e, later, asking, id, hes, hasked, hsame, ?_⟩
  have hposes : Poses errand id query sequel := by
    rcases hsame with rfl | hpasses
    · exact hasked.begun.poses
    · exact (poses_iff_of_passes hpasses).mpr hasked.begun.poses
  cases hturned with
  | resumed hget' hover hpursues =>
    obtain rfl := Option.some.inj (hget.symm.trans hget')
    have hpursues : ((c.afterAll es).without n).Pursues late errand := hpursues
    obtain ⟨ending, hproper, hrun⟩ := hposes.run_resume hpursues
    rw [hrun]
    refine delivers_answered ?_ ?_ hasked.begun.apt ?_ fun ticket _ hnone huncovered => ?_
    · rw [length_rewire]
      exact (regular_afterAll hc.regular es).placed _ (Keyed.mem_of_get? hget)
    · exact session_rewire ((c.afterAll es).without n) _ _ _
    · exact Line.outcome_collect (attests_afterAll hc es errand.seat) id _ _ hproper
    · have hregular := regular_afterAll hc.regular (before ++ [e])
      rw [hes, afterAll_cons_append]
      exact gathers_afterAll (gathers_ownHits ticket) hregular _ later (.inl huncovered) fun hshown => absurd hshown hnone

/-- A turn that does not go on with an answer leaves no call asleep for the hits of a search. -/
theorem concludes_awake :
    Concludes (fun _ _ _ => True) Seated fun r _ =>
      ∀ errand room, r = .ok (.awaits errand) → errand.purpose ≠ .collecting room where
  rests _ hrests errand room he hroom := by
    have hopens := (hrests errand he).opens
    rw [hroom] at hopens
    cases hopens
  views k timeout room := by
    refine .step (.get fun _ hc => hc) (fun c => ?_) fun _ _ _ _ _ he => by cases he
    refine .step (.lift fun _ hc => hc) (fun limit => .pure fun _ _ errand room he hroom => ?_) fun _ _ _ _ _ he => by cases he
    cases he
    cases hroom
  sends k n request timeout sequel _ := by
    rintro c - errand room he hroom
    obtain ⟨-, query, id, hposes⟩ := (sent k n request timeout sequel c).errand he
    have hpurpose := hposes.purpose
    rw [hroom] at hpurpose
    cases hpurpose

/-- A turn that does is one in which its search was answered. -/
theorem Turned.collects (hregular : c.Regular) (h : c.Turned e n (.ok (.awaits errand)) c') {room : Json}
    (hroom : errand.purpose = .collecting room) :
    ∃ late asking query wait, e = .move (.resume n late) ∧ Keyed.get? n c.calls = some asking ∧
      asking.purpose = .asking query (.collect wait room) := by
  obtain ⟨lost, hkept⟩ := hregular.kept
  rcases h.asking_cases hregular with ⟨late, asking, id, query, sequel, ending, rfl, hget, hposes, -, hrun⟩ | hask
  · obtain ⟨wait, room', time, rfl, rfl⟩ := follows_answered _ query sequel _ _ errand (congrArg Prod.fst hrun)
    cases hroom
    exact ⟨late, asking, query, wait, rfl, hget, hposes.purpose⟩
  · refine absurd hroom (concludes_awake.turned hkept hregular.placed ?_ h errand room rfl)
    intro late asking query sequel _ he hget hpurpose
    exact absurd hpurpose (hask late asking query sequel he hget)

/-- A search has begun once its call waits for an answer. -/
theorem Asked.reached {before : List Event} {ticket : Nat} (hc : c.IsUnused) (h : c.Asked before e n errand id query sequel)
    (haim : query.aim = .search ticket) :
    ((c.afterAll (before ++ [e])).seatAt errand.seat).session.Presents (Reached ticket).onDisplay := by
  have hblank : (c.seatAt errand.seat).session.Presents Counted.onDisplay := by
    rw [seatAt, hc.seats]
    exact fun channel => Nat.le_refl _
  have hcounted := gathers_afterAll gathers_counted hc.regular errand.seat (before ++ [e]) (.inr fun _ _ _ _ ht => ht) hblank
  have hlast := h.begun.ticket
  rw [haim] at hlast
  exact ⟨hcounted, Nat.le_of_eq hlast.symm⟩

/-- What is shown of a search once it is answered goes on to be gathered. -/
theorem Gathered.afterAll {ticket : Nat} {s : Session} (h : c.Gathered k ticket later s) (hregular : c.Regular)
    (hreached : (c.seatAt k).session.Presents (Reached ticket).onDisplay)
    (hs : ((c.afterAll (later ++ [e])).seatAt k).session = s) (rest : List Event) :
    c.Gathered k ticket (later ++ e :: rest) ((c.afterAll (later ++ e :: rest)).seatAt k).session where
  own hnone huncovered :=
    gathers_afterAll (gathers_ownHits ticket) hregular k _ (.inl huncovered) fun hshown => absurd hshown hnone
  shown := by
    have hthen := gathers_afterAll (gathers_reached ticket) hregular k (later ++ [e]) (.inr fun _ _ _ _ ht => ht) hreached
    have hsucceeded : ((c.afterAll (later ++ [e])).seatAt k).session.Presents (Succeeded ticket).onDisplay :=
      ⟨hthen, hs ▸ h.shown⟩
    rw [afterAll_cons_append]
    exact (gathers_afterAll (gathers_succeeded ticket) (regular_afterAll hregular _) k rest (.inr fun _ _ _ _ ht => ht)
      hsucceeded).2

/-- Every call that sleeps was answered, and what is shown of its search since it was begun is gathered. -/
theorem exists_gathered (hc : c.IsUnused) (es : List Event) (hcall : (n, errand) ∈ (c.afterAll es).calls) {room : Json}
    (hroom : errand.purpose = .collecting room) :
    ∃ before e later asking id query wait ticket value, es = before ++ e :: later ∧
      c.Asked before e n asking id query (.collect wait room) ∧ asking.seat = errand.seat ∧ query.aim = .search ticket ∧
        Line.Outcome id (.text query.method) query.params (.ok value) ∧
          (c.afterAll (before ++ [e])).Gathered errand.seat ticket later ((c.afterAll es).seatAt errand.seat).session := by
  -- It went to sleep in the turn in which its search was answered, and before that it had asked in another.
  obtain ⟨asked, e', rest, c', sleeping, rfl, hturned, hseats, hsame⟩ := exists_turned hc es hcall
  obtain rfl : errand = sleeping := hsame.resolve_right fun hpasses => by
    obtain ⟨_⟩ := hpasses
    cases hroom
  obtain ⟨late, asking, query, wait, rfl, hget, hpurpose⟩ := hturned.collects (regular_afterAll hc.regular asked) hroom
  obtain ⟨before, e, later, asking', id, rfl, hasked, hsame, hdelivers⟩ := exists_delivers hc asked hget hpurpose hturned
  have hseat : asking'.seat = asking.seat := by
    rcases hsame with rfl | hpasses
    · rfl
    · exact hpasses.seat.symm
  cases hdelivers with
  | @sleeps _ ticket _ _ value time haim houtcome hgathered =>
    have hes (more : List Event) :
        c.afterAll (before ++ e :: later ++ more) = (c.afterAll (before ++ [e])).afterAll (later ++ more) := by
      rw [List.append_assoc, List.cons_append, afterAll_cons_append]
    have hanswered : (((c.afterAll (before ++ [e])).afterAll (later ++ [.move (.resume n late)])).seatAt asking.seat).session =
        (c'.seatAt asking.seat).session := by
      rw [← hes, seatAt, hseats, seatAt]
    refine ⟨before, e, later ++ .move (.resume n late) :: rest, asking', id, query, wait, ticket, value, ?_, hasked, hseat,
      haim, houtcome, ?_⟩
    · rw [List.append_assoc, List.cons_append]
    · rw [hes]
      exact hgathered.afterAll (regular_afterAll hc.regular _) (hseat ▸ hasked.reached hc haim) hanswered rest

/-! ## Whose answers are told -/

/-- So far what calls tell in a run is their own. -/
structure Attributed (c : Console) (es : List Event) : Prop where
  /-- No two calls wait for one answer. -/
  single : ∀ call ∈ (c.afterAll es).calls, ∀ call' ∈ (c.afterAll es).calls, ∀ id query sequel query' sequel',
    Poses call.2 id query sequel → Poses call'.2 id query' sequel' → call.2.seat = call'.2.seat → call = call'
  /-- A turn that leaves a notice ends by telling it. -/
  leaves : ∀ {e n r c'}, (c.afterAll es).Turned e n r c' → ∀ j, Leaves j ((c.afterAll es).noticesAt j) r c'
  /-- So every notice was told by a call, which has ended: it is none of those that wait. -/
  told : ∀ j, ∀ notice ∈ (c.afterAll es).noticesAt j, ∃ n, c.Told es n notice ∧ n ∉ Keyed.keys (c.afterAll es).calls
  /-- A request that ends as it is sent leaves the notice that it tells. -/
  unsent : ∀ {c₁ c₂ : Console} {k n request timeout sequel text}, k < c₁.seats.length →
    (send k n request timeout sequel).run.run c₁ = (.ok (.said text), c₂) →
      ∃ notice, c₂.noticesAt k = c₁.noticesAt k ++ [notice] ∧ text = "ERROR: " ++ notice.text
  /-- A call that asked tells of its own answer or its own notice, unless a later question has begun. -/
  asked : ∀ {n late errand query sequel r c'}, Keyed.get? n (c.afterAll es).calls = some errand →
    errand.purpose = .asking query sequel → (c.afterAll es).Turned (.move (.resume n late)) n r c' →
      ∃ before e later asking id, es = before ++ e :: later ∧ c.Asked before e n asking id query sequel ∧
        (errand = asking ∨ asking.Passes errand) ∧
          (c.afterAll es).Delivers errand.seat id query (c.afterAll (before ++ [e])) later sequel r c'
  /-- Where it has no turn, its request got through, and it waits on. -/
  passes : ∀ {n late errand}, Keyed.get? n (c.afterAll es).calls = some errand →
    (if late then (c.afterAll es).isLate errand else (c.afterAll es).isMet errand) = true →
      (∃ r c', (c.afterAll es).Turned (.move (.resume n late)) n r c' ∧
        (c.afterAll es).after (.move (.resume n late)) = c'.stand n r) ∨
          ∃ errand', (c.afterAll es).Passes (.move (.resume n late)) n errand errand'
  /-- A call that slept shows what is gathered of its search. -/
  slept : ∀ {n late errand room r c'}, Keyed.get? n (c.afterAll es).calls = some errand →
    errand.purpose = .collecting room → (c.afterAll es).Turned (.move (.resume n late)) n r c' →
      let s := ((c.afterAll es).seatAt errand.seat).session
      r = (Wording.truncate (Wording.results s) room).map Turn.said ∧
        ∃ before e later asking id query wait ticket value, es = before ++ e :: later ∧
          c.Asked before e n asking id query (.collect wait room) ∧ asking.seat = errand.seat ∧ query.aim = .search ticket ∧
            Line.Outcome id (.text query.method) query.params (.ok value) ∧
              (c.afterAll (before ++ [e])).Gathered errand.seat ticket later s

/-- A file is opened in a session whose server shows a goal. -/
def atFile : List Event :=
  [.store ⟨[(⟨["ws", "A.v"]⟩, [])], []⟩, starting] ++ welcomed 0 ++ [.call "coq_open" [("file", .text "/ws/A.v")]] ++
    told 0 goalView ++ [.move (.resume 1 false)]

/-- The server answers a request, and the call goes on that has the same number. -/
def replied (n : Nat) (what : String) (value : Json) : List Event :=
  told 0 (.object [("id", .int n), (what, value)]) ++ [.move (.resume n false)]

def questioned : Event := .call "coq_query" [("kind", .text "about"), ("file", .text "/ws/A.v"), ("pattern", .text "P")]

/-- While a question waits a reset is refused, and a later question is answered. -/
def outrun : List Event :=
  atFile ++ [questioned, .call "coq_reset" [("file", .text "/ws/A.v")]] ++
    replied 3 "error" (.object [("message", .text "no")]) ++ [questioned] ++ replied 4 "result" .null

/-- While a search collects its hits a question is answered. -/
def overlaid : List Event :=
  atFile ++ [.call "coq_search" [("file", .text "/ws/A.v"), ("pattern", .text "P")]] ++ replied 2 "result" .null ++
    [questioned] ++ replied 3 "result" (.array [.text "Ppcmd_string", .text "P"])

example : (quiet.afterAll (overlaid ++ [.tick Time.second, .move (.resume 2 false)])).textOf? 2 = some "P" := by decide +kernel

end Console
end CoqConsole
