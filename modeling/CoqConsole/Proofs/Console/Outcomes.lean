import CoqConsole.Proofs.Console.Speaking

/-!
# How calls end

Whatever happens with an event, every call waits or has ended once, if tools are called with the arguments that they
declare. A call that ends says a text, unless one of the hazards of its tool shows at its seat as it fails.

* `answers_parts`, `answers_asking`, `answers_resume` : how calls go on;
* `Console.Orderly` : what is noted of the calls; `goes_call`, `goes_resume`, `goes_after` : each event keeps it so, and
  ends one call at most;
* `Console.Stocked` : what is attached was noted as an open file;
* `Console.Replies` : how a call ends with an event.
-/

namespace CoqConsole.Console

variable {c : Console} {o : Outset} {k : Nat} {hazards : List Hazard}

/-! ## Calls that go on -/

theorem at_onLine (late : Bool) (wait : Awaiting) : Ensures (At k) (onLine k late wait) fun _ => At k := by
  cases wait with
  | line s => exact at_withLine (Wired.Counts.service.resume late s)
  | _ => exact .throw fun _ h => h

theorem vacant_onLine (late : Bool) (wait : Awaiting) : Ensures (Vacant k) (onLine k late wait) fun _ => Vacant k := by
  cases wait with
  | line s => exact vacant_withLine (Wired.Counts.service.resume late s)
  | _ => exact .throw fun _ h => h

/-- Where a call sets out as its wait is over. -/
def outset (c : Console) (e : Errand) : Outset :=
  match e.wait with
  | .line s => .wait (c.wired e.seat) s
  | _ => .start

/-- A call that goes on to stop a server fails if the server refuses in an odd way, or if it may not be killed. -/
theorem answers_parts {purpose : Purpose} {turn : Standing → Turn} (hcloses : Closes k purpose turn)
    (hfaces : ∀ s, Errand.Faces hazards ⟨k, .line s, purpose⟩) (hstops : Hazard.ofStopping ⊆ hazards) (h : c.At k)
    {s : Suspended} {late : Bool} (hresult : s.plan.result? = some .null) (hminds : (c.wired k).Minds s)
    (hover : (if late then c.isLate ⟨k, .line s, purpose⟩ else c.isMet ⟨k, .line s, purpose⟩) = true)
    {lost : List Nat} (hkept : c.Kept lost) :
    let out := (do return turn (← withLine k (Line.resume late s)) : Op Turn).run.run c
    (Outset.wait (c.wired k) s).Answers k hazards out.1 out.2 := by
  intro out
  have hcounts := Wired.Counts.service.resume late s (c.wired k) (h.desks k).counted
  have hparts := Line.parts_resume hresult hminds hover (hkept.isForgiven k)
  simp only [out, run_turn]
  generalize (Line.resume late s).run.run (c.wired k) = stood at hcounts hparts
  obtain ⟨standing, w⟩ := stood
  have hat : (c.rewire k w).At k := h.rewire hcounts
  cases hparts with
  | winds hwinds => exact answers_winds hcloses hfaces hat hwinds
  | refused _ hplan hanswer hodd hcause =>
    have hanswered : (Outset.wait (c.wired k) s).Answered _ := ⟨_, _, _, rfl, hplan ▸ List.mem_cons_self, hanswer⟩
    exact answers_error (.error hat (hstops List.mem_cons_self) ⟨_, _, _, hanswered, hodd, hcause⟩)
  | withstood _ _ hplan hp hrefuses _ =>
    have hwithstood : (Outset.wait (c.wired k) s).Withstood := ⟨_, _, _, _, rfl, hplan, hp, hrefuses⟩
    have hkill : .kill ∈ hazards := hstops (List.mem_cons_of_mem _ List.mem_cons_self)
    exact answers_error (.error hat hkill ⟨hwithstood, rfl⟩)

/-- What a request comes to whose wait is over. -/
theorem judges_onLine (late : Bool) {wait : Awaiting} (hplan : ∀ s, wait = .line s → s.plan.tends = false)
    (htimed : ∀ s, wait = .line s → s.wait.IsTimed) {lost : List Nat} (hkept : c.Kept lost) :
    (∃ s, wait = .line s ∧ Line.Judges (c.wired k) late s.wait s.plan ((onLine k late wait).run.run c).1) ∨
      ((onLine k late wait).run.run c).1 = .error .lostConnection := by
  cases wait with
  | line s =>
    obtain ⟨wait, plan⟩ := s
    cases plan with
    | request id method params =>
      refine .inl ⟨_, rfl, ?_⟩
      rw [onLine, run_withLine]
      exact Line.judges_request late (htimed _ rfl) id method params (hkept.truthful k)
    | _ => cases hplan _ rfl
  | _ => exact .inr rfl

/-- A request goes on: its answer is waited for or shown, or is one of those that can fail. -/
theorem answers_asking {query : Query} {sequel : Sequel} (hsequel : sequel.IsApt) (hpipe : .pipe ∈ hazards)
    (hsub : query.aim.hazards ⊆ hazards) (h : c.At k) {wait : Awaiting} (hplan : ∀ s, wait = .line s → s.plan.tends = false)
    (htimed : ∀ s, wait = .line s → s.wait.IsTimed) {late : Bool}
    (hover : (if late then c.isLate ⟨k, wait, .asking query sequel⟩ else c.isMet ⟨k, wait, .asking query sequel⟩) = true)
    {lost : List Nat} (hkept : c.Kept lost) :
    let out := (do pursue k query sequel (← attempt (onLine k late wait)) : Op Turn).run.run c
    (c.outset ⟨k, wait, .asking query sequel⟩).Answers k hazards out.1 out.2 := by
  intro out
  have hrefusal : .refusal ∈ hazards := hsub (by cases query.aim <;> exact List.mem_cons_self)
  have hjudges := judges_onLine (k := k) late hplan htimed hkept
  have hat := at_onLine late wait c h
  simp only [out, run_bind, run_attempt]
  generalize (onLine k late wait).run.run c = stood at hjudges hat
  obtain ⟨r, c'⟩ := stood
  refine answers_pursue hat hsequel hpipe hsub (fun s he => ?_) (fun cause he hnoted => ?_)
    fun ticket value cause haim he hrender => ?_
  · rcases hjudges with ⟨_, -, hjudges⟩ | hlost
    · subst he
      cases hjudges with
      | flushed => trivial
    · cases hlost.symm.trans he
  · rcases hjudges with ⟨s, rfl, hjudges⟩ | hlost
    · subst he
      cases hjudges with
      | noted hnoted' =>
        rw [hnoted'] at hnoted
        cases hnoted
      | odd hid hanswer hodd hresult =>
        exact ⟨.refusal, hrefusal, _, _, _, ⟨_, _, _, rfl, hid, hanswer⟩, hodd, hresult⟩
      | broken hlate hwait =>
        rw [if_pos hlate] at hover
        exact ⟨.pipe, hpipe, .inr ⟨_, _, _, _, _, _, rfl, hwait, hover⟩, rfl⟩
    · cases hlost.symm.trans he
      cases hnoted
  · rcases hjudges with ⟨s, rfl, hjudges⟩ | hlost
    · subst he
      cases hjudges with
      | result hid hanswer hresult =>
        refine ⟨.display, hsub ?_, _, _, _, _, ⟨_, _, _, rfl, hid, hanswer⟩, hresult, hrender⟩
        rw [haim]
        exact List.mem_cons_of_mem _ List.mem_cons_self
    · cases hlost.symm.trans he

/-- What is attached in registered sessions is noted as open, and sessions whose servers are being started hold nothing. -/
structure Stocked (c : Console) : Prop where
  shelves : ∀ entry ∈ c.registry, c.Shelves entry.2.seat
  vacant : ∀ call ∈ c.calls, ∀ name next, call.2.purpose = .starting name next →
    (c.desk call.2.seat).session.attachments = []

theorem answers_resume {e : Errand} (hfaces : e.Faces hazards) (h : c.At e.seat) (hfits : e.Fits)
    (hminds : ∀ s, e.wait = .line s → (c.wired e.seat).Minds s)
    (hvacant : ∀ name next, e.purpose = .starting name next → (c.desk e.seat).session.attachments = []) {late : Bool}
    (hover : (if late then c.isLate e else c.isMet e) = true) {lost : List Nat} (hkept : c.Kept lost) :
    (c.outset e).Answers e.seat hazards ((resume late e).run.run c).1 ((resume late e).run.run c).2 := by
  cases hfaces with
  | @starting k wait name next hnext hstops =>
    have hvacant : c.Vacant k := ⟨h, hvacant _ _ rfl⟩
    exact answers_attempt (vacant_onLine late wait) (fun r c h => answers_started h hnext hstops r) c hvacant
  | @failing k wait cause hstops =>
    cases hfits with
    | plain hplain => cases hplain.purpose
    | failing hresult =>
      exact answers_parts (closes_failed k cause) (fun _ => .failing hstops) hstops h hresult (hminds _ rfl) hover hkept
  | @stopping k wait name hstops =>
    cases hfits with
    | plain hplain => cases hplain.purpose
    | stopping hresult =>
      exact answers_parts (closes_stopped k name) (fun _ => .stopping hstops) hstops h hresult (hminds _ rfl) hover hkept
  | @settling k n wait v htask hsub => exact answers_perform n htask hsub c h
  | @viewing k wait timeout room => exact answers_session (fun _ => answers_say _ room) c h
  | @asking k wait query sequel hsequel hpipe hsub htimed =>
    exact answers_asking hsequel hpipe hsub h (hfits.isPlain rfl).plan htimed hover hkept
  | @collecting k wait room => exact answers_showResults room c h

/-! ## The ledger -/

theorem ledger_run {lost : List Nat} (h : c.Kept lost) (tool : Tool) :
    ((run tool).run.run c).2.ledger = c.ledger ∧ c.seats.length ≤ ((run tool).run.run c).2.seats.length := by
  rcases settles_run h tool with hsettles | ⟨_, _, _, _, _, hsettles⟩
  · exact ⟨hsettles.ledger, hsettles.seats⟩
  · exact ⟨hsettles.ledger, hsettles.seats⟩

theorem ledger_resume {lost : List Nat} (h : c.Kept lost) {n : Nat} {e : Errand} (hs : Keyed.get? n c.calls = some e)
    {late : Bool} (hover : (if late then c.isLate e else c.isMet e) = true) :
    let c₁ : Console := { c with calls := Keyed.erase n c.calls }
    ((resume late e).run.run c₁).2.ledger = c₁.ledger ∧ c₁.seats.length ≤ ((resume late e).run.run c₁).2.seats.length := by
  intro c₁
  have hcall : (n, e) ∈ c.calls := Keyed.mem_of_get? hs
  rcases settles_resume (h.forgo hs) (h.not_lost hcall) (h.fits _ hcall) (h.minds _ hcall) hover with hsettles |
    ⟨_, _, hsettles⟩
  · exact ⟨hsettles.ledger, hsettles.seats⟩
  · exact ⟨hsettles.ledger, hsettles.seats⟩

/-- All seats are in order. Every call waits or has ended, and those that wait have to fear no more than their tools. -/
structure Orderly (c : Console) (tools : List Tool) : Prop where
  sane : c.Sane
  made : c.made = tools.length
  noted : (Keyed.keys c.calls ++ Keyed.keys c.done).Perm (List.range c.made)
  faces : ∀ call ∈ c.calls, call.2.seat < c.seats.length ∧ ∃ tool, tools[call.1]? = some tool ∧ call.2.Faces tool.hazards

variable {c' : Console} {tool : Tool} {tools : List Tool} {lost : List Nat} {n : Nat}

theorem Orderly.of_abides (h : c.Orderly tools) (habides : c.Abides c') (hsane : c'.Sane) :
    c'.Orderly tools ∧ c'.done = c.done := by
  have hdone : c'.done = c.done := congrArg (·.2.2) habides.ledger
  refine ⟨⟨hsane, habides.made.trans h.made, ?_, ?_⟩, hdone⟩
  · rw [habides.calls, habides.made, hdone]
    exact h.noted
  · rw [habides.calls, habides.seats]
    exact h.faces

/-- What a call ends with, if it does. -/
def ending? : Except Failure Turn → Option (Except Failure Json)
  | .ok (.awaits _) => none
  | .ok (.said text) => some (.ok (.text text))
  | .error cause => some (.error cause)

theorem done_stand (c : Console) (n : Nat) (r : Except Failure Turn) :
    (c.stand n r).done = c.done ++ (ending? r).toList.map (n, ·) := by
  rcases r with cause | (text | e)
  · rfl
  · rfl
  · exact (List.append_nil _).symm

/-- A call that is not noted is noted, as one that waits or one that has ended. -/
theorem orderly_stand {r : Except Failure Turn} (hsane : c.Sane) (hmade : c.made = tools.length)
    (hnoted : (n :: (Keyed.keys c.calls ++ Keyed.keys c.done)).Perm (List.range c.made))
    (hfaces : ∀ call ∈ c.calls, call.2.seat < c.seats.length ∧
      ∃ tool, tools[call.1]? = some tool ∧ call.2.Faces tool.hazards)
    (htool : tools[n]? = some tool)
    (hwaits : ∀ e, r = .ok (.awaits e) → e.seat < c.seats.length ∧ e.Faces tool.hazards) :
    (c.stand n r).Orderly tools := by
  have hdone (r : Except Failure Json) :
      (Keyed.keys c.calls ++ Keyed.keys (c.done ++ [(n, r)])).Perm (List.range c.made) := by
    rw [Keyed.keys_append_single, ← List.append_assoc]
    exact (List.perm_append_singleton _ _).trans hnoted
  rcases r with cause | (text | e)
  · exact ⟨hsane.of_seats rfl rfl, hmade, hdone _, hfaces⟩
  · exact ⟨hsane.of_seats rfl rfl, hmade, hdone _, hfaces⟩
  · refine ⟨hsane.of_seats rfl rfl, hmade, ?_, List.forall_mem_append.mpr ⟨hfaces, List.forall_mem_singleton.mpr ?_⟩⟩
    · have hkeys : Keyed.keys (c.calls ++ [(n, e)]) = Keyed.keys c.calls ++ [n] := Keyed.keys_append_single _ _ _
      show (Keyed.keys (c.calls ++ [(n, e)]) ++ Keyed.keys c.done).Perm _
      rw [hkeys, List.append_assoc]
      exact List.perm_middle.trans hnoted
    · obtain ⟨hseat, hfaces⟩ := hwaits e rfl
      exact ⟨hseat, tool, htool, hfaces⟩

theorem shows_stand {hazard : Hazard} {cause : Failure} (h : o.Shows k c hazard cause) (made n : Nat)
    (r : Except Failure Turn) : o.Shows k ({ c with made }.stand n r) hazard cause := by
  rcases r with cause | (text | e) <;> cases hazard <;> exact h

/-! ## Events -/

namespace Event

/-- A tool that is called is called with the arguments that it declares. -/
def isDeclared : Event → Bool
  | .call name args => Tool.isDeclared name args
  | _ => true

/-- The tool that is called, if one is. -/
def tool? : Event → Option Tool
  | .call name args => (Tool.ofCall name args).toOption
  | _ => none

end Event

/-- How the call of a tool ends with an event: a text is said, or it fails for a hazard of the tool, which shows at a seat
that the tool is about, or, if the call had to wait, at the seat that it waits at. -/
inductive Replies (c : Console) (tool : Tool) : Event → Nat → Except Failure Json → Prop
  | said {e : Event} {n : Nat} (text : String) : Replies c tool e n (.ok (.text text))
  | fails {name : String} {args : Tool.Arguments} {k : Nat} {hazard : Hazard} {cause : Failure} (hat : c.IsAt tool k)
      (hhazard : hazard ∈ tool.hazards) (hshows : Outset.start.Shows k (c.after (.call name args)) hazard cause) :
    Replies c tool (.call name args) c.made (.error cause)
  | failsLater {n : Nat} {late : Bool} {e : Errand} {hazard : Hazard} {cause : Failure}
      (hcall : Keyed.get? n c.calls = some e) (hhazard : hazard ∈ tool.hazards)
      (hshows : (c.outset e).Shows e.seat (c.after (.move (.resume n late))) hazard cause) :
    Replies c tool (.move (.resume n late)) n (.error cause)

/-- With an event no call ends, or one does. -/
def Goes (c : Console) (tools : List Tool) (e : Event) (c' : Console) : Prop :=
  c'.Orderly tools ∧ (c'.done = c.done ∨
    ∃ n r tool, c'.done = c.done ++ [(n, r)] ∧ tools[n]? = some tool ∧ Replies c tool e n r)

/-- A turn has ended, and its call is noted. -/
theorem goes_stand {e : Event} {r : Except Failure Turn} {made : Nat} (hdone : c'.done = c.done)
    (horderly : (stand { c' with made } n r).Orderly tools) (htool : tools[n]? = some tool)
    (hfails : ∀ cause, r = .error cause → Replies c tool e n (.error cause)) :
    c.Goes tools e (stand { c' with made } n r) := by
  refine ⟨horderly, ?_⟩
  rw [done_stand, show ({ c' with made } : Console).done = c.done from hdone]
  rcases r with cause | (text | e)
  · exact .inr ⟨n, _, tool, rfl, htool, hfails cause rfl⟩
  · exact .inr ⟨n, _, tool, rfl, htool, .said text⟩
  · exact .inl (List.append_nil _)

theorem after_call {name : String} {args : Tool.Arguments} (hcall : Tool.ofCall name args = .ok tool) :
    c.after (.call name args) =
      stand { ((run tool).run.run c).2 with made := c.made + 1 } c.made ((run tool).run.run c).1 := by
  simp only [after, call, hcall]
  rcases (run tool).run.run c with ⟨r, c'⟩
  rfl

theorem goes_call (h : c.Orderly tools) (hkept : c.Kept lost) (hstocked : c.Stocked) {name : String} {args : Tool.Arguments}
    (hcall : Tool.ofCall name args = .ok tool) (htool : tool.IsApt) :
    c.Goes (tools ++ [tool]) (.call name args) (c.after (.call name args)) := by
  obtain ⟨hledger, hseats⟩ := ledger_run hkept tool
  have hends := ends_run h.sane hstocked.shelves htool c rfl
  have hafter := after_call (c := c) hcall
  have hreplies (cause : Failure) (he : ((run tool).run.run c).1 = .error cause) :
      Replies c tool (.call name args) c.made (.error cause) := by
    obtain ⟨k, hat, hazard, hhazard, hshows⟩ := hends.fails cause he
    refine .fails hat hhazard ?_
    rw [hafter]
    exact shows_stand hshows _ _ _
  rw [hafter]
  generalize (run tool).run.run c = out at hledger hseats hends hreplies
  obtain ⟨r, c'⟩ := out
  have hcalls : c'.calls = c.calls := congrArg Prod.fst hledger
  have hdone : c'.done = c.done := congrArg (·.2.2) hledger
  have hlength : (tools ++ [tool])[c.made]? = some tool := by
    rw [h.made, List.getElem?_append_right (Nat.le_refl _), Nat.sub_self]
    rfl
  refine goes_stand hdone (orderly_stand ?_ ?_ ?_ ?_ hlength hends.waits) hlength hreplies
  · exact hends.sane.of_seats rfl rfl
  · show c.made + 1 = _
    rw [h.made, List.length_append]
    rfl
  · show (c.made :: (Keyed.keys c'.calls ++ Keyed.keys c'.done)).Perm (List.range (c.made + 1))
    rw [hcalls, hdone, List.range_succ]
    exact (h.noted.cons _).trans (List.perm_append_singleton _ _).symm
  · show ∀ call ∈ c'.calls, _
    rw [hcalls]
    intro call hmem
    obtain ⟨hseat, tool', htool', hfaces⟩ := h.faces call hmem
    refine ⟨Nat.lt_of_lt_of_le hseat hseats, tool', ?_, hfaces⟩
    rw [List.getElem?_append_left (List.getElem?_eq_some_iff.mp htool').1]
    exact htool'

/-- A call goes on if its wait is over; else nothing happens. -/
theorem after_resume_cases (c : Console) (n : Nat) (late : Bool) :
    c.after (.move (.resume n late)) = c ∨
      ∃ e, Keyed.get? n c.calls = some e ∧ (if late then c.isLate e else c.isMet e) = true ∧
        let c₁ : Console := { c with calls := Keyed.erase n c.calls }
        c.after (.move (.resume n late)) = ((resume late e).run.run c₁).2.stand n ((resume late e).run.run c₁).1 := by
  cases hs : Keyed.get? n c.calls with
  | none => exact .inl (by simp only [after, apply, hs])
  | some e =>
    by_cases hover : (if late = true then c.isLate e else c.isMet e) = true
    · refine .inr ⟨e, rfl, hover, ?_⟩
      simp only [after, apply, hs, if_pos hover]
      rcases (resume late e).run.run { c with calls := Keyed.erase n c.calls } with ⟨r, c'⟩
      rfl
    · exact .inl (by simp only [after, apply, hs, if_neg hover])

theorem goes_resume (h : c.Orderly tools) (hkept : c.Kept lost) (hstocked : c.Stocked) (n : Nat) (late : Bool) :
    c.Goes tools (.move (.resume n late)) (c.after (.move (.resume n late))) := by
  rcases after_resume_cases c n late with hafter | ⟨e, hs, hover, hafter⟩
  · rw [hafter]
    exact ⟨h, .inl rfl⟩
  · let c₁ : Console := { c with calls := Keyed.erase n c.calls }
    have hcall : (n, e) ∈ c.calls := Keyed.mem_of_get? hs
    obtain ⟨hseat, tool, htool, hfaces⟩ := h.faces _ hcall
    have hat : c₁.At e.seat := ⟨h.sane.of_seats rfl rfl, hseat⟩
    have hanswers := answers_resume hfaces hat (hkept.fits _ hcall) (hkept.minds _ hcall) (hstocked.vacant _ hcall) hover
      (hkept.forgo hs)
    have hledger : ((resume late e).run.run c₁).2.ledger = c₁.ledger ∧
        c₁.seats.length ≤ ((resume late e).run.run c₁).2.seats.length := ledger_resume hkept hs hover
    have hreplies (cause : Failure) (he : ((resume late e).run.run c₁).1 = .error cause) :
        Replies c tool (.move (.resume n late)) n (.error cause) := by
      obtain ⟨hazard, hhazard, hshows⟩ := hanswers.1.2 cause he
      refine .failsLater hs hhazard ?_
      rw [hafter]
      exact shows_stand hshows _ _ _
    rw [hafter]
    generalize (resume late e).run.run c₁ = out at hanswers hledger hreplies
    obtain ⟨r, c'⟩ := out
    obtain ⟨hledger, hseats⟩ := hledger
    have hcalls : c'.calls = Keyed.erase n c.calls := congrArg Prod.fst hledger
    have hmade : c'.made = c.made := congrArg (·.2.1) hledger
    have hdone : c'.done = c.done := congrArg (·.2.2) hledger
    refine goes_stand hdone ?_ htool hreplies
    refine orderly_stand hanswers.1.1.toSane (hmade.trans h.made) ?_ ?_ htool fun e' he => ?_
    · have hperm : (n :: Keyed.keys (Keyed.erase n c.calls)).Perm (Keyed.keys c.calls) :=
        (Keyed.perm_erase hkept.calls_single hs).map Prod.fst
      rw [hcalls, hdone, hmade]
      exact (hperm.append_right _).trans h.noted
    · rw [hcalls]
      intro call hmem
      obtain ⟨hseat, hfaces⟩ := h.faces call (Keyed.mem_erase.mp hmem).1
      exact ⟨Nat.lt_of_lt_of_le hseat hseats, hfaces⟩
    · obtain ⟨hsame, hfaces⟩ := hanswers.2 e' he
      exact ⟨hsame ▸ hanswers.1.1.there, hfaces⟩

/-! ## What happens around the calls -/

theorem sane_hear (h : c.Sane) (k : Nat) (method : String) (params : Json) : (c.hear k method params).Sane := by
  unfold hear
  cases Signal.ofMethod? method with
  | none => exact h
  | some signal =>
    have hsound := (Desk.Sound.upkeep steady_lineCarrier).conduct.hear params signal (c.desk k) (h.desks k)
    simp only [run_withDesk]
    generalize (Desk.hear lineCarrier params signal).run.run (c.desk k) = out at hsound
    obtain ⟨_ | _, d⟩ := out
    · exact (h.putDesk hsound).of_seats rfl rfl
    · exact h.putDesk hsound

theorem sane_read (h : c.Sane) (k : Nat) : (c.apply (.read k)).Sane := by
  have hcounts : (c.wired k).Counts := (h.desks k).counted
  unfold apply
  simp only
  split
  · next w method params hread =>
    exact sane_hear (h.rewire (hcounts.read hread)) k method params
  · next w hread => exact h.rewire (hcounts.read hread)
  · exact h

theorem sane_listen (h : c.Sane) (k p : Nat) : (c.apply (.listen k p)).Sane := by
  have hcounts : (c.wired k).Counts := (h.desks k).counted
  unfold apply
  simp only
  split
  · next w hlisten => exact h.rewire (hcounts.listen hlisten)
  · exact h

theorem goes_after (h : c.Orderly tools) (hkept : c.Kept lost) (hstocked : c.Stocked) {e : Event} (he : e.isDeclared = true) :
    c.Goes (tools ++ e.tool?.toList) e (c.after e) := by
  have hgoes {e : Event} (htool : e.tool? = none) (hgoes : c.Goes tools e (c.after e)) :
      c.Goes (tools ++ e.tool?.toList) e (c.after e) := by
    rw [htool, Option.toList_none, List.append_nil]
    exact hgoes
  have habides {e : Event} (htool : e.tool? = none) (habides : c.Abides (c.after e)) (hsane : (c.after e).Sane) :
      c.Goes (tools ++ e.tool?.toList) e (c.after e) :=
    hgoes htool ((h.of_abides habides hsane).imp_right .inl)
  cases e with
  | call name args =>
    obtain ⟨tool, hcall, htool⟩ := Tool.isApt_ofCall he
    have hcalled : (Event.call name args).tool? = some tool := by simp only [Event.tool?, hcall, Except.toOption]
    rw [hcalled]
    exact goes_call h hkept hstocked hcall htool
  | move m =>
    cases m with
    | wake p => exact habides rfl (.of_host hkept.filed (.wake _ _) (List.length_modify _ _ _)) (h.sane.of_seats rfl rfl)
    | read k => exact habides rfl (abides_read hkept.filed k) (sane_read h.sane k)
    | listen k p => exact habides rfl (abides_listen hkept.filed k p) (sane_listen h.sane k p)
    | resume n late => exact hgoes rfl (goes_resume h hkept hstocked n late)
  | act p acts =>
    exact habides rfl (.of_host hkept.filed (.command _ _ _) (List.length_modify _ _ _)) (h.sane.of_seats rfl rfl)
  | tick now => exact habides rfl (.of_host hkept.filed (.of_eq rfl rfl) rfl) (h.sane.of_seats rfl rfl)
  | store files => exact habides rfl ⟨fun _ => .refl _, hkept.filed, rfl, rfl, rfl⟩ (h.sane.of_seats rfl rfl)
  | queue rota => exact habides rfl ⟨fun _ => .refl _, hkept.filed, rfl, rfl, rfl⟩ (h.sane.of_seats rfl rfl)

end CoqConsole.Console
