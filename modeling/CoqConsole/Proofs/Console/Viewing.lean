import CoqConsole.Proofs.Console.Showing

/-!
# Proof views as answers

A call that has sent a command waits for a write to the proof pane, and shows what is there. A view from the server is such
a write, and so is the end of the session.

* `Console.Renews` : an event writes to the proof pane of a seat; `proofs_after`, `proofs_afterAll` : no other does;
* `Console.IsDue` : a call waits for a write that is yet to come;
* `Console.Views`, `views` : what a call shows that waited for a view.
-/

namespace CoqConsole.Console

variable {c c' : Console} {e : Event} {es : List Event} {j k n : Nat} {lost : List Nat} {r : Except Failure Turn}

/-! ## Writes to the proof pane -/

/-- An event puts lines on the proof pane of a seat: a view comes that can be shown, or the session is stopped. -/
inductive Renews (c : Console) (k : Nat) : Event → List String → Prop
  | viewed {params : Json} {lines : List String} (hgets : c.Gets k .proofView params)
    (hrender : ProofView.ofJson params >>= ProofView.render = .ok lines) : Renews c k (.move (.read k)) lines
  | stopped {name : String} {args : Tool.Arguments} {session : Json} (hcall : Tool.ofCall name args = .ok (.stop session))
    (hfind : c.find? session = .ok (some k)) : Renews c k (.call name args) []

theorem lasting_proofs (proofs : List String × Nat) : Lasting fun x _ => x.proofs = proofs := lasting_display _

theorem isApart_proofs (proofs : List String × Nat) : IsApart fun x _ => x.proofs = proofs := fun _ _ _ h => h

theorem proofs_showSearch (search : Int) (d : Desk Wired) :
    ((Desk.showSearch search).run.run d).2.session.display.proofs = d.session.display.proofs := by
  rw [Desk.session_showSearch]
  split <;> rfl

/-- Answers are shown on the other pane. -/
theorem proofs_finish (query : Query) (answer : Except Failure Json) (d : Desk Wired) :
    ((Desk.finish query answer).run.run d).2.session.display.proofs = d.session.display.proofs := by
  cases answer with
  | error cause =>
    rw [Desk.run_finish_error]
    cases query.notice? cause <;> rfl
  | ok value =>
    cases haim : query.aim with
    | search ticket =>
      rw [Desk.run_finish_search d query haim]
      split
      · exact proofs_showSearch ticket d
      · rfl
    | question ticket =>
      rw [Desk.run_finish_question d query haim]
      split
      · cases renderAnswer value <;> rfl
      · rfl
    | reset => rw [Desk.run_finish_reset d query haim]

theorem proofs_hearSearchHit (params : Json) (d : Desk Wired) :
    ((Desk.hearSearchHit params).run.run d).2.session.display.proofs = d.session.display.proofs := by
  rw [Desk.run_hearSearchHit]
  cases SearchHit.ofJson params with
  | error cause => rfl
  | ok hit =>
    simp only
    split
    · have hshow := proofs_showSearch hit.id d
      cases hit.render <;> exact hshow
    · rfl

/-- A message that is read is a view for its seat, or leaves all proof panes as they are. -/
theorem proofs_read (c : Console) (k : Nat) (j : Nat) :
    ((c.apply (.read k)).display j).proofs = (c.display j).proofs ∨
      ∃ lines, c.Renews j (.move (.read k)) lines ∧
        ((c.apply (.read k)).display j).proofs = (lines, (c.display j).proofs.2 + 1) := by
  rcases session_read c k with hsame | ⟨signal, params, d, hgets, hsession, hheard, hother⟩
  · exact .inl (by rw [display, hsame, display])
  · by_cases hj : j = k
    · subst hj
      have hproofs : ((c.apply (.read j)).display j).proofs =
        ((Desk.hear lineCarrier params signal).run.run d).2.session.display.proofs := by rw [display, hheard]
      have hbefore : d.session.display = c.display j := congrArg Session.display hsession
      rw [hproofs, ← hbefore]
      cases signal with
      | proofView =>
        rw [Desk.hear_proofView]
        cases hrender : ProofView.ofJson params >>= ProofView.render with
        | error cause => exact .inl rfl
        | ok lines => exact .inr ⟨lines, .viewed hgets hrender, rfl⟩
      | searchHit => exact .inl (proofs_hearSearchHit params d)
      | progress => exact .inl (Desk.presents_hear lineCarrier (.inl rfl) (lasting_proofs _) params d rfl)
      | cursor => exact .inl (Desk.presents_hear lineCarrier (.inr rfl) (lasting_proofs _) params d rfl)
    · exact .inl (by rw [display, hother j hj, display])

/-- The tool that stops the session of a seat empties its proof pane. -/
theorem proofs_stopped (hkept : c.Kept lost) {session : Json} (hfind : c.find? session = .ok (some k)) :
    (((run (.stop session)).run.run c).2.display k).proofs = ([], (c.display k).proofs.2 + 1) := by
  have hbefore : (c.seatAt k).session.Presents fun x _ => x.proofs = (c.display k).proofs := rfl
  refine (presents_stopped (lasting_proofs _) (lasting_proofs _) (isApart_proofs _) hkept hfind hbefore fun x _ hx => ?_).2
  rw [← hx]
  rfl

/-- An event leaves the proof pane of a seat as it is, or writes to it once. -/
theorem proofs_after (h : c.Regular) (j : Nat) (e : Event) :
    ((c.after e).display j).proofs = (c.display j).proofs ∨
      ∃ lines, c.Renews j e lines ∧ ((c.after e).display j).proofs = (lines, (c.display j).proofs.2 + 1) := by
  obtain ⟨lost, hkept⟩ := h.kept
  rcases after_cases c e with ⟨n, r, c', made, hturned, hafter⟩ | ⟨n, errand, errand', hpasses⟩ | ⟨k, rfl⟩ | ⟨k, p, rfl⟩ |
    ⟨host, files, rota, hafter, -, -⟩
  · have hdisplay : (c.after e).display j = c'.display j := by
      rw [hafter]
      refine display_of_seats ?_ j
      rcases r with cause | (text | errand) <;> rfl
    rw [hdisplay]
    by_cases hstop : ∃ name args session, e = .call name args ∧ Tool.ofCall name args = .ok (.stop session) ∧
        c.find? session = .ok (some j)
    · obtain ⟨name, args, session, rfl, htool, hfind⟩ := hstop
      cases hturned with
      | refused hcall =>
        rw [htool] at hcall
        cases hcall
      | called hcall =>
        obtain rfl := Except.ok.inj (htool.symm.trans hcall)
        exact .inr ⟨[], .stopped htool hfind, proofs_stopped hkept hfind⟩
    · refine .inl (presents_turned (lasting_proofs _) (isApart_proofs _) h j ?_ ?_ hturned rfl).2
      · exact fun name args session he htool hfind => absurd ⟨name, args, session, he, htool, hfind⟩ hstop
      · exact fun _ _ _ query _ _ _ _ _ _ _ d hd => (proofs_finish query _ d).trans (congrArg (·.display.proofs) hd)
  · exact .inl (by rw [hpasses.after]; rfl)
  · exact proofs_read c k j
  · exact .inl (by rw [display, show c.after (.move (.listen k p)) = c.apply (.listen k p) from rfl, session_listen, display])
  · exact .inl (by rw [hafter]; rfl)

/-- What is on the proof pane after a run was there before, or is what was last put there. -/
theorem proofs_afterAll (h : c.Regular) (j : Nat) (es : List Event) :
    ((c.afterAll es).display j).proofs = (c.display j).proofs ∨
      ∃ before e later lines, es = before ++ e :: later ∧ (c.afterAll before).Renews j e lines ∧
        ((c.afterAll es).display j).proofs.1 = lines := by
  induction es generalizing c with
  | nil => exact .inl rfl
  | cons e es ih =>
    rcases ih (regular_after h e) with hsame | ⟨before, e', later, lines, rfl, hrenews, hlines⟩
    · have hall : ((c.afterAll (e :: es)).display j).proofs = ((c.after e).display j).proofs := hsame
      rcases proofs_after h j e with hfirst | ⟨lines, hrenews, hfirst⟩
      · exact .inl (hall.trans hfirst)
      · exact .inr ⟨[], e, es, lines, rfl, hrenews, by rw [hall, hfirst]⟩
    · exact .inr ⟨e :: before, e', later, lines, rfl, hrenews, hlines⟩

/-! ## Calls that wait for a view -/

/-- Who begins to wait for a view has seen every write so far. -/
def IsDue (r : Except Failure Turn) (c : Console) : Prop :=
  ∀ errand timeout room, r = .ok (.awaits errand) → errand.purpose = .viewing timeout room →
    ∃ limit, errand.wait = .pane (c.display errand.seat).proofs.2 limit

theorem concludes_isDue : Concludes (fun _ _ _ => True) Seated IsDue where
  rests _ hrests errand timeout room he hview := by
    have hopens := (hrests errand he).opens
    rw [hview] at hopens
    cases hopens
  views k timeout room := by
    rintro c -
    simp only [awaitView, run_bind, run_get, run_lift]
    cases Limit.after c.host.now timeout with
    | error cause => exact fun _ _ _ he => by cases he
    | ok limit =>
      rintro errand timeout' room' he -
      cases he
      exact ⟨limit, rfl⟩
  sends k n request timeout sequel _ := by
    rintro c - errand timeout' room he hview
    obtain ⟨-, query, id, hposes⟩ := (sent k n request timeout sequel c).errand he
    have hpurpose := hposes.purpose
    rw [hview] at hpurpose
    cases hpurpose

theorem isDue_turned (hkept : c.Kept lost) (hplaced : c.Placed) (h : c.Turned e n r c') : IsDue r c' := by
  refine concludes_isDue.turned hkept hplaced ?_ h
  rintro late errand query sequel answer - - - c - errand' timeout room he hview
  obtain ⟨wait, room', time, -, rfl⟩ := follows_answered _ query sequel answer c errand' he
  cases hview

/-- A call that waits for a view does so since a turn of its own, and for a write since then. -/
theorem exists_isDue (hc : c.IsUnused) (es : List Event) {errand : Errand} {timeout room : Json}
    (hcall : (n, errand) ∈ (c.afterAll es).calls) (hview : errand.purpose = .viewing timeout room) :
    ∃ before e later c' limit, es = before ++ e :: later ∧ (c.afterAll before).Turned e n (.ok (.awaits errand)) c' ∧
      errand.wait = .pane ((c.afterAll (before ++ [e])).display errand.seat).proofs.2 limit := by
  obtain ⟨before, e, later, c', errand', hes, hturned, hseats, hsame⟩ := exists_turned hc es hcall
  -- Only a call that asked waits for a request to get through.
  have hsame : errand = errand' := hsame.resolve_right fun hpasses => by
    obtain ⟨_⟩ := hpasses
    cases hview
  subst hsame
  have hregular := regular_afterAll hc.regular before
  obtain ⟨lost, hkept⟩ := hregular.kept
  obtain ⟨limit, hwait⟩ := isDue_turned hkept hregular.placed hturned errand timeout room rfl hview
  rw [← display_of_seats hseats] at hwait
  exact ⟨before, e, later, c', limit, hes, hturned, hwait⟩

def ending (output : String) (room : Json) : Except Failure Json := (Wording.truncate output room).map .text

theorem done_say (c : Console) (n : Nat) (output : String) (room : Json) :
    (c.stand n ((Wording.truncate output room).map Turn.said)).done = c.done ++ [(n, ending output room)] := by
  unfold ending
  cases Wording.truncate output room <;> rfl

theorem done_viewing (late : Bool) {errand : Errand} {timeout room : Json} (hget : Keyed.get? n c.calls = some errand)
    (hview : errand.purpose = .viewing timeout room) (hover : (if late then c.isLate errand else c.isMet errand) = true) :
    (c.after (.move (.resume n late))).done = c.done ++ [(n, ending
      (if late then Wording.lateView timeout (c.seatAt errand.seat).session
        else Wording.proofView (c.seatAt errand.seat).session) room)] := by
  simp only [after, apply, hget, if_pos hover, resume, hview, looks_session.run_bind_eq, run_say]
  exact done_say _ n _ room

/-- What a call that waited for a view says when it goes on after a run, too late or in time. -/
inductive Views (c : Console) (es : List Event) (n : Nat) (errand : Errand) (timeout room : Json) : Bool → Prop
  /-- No view came in time, and it says so before it shows what there is. -/
  | late (hdone : ((c.afterAll es).after (.move (.resume n true))).done = (c.afterAll es).done ++
      [(n, ending (Wording.lateView timeout ((c.afterAll es).seatAt errand.seat).session) room)]) :
    Views c es n errand timeout room true
  /-- It shows what was put on the pane after the turn in which it sent its command and began to wait. -/
  | renewed {before mid rest : List Event} {e e' : Event} {c' : Console} {lines : List String}
      (hes : es = before ++ e :: (mid ++ e' :: rest))
      (hturned : (c.afterAll before).Turned e n (.ok (.awaits errand)) c')
      (hrenews : (c.afterAll (before ++ e :: mid)).Renews errand.seat e' lines)
      (hdone : ((c.afterAll es).after (.move (.resume n false))).done = (c.afterAll es).done ++
        [(n, ending (Wording.orElse (Text.unlines lines) "No goals") room)]) :
    Views c es n errand timeout room false

theorem views (hc : c.IsUnused) (es : List Event) {errand : Errand} {timeout room : Json} {late : Bool}
    (hget : Keyed.get? n (c.afterAll es).calls = some errand) (hview : errand.purpose = .viewing timeout room)
    (hover : (if late then (c.afterAll es).isLate errand else (c.afterAll es).isMet errand) = true) :
    Views c es n errand timeout room late := by
  have hdone := done_viewing late hget hview hover
  cases late with
  | true =>
    rw [if_pos rfl] at hdone
    exact .late hdone
  | false =>
    rw [if_neg Bool.false_ne_true] at hdone hover
    obtain ⟨before, e, later, c', limit, rfl, hturned, hwait⟩ := exists_isDue hc es (Keyed.mem_of_get? hget) hview
    have hlater : c.afterAll (before ++ e :: later) = (c.afterAll (before ++ [e])).afterAll later := by
      rw [← afterAll_append, List.append_assoc, List.singleton_append]
    -- The pane was written to since, as its revision is another.
    have hmet : ((c.afterAll (before ++ e :: later)).display errand.seat).proofs.2 ≠
        ((c.afterAll (before ++ [e])).display errand.seat).proofs.2 := by
      simp only [isMet, hwait, Bool.and_eq_true, bne_iff_ne] at hover
      exact hover.2
    rcases proofs_afterAll (regular_afterAll hc.regular (before ++ [e])) errand.seat later with
      hsame | ⟨mid, e', rest, lines, rfl, hrenews, hlines⟩
    · exact absurd (congrArg Prod.snd hsame) (hlater ▸ hmet)
    · rw [← afterAll_append, List.append_assoc, List.singleton_append] at hrenews
      rw [← hlater] at hlines
      subst hlines
      exact .renewed rfl hturned hrenews hdone

/-! ## A run that cuts a wait short -/

/-- The text with which a call ended, if it has. -/
def textOf? (c : Console) (n : Nat) : Option String :=
  match c.outcome? n with
  | some (.ok (.text s)) => some s
  | _ => none

/-- A call waits for a view, and its wait is over. -/
def isViewed (c : Console) (n : Nat) : Bool :=
  (Keyed.get? n c.calls).any fun e => match e.purpose with
    | .viewing .. => c.isMet e
    | _ => false

theorem exists_of_isViewed (h : c.isViewed n = true) :
    ∃ errand timeout room, Keyed.get? n c.calls = some errand ∧ errand.purpose = .viewing timeout room ∧
      c.isMet errand = true := by
  obtain ⟨errand, hget, hviewed⟩ := (Option.any_eq_true _ _).mp h
  split at hviewed
  · next timeout room hview => exact ⟨errand, timeout, room, hget, hview, hviewed⟩
  · cases hviewed

/-- A view with one goal, as a server sends it. -/
def goalView : Json :=
  .object [("method", .text Signal.proofView.method), ("params", .object [("proof", .object [("goals",
    .array [.object [("id", .int 1), ("goal", .array [.text "Ppcmd_string", .text "P"])]])])])]

/-- A view with a goal comes when a file is opened, a command is sent, and the session is stopped before the next view. -/
def cutShort : List Event :=
  [.store ⟨[(⟨["ws", "A.v"]⟩, [])], []⟩, starting] ++ welcomed 0 ++
    [.call "coq_interpret_to_point" [("file", .text "/ws/A.v")]] ++ told 0 goalView ++
      [.move (.resume 1 false), .call "coq_stop" []]

theorem views_cutShort :
    ∃ errand timeout room, Keyed.get? 1 (quiet.afterAll cutShort).calls = some errand ∧
      errand.purpose = .viewing timeout room ∧ (quiet.afterAll cutShort).isMet errand = true ∧
        Views quiet cutShort 1 errand timeout room false ∧
          ((quiet.afterAll cutShort).after (.move (.resume 1 false))).textOf? 1 = some "No goals" := by
  have hviewed : (quiet.afterAll cutShort).isViewed 1 = true := by decide +kernel
  obtain ⟨errand, timeout, room, hget, hview, hmet⟩ := exists_of_isViewed hviewed
  exact ⟨errand, timeout, room, hget, hview, hmet, views ⟨rfl, rfl, rfl, rfl⟩ cutShort hget hview hmet, by decide +kernel⟩

end CoqConsole.Console
