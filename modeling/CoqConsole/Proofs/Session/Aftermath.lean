import CoqConsole.Proofs.Session.Affairs
import CoqConsole.Proofs.Session.Board

/-!
# What a failed notification leaves behind

A notification from the server can fail at any part of it. All but one kind fail before anything is changed: progress,
a cursor and a proof view are read as a whole first, and what follows cannot fail. A hit makes room for its search
before it is put into lines, so one that can be read and not be put into lines leaves an empty pane.

* `Bound.whole_hearCursor`, ... : the kinds that change everything or nothing;
* `Desk.Spoils`, `Desk.opened` : a hit that fails late, and what is left of the desk;
* `failed_hear` : after every run, a notification that fails changes nothing, or is such a hit.
-/

namespace CoqConsole.Desk

variable {L : Type} {carrier : Carrier L} {d : Desk L}

/-! ## All or nothing -/

theorem whole_hearProgress (params : Json) (d : Desk L) : Whole (hearProgress carrier params) d := by
  refine .bind (looks_subject params) fun found _ => ?_
  cases found with
  | none => exact .pure _
  | some n =>
    refine .bind (.lift _) fun highlights _ => .bind looks_encoding fun e _ => ?_
    exact .bind .get fun d _ => .bind (.lift _) fun b _ => .modify _

theorem whole_hearProofView (params : Json) (d : Desk L) : Whole (hearProofView params) d :=
  .bind (.lift _) fun _ _ => .modify _

/-- In manual mode the session only notes which buffer is active. -/
theorem run_follow_of_manual (n : Nat) (hmode : Settings.proofMode d.session.settings = .ok .manual) :
    (react carrier n .follow).run.run d =
      (.ok (), { d with session := { d.session with active := some (d.bufferAt n).uri } }) := by
  simp only [react, run_bind, run_buffer, run_editSession, run_proofMode, hmode]
  rfl

theorem Bound.whole_moveCursor (h : d.Bound) (n : Nat) (p : Position)
    (hmode : Settings.proofMode d.session.settings = .ok .manual) : Whole (moveCursor carrier n p) d := by
  intro cause
  rw [h.run_moveCursor]
  cases (d.bufferAt n).moveTo p with
  | error cause => exact fun _ => rfl
  | ok b =>
    simp only
    split
    · rw [run_follow_of_manual n (show Settings.proofMode (d.withBuffer n b).session.settings = _ from hmode)]
      exact nofun
    · exact nofun

theorem Bound.whole_hearCursor (h : d.Bound) (params : Json) : Whole (hearCursor carrier params) d := by
  rw [hearCursor_eq]
  refine .bind (looks_meant params) fun found hfound => ?_
  cases found with
  | none => exact .pure _
  | some target => exact h.whole_moveCursor target.1 target.2 (meant_of_eq_some hfound).manual

/-! ## A hit that fails late -/

/-- A hit of a search that is accepted and not shown yet, and cannot be put into lines. -/
structure Spoils (d : Desk L) (params : Json) (hit : SearchHit) (cause : Failure) : Prop where
  read : SearchHit.ofJson params = .ok hit
  accepted : d.session.tickets.accept searchChannel hit.id = true
  unshown : d.session.shownSearch ≠ some hit.id
  unrendered : hit.render = .error cause

def opened (d : Desk L) (search : Int) : Desk L :=
  { d with session := { d.session with shownSearch := some search, queryPane := d.session.queryPane.write .clear } }

theorem run_showSearch (d : Desk L) (search : Int) :
    ((showSearch search).run.run d).2 = if d.session.shownSearch = some search then d else d.opened search := by
  have hrun : ((showSearch search).run.run d).2 = { d with
      session :=
        if d.session.shownSearch = some search then d.session
        else { d.session with shownSearch := some search, queryPane := d.session.queryPane.write .clear } } := rfl
  rw [hrun]
  split <;> rfl

theorem Spoils.run_hear {params : Json} {hit : SearchHit} {cause : Failure} (h : d.Spoils params hit cause) :
    (hear carrier params .searchHit).run.run d = (.error cause, d.opened hit.id) := by
  show (hearSearchHit params).run.run d = _
  rw [run_hearSearchHit, h.read]
  simp only [h.accepted, if_true, h.unrendered, run_showSearch, if_neg h.unshown]

theorem failed_hearSearchHit {params : Json} {cause : Failure}
    (hfailed : ((hearSearchHit (L := L) params).run.run d).1 = .error cause) :
    ((hearSearchHit params).run.run d).2 = d ∨ ∃ hit, d.Spoils params hit cause := by
  rw [run_hearSearchHit] at hfailed ⊢
  cases hread : SearchHit.ofJson params with
  | error cause => exact .inl rfl
  | ok hit =>
    simp only [hread] at hfailed ⊢
    by_cases haccepted : d.session.tickets.accept searchChannel hit.id = true
    · rw [if_pos haccepted] at hfailed ⊢
      cases hrender : hit.render with
      | ok lines =>
        rw [hrender] at hfailed
        cases hfailed
      | error cause' =>
        rw [hrender] at hfailed
        cases hfailed
        simp only [run_showSearch]
        by_cases hshown : d.session.shownSearch = some hit.id
        · exact .inl (if_pos hshown)
        · exact .inr ⟨hit, hread, haccepted, hshown, hrender⟩
    · exact .inl (by rw [if_neg haccepted])

/-! ## After every run -/

theorem Bound.failed_hear (h : d.Bound) {params : Json} {signal : Signal} {cause : Failure}
    (hfailed : ((hear carrier params signal).run.run d).1 = .error cause) :
    ((hear carrier params signal).run.run d).2 = d ∨
      signal = .searchHit ∧ ∃ hit, d.Spoils params hit cause := by
  cases signal with
  | progress => exact .inl (whole_hearProgress params d cause hfailed)
  | cursor => exact .inl (h.whole_hearCursor params cause hfailed)
  | proofView => exact .inl (whole_hearProofView params d cause hfailed)
  | searchHit => exact (failed_hearSearchHit hfailed).imp_right fun hspoils => ⟨rfl, hspoils⟩

/-- In every state of a session, whatever has befallen it: a notification that fails leaves all of it as it was, unless
it is a hit that fails late. Such a one always fails and always leaves another state, in which the pane is emptied for
its search. -/
theorem hear_whole_or_spoils (carrier : Carrier L) (hd : d.IsUnheard) (as : List (Affair L))
    (has : ∀ a ∈ as, ∀ n, a.buffer? = some n → n < d.buffers.length) (params : Json) :
    let d' := d.live carrier as
    (∀ signal cause, ((hear carrier params signal).run.run d').1 = .error cause →
      ((hear carrier params signal).run.run d').2 = d' ∨ signal = .searchHit ∧ ∃ hit, d'.Spoils params hit cause) ∧
    ∀ hit cause, d'.Spoils params hit cause →
      (hear carrier params .searchHit).run.run d' = (.error cause, d'.opened hit.id) ∧ d'.opened hit.id ≠ d' := by
  have hbound := bound_live carrier hd.bound as has
  refine ⟨fun signal cause hfailed => hbound.failed_hear hfailed, fun hit cause hspoils => ⟨hspoils.run_hear, ?_⟩⟩
  intro hsame
  exact hspoils.unshown (congrArg (fun d => d.session.shownSearch) hsame).symm

/-- A hit whose name is a tree with a number for its text. -/
def numberedHit : Json :=
  .object [("id", .text "2"), ("name", .array [.text "Ppcmd_string", .int 5]), ("statement", .text "True")]

/-- A search is begun while the pane shows the answer to a question. -/
def searching : List (Affair Bool) :=
  [.befall (.adopt 0), .ask 0 .null (.question (.text "check") (.text "nat") .cursor),
    .finish ⟨.question 1, "vscoq/check", .null, .null⟩ (.ok (.text "nat : Set")),
    .ask 0 .null (.search (.text "nat") .cursor)]

/-- Its first hit cannot be put into lines: it fails, and the answer is gone. -/
theorem hear_whole_or_spoils_numberedHit : ∃ s : Session, Session.create (.object []) "ns" = .ok s ∧
    let d : Desk Bool := ⟨s, [.ofText "a" "Check nat." Buffer.defaultLanguage], true⟩
    let d' := d.live wire searching
    d'.session.queryPane.lines = ["nat : Set"] ∧ (d'.opened 2).session.queryPane.lines = [] ∧
      (hear wire numberedHit .searchHit).run.run d' = (.error (.notAText .int), d'.opened 2) := by
  obtain ⟨s, created⟩ : ∃ s, Session.create (.object []) "ns" = .ok s := ⟨_, rfl⟩
  refine ⟨s, created, ?_⟩
  have hunheard := (isFresh_create created [("a", "Check nat.")] (by decide) true).isUnheard
  have hbuffers : ∀ a ∈ searching, ∀ n ∈ a.buffer?, n < 1 := by decide
  intro d d'
  have hspoils : d'.Spoils numberedHit ⟨2, .alien (.int 5), .text "True"⟩ (.notAText .int) := by
    cases created
    exact ⟨rfl, by decide +kernel, by decide +kernel, rfl⟩
  have hheard := (hear_whole_or_spoils wire hunheard searching hbuffers numberedHit).2 _ _ hspoils
  refine ⟨?_, ?_, hheard.1⟩
  all_goals
    cases created
    decide +kernel

end CoqConsole.Desk
