import CoqConsole.Proofs.Session.Affairs
import CoqConsole.Proofs.Session.Overtaking

/-!
# Requests that fail

A session writes its notices and never reads them. So a request whose failure becomes a notice leaves the session as
if it had not ended at all, at once and in all that follows.

* `Desk.under` : the desk with notices before its own; everything a session does takes no heed of them
  (`heedless_begin`, `heedless_finish`, `heedless_release`, `heedless_hear`, ...);
* `undergo_under`, `live_under` : and so no affair does, and no run of them;
* `Desk.noting`, `Desk.inserting` : one more notice, at the end or among the others;
* `Query.blamed` : the method and the params that a failure is about;
* `Desk.LeavesAlone` : what a failed request does to a session, and what comes of it later;
* `failed_leaves_alone` : whatever else is under way, that is all it does.
-/

namespace CoqConsole

/-- The method and the params that a failure of a request is about: its own, if the server refused it. -/
def Query.blamed (q : Query) : Failure → Json × Json
  | .refused method params _ _ => (method, params)
  | _ => (.text q.method, q.params)

theorem notice?_of_isNoted (q : Query) {cause : Failure} (h : cause.isNoted = true) :
    ∃ notice, q.notice? cause = some notice ∧ (notice.method, notice.params) = q.blamed cause := by
  cases cause <;> first | exact ⟨_, rfl, rfl⟩ | cases h

namespace Desk

variable {L : Type}

/-! ## Notices -/

def under (ms : List Notice) (d : Desk L) : Desk L :=
  { d with session := { d.session with notices := ms ++ d.session.notices } }

def noting (d : Desk L) (notice : Notice) : Desk L :=
  { d with session := { d.session with notices := d.session.notices ++ [notice] } }

def inserting (d : Desk L) (place : Nat) (notice : Notice) : Desk L :=
  { d with session := { d.session with notices := d.session.notices.insertIdx place notice } }

def unnoted (d : Desk L) : Desk L := { d with session := { d.session with notices := [] } }

theorem under_unnoted (d : Desk L) : d.unnoted.under d.session.notices = d := by
  unfold under unnoted
  rw [List.append_nil]

theorem noting_eq_under (d : Desk L) (notice : Notice) :
    d.noting notice = d.unnoted.under (d.session.notices ++ [notice]) := by
  unfold noting under unnoted
  rw [List.append_nil]

theorem inserting_under (d : Desk L) (ms : List Notice) (notice : Notice) :
    (d.under ms).inserting ms.length notice = d.under (ms ++ [notice]) := by
  have hinsert : (ms ++ d.session.notices).insertIdx ms.length notice = ms ++ [notice] ++ d.session.notices := by
    rw [List.append_assoc]
    induction ms with
    | nil => rfl
    | cons m ms ih => exact congrArg (m :: ·) ih
  unfold inserting under
  rw [hinsert]

/-! ## What is done without heed of the notices -/

section Heedless

variable (carrier : Carrier L) (ms : List Notice)

theorem heedless_buffer (n : Nat) : Heedless (under (L := L) ms) (buffer n) :=
  .reading (fun _ => rfl) fun _ => .pure _

theorem heedless_encoding : Heedless (under ms) (encoding carrier) :=
  .reading (fun _ => rfl) fun _ => .pure _

theorem heedless_proofMode : Heedless (under (L := L) ms) proofMode :=
  .reading (fun _ => rfl) fun _ => .lift _

theorem heedless_accepts (channel : String) (ticket : Int) : Heedless (under (L := L) ms) (accepts channel ticket) :=
  .reading (fun _ => rfl) fun _ => .pure _

theorem heedless_editBuffer (n : Nat) (f : Buffer Reaction Mark → Buffer Reaction Mark) :
    Heedless (under (L := L) ms) (editBuffer n f) := .modify fun _ => rfl

theorem heedless_send (method : String) (params : Json) : Heedless (under ms) (send carrier method params) :=
  .reading (fun _ => rfl) fun _ => .bind (.lift _) fun _ => .modify fun _ => rfl

theorem heedless_wirePlace (n : Nat) (p : Place) : Heedless (under ms) (wirePlace carrier n p) :=
  .bind (heedless_buffer ms n) fun _ => .bind (heedless_encoding carrier ms) fun _ => .lift _

theorem heedless_interpretTo (n : Nat) (p : Place) : Heedless (under ms) (interpretTo carrier n p) :=
  .bind (heedless_wirePlace carrier ms n p) fun _ => .bind (heedless_buffer ms n) fun _ => heedless_send carrier ms _ _

theorem heedless_step (n : Nat) (direction : Direction) : Heedless (under ms) (step carrier n direction) :=
  .bind (heedless_buffer ms n) fun _ => heedless_send carrier ms _ _

/-- In continuous mode the server checks up to the cursor. -/
theorem heedless_pursuit (n : Nat) : Heedless (under ms) (proofMode (L := L) >>= fun mode =>
    if mode = .continuous then interpretTo carrier n .cursor else pure ()) :=
  .bind (heedless_proofMode ms) fun _ => .ite (heedless_interpretTo carrier ms n .cursor) (.pure _)

/-! ### Requests -/

theorem heedless_issue (channel : String) : Heedless (under (L := L) ms) (issue channel) :=
  .reading (fun _ => rfl) fun _ => .bind (.modify fun _ => rfl) fun _ => .pure _

theorem heedless_begin (n : Nat) (timeout : Json) (request : Request) :
    Heedless (under ms) (begin carrier n timeout request) := by
  cases request with
  | search pattern p =>
    exact .bind (heedless_issue ms _) fun _ => .bind (heedless_wirePlace carrier ms n p) fun _ =>
      .bind (heedless_buffer ms n) fun _ => .pure _
  | question kind pattern p =>
    have hasked : Heedless (under ms) (issue (L := L) questionChannel >>= fun ticket => do
        let place ← wirePlace carrier n p
        let params := Json.object [
          ("textDocument", versioned (← buffer n)), ("position", place), ("pattern", pattern)]
        return (⟨.question ticket, "vscoq/" ++ kind.shown, params, timeout⟩ : Query)) :=
      .bind (heedless_issue ms _) fun _ => .bind (heedless_wirePlace carrier ms n p) fun _ =>
        .bind (heedless_buffer ms n) fun _ => .pure _
    exact .ite hasked (.throw _)
  | reset => exact .bind (heedless_buffer ms n) fun _ => .pure _

theorem heedless_showSearch (ticket : Int) : Heedless (under (L := L) ms) (showSearch ticket) := by
  refine .modify fun d => ?_
  by_cases hshown : d.session.shownSearch = some ticket <;> simp [under, hshown]

theorem heedless_finish (q : Query) (answer : Except Failure Json) : Heedless (under (L := L) ms) (finish q answer) := by
  cases answer with
  | ok value =>
    simp only [finish]
    cases q.aim with
    | search ticket =>
      refine .bind (heedless_accepts ms _ _) fun _ => ?_
      exact .ite (.bind (heedless_showSearch ms ticket) fun _ => .pure _) (.pure _)
    | question ticket =>
      refine .bind (heedless_accepts ms _ _) fun _ => .ite ?_ (.pure _)
      exact .bind (.lift _) fun _ => .bind (.modify fun _ => rfl) fun _ => .pure _
    | reset => exact .pure _
  | error cause =>
    simp only [finish]
    cases q.notice? cause with
    | none => exact .throw _
    | some notice =>
      refine .bind (.modify fun d => ?_) fun _ => .pure _
      simp only [under, List.append_assoc]

theorem heedless_ask (n : Nat) (timeout : Json) (request : Request) :
    Heedless (under ms) (ask carrier n timeout request) := by
  refine .bind (heedless_begin carrier ms n timeout request) fun q => .reading (fun _ => rfl) fun d => ?_
  cases carrier.send q.method q.params d.link with
  | ok link => exact .modify fun _ => rfl
  | error cause => exact .bind (heedless_finish ms q _) fun _ => .pure _

/-! ### Buffers -/

theorem heedless_attach (n : Nat) : Heedless (under ms) (attach carrier n) := by
  refine .bind (heedless_buffer ms n) fun b => .reading (fun _ => rfl) fun d => ?_
  have hheld : Heedless (under ms) (editBuffer (L := L) n (fun _ => (subscribeAll b).2) >>= fun _ =>
      editSession (fun s => { s with
        attachments := Keyed.put (subscribeAll b).2.uri ⟨n, (subscribeAll b).1⟩ s.attachments
        active := some (subscribeAll b).2.uri }) >>= fun _ =>
      proofMode >>= fun mode => if mode = .continuous then interpretTo carrier n .cursor else pure ()) :=
    .bind (heedless_editBuffer ms n _) fun _ => .bind (.modify fun _ => rfl) fun _ => heedless_pursuit carrier ms n
  exact .ite (.throw _) hheld

theorem heedless_detach (n : Nat) : Heedless (under (L := L) ms) (detach n) := by
  refine .bind (heedless_buffer ms n) fun b => .reading (fun _ => rfl) fun d => ?_
  cases Keyed.get? b.uri d.session.attachments with
  | none => exact .throw _
  | some attachment =>
    refine .bind (.modify fun _ => rfl) fun _ => .reading (fun _ => rfl) fun d => ?_
    refine .bind (heedless_editBuffer ms n _) fun _ => .bind (heedless_editBuffer ms _ _) fun _ => .modify fun d => ?_
    by_cases hactive : d.session.active = some b.uri <;> simp [under, hactive]

theorem heedless_adopt (n : Nat) : Heedless (under ms) (adopt carrier n) := by
  refine .bind (heedless_buffer ms n) fun b => .reading (fun _ => rfl) fun d => ?_
  exact .ite (.throw _) (.bind (heedless_send carrier ms _ _) fun _ => heedless_attach carrier ms n)

theorem heedless_release (n : Nat) : Heedless (under ms) (release carrier n) :=
  .bind (heedless_buffer ms n) fun _ => .bind (heedless_detach ms n) fun _ => heedless_send carrier ms _ _

theorem heedless_react (n : Nat) (r : Reaction) : Heedless (under ms) (react carrier n r) := by
  cases r with
  | follow =>
    exact .bind (heedless_buffer ms n) fun _ => .bind (.modify fun _ => rfl) fun _ => heedless_pursuit carrier ms n
  | report => exact .bind (heedless_buffer ms n) fun _ => heedless_send carrier ms _ _
  | release => exact heedless_release carrier ms n

theorem heedless_calls (n : Nat) {call : Nat → Op L Unit} (hcall : ∀ k, Heedless (under ms) (call k))
    (handles : List Nat) :
    Heedless (under ms) (Buffer.emit (fun handle => return (← buffer n).isActive handle) call handles) := by
  induction handles with
  | nil => exact .pure _
  | cons k handles ih =>
    refine .bind (.bind (heedless_buffer ms n) fun _ => .pure _) fun active => ?_
    exact .ite (.bind (hcall k) fun _ => ih) ih

theorem heedless_emit (n : Nat) (e : BufferEvent) : Heedless (under ms) (emit carrier n e) := by
  refine .bind (heedless_buffer ms n) fun b => heedless_calls ms n (fun k => ?_) _
  refine .bind (heedless_buffer ms n) fun b => ?_
  cases b.listener? k with
  | none => exact .pure _
  | some reaction => exact heedless_react carrier ms n reaction

theorem heedless_moveCursor (n : Nat) (p : Position) : Heedless (under ms) (moveCursor carrier n p) :=
  .bind (heedless_buffer ms n) fun _ => .bind (.lift _) fun _ =>
    .bind (heedless_editBuffer ms n _) fun _ => heedless_emit carrier ms n _

theorem heedless_replaceText (n : Nat) (text : String) : Heedless (under ms) (replaceText carrier n text) :=
  .bind (heedless_editBuffer ms n _) fun _ => heedless_emit carrier ms n _

theorem heedless_closeBuffer (n : Nat) : Heedless (under ms) (closeBuffer carrier n) :=
  .bind (heedless_buffer ms n) fun _ =>
    .ite (.pure _) (.bind (heedless_editBuffer ms n _) fun _ => heedless_emit carrier ms n _)

theorem heedless_shutdown : Heedless (under (L := L) ms) shutdown := by
  refine .reading (fun _ => rfl) fun d => ?_
  have hall : Heedless (under (L := L) ms) ((d.session.attachments.map fun p => p.2.buffer).forM detach) := by
    generalize d.session.attachments.map (fun p => p.2.buffer) = held
    induction held with
    | nil => exact .pure _
    | cons n held ih => exact .bind (heedless_detach ms n) fun _ => ih
  exact .bind hall fun _ => .modify fun _ => rfl

/-! ### Settings and notifications -/

theorem heedless_updateSettings (values : Json) : Heedless (under ms) (updateSettings carrier values) := by
  refine .bind (heedless_proofMode ms) fun _ => .reading (fun _ => rfl) fun _ => .bind (.lift _) fun _ =>
    .bind (.modify fun _ => rfl) fun _ => .bind (heedless_send carrier ms _ _) fun _ => .ite ?_ (.pure _)
  refine .bind (heedless_proofMode ms) fun _ => .ite (.reading (fun _ => rfl) fun d => ?_) (.pure _)
  cases d.active? with
  | none => exact .pure _
  | some n => exact heedless_interpretTo carrier ms n .cursor

theorem heedless_toggleMode : Heedless (under ms) (toggleMode carrier) :=
  .bind (heedless_proofMode ms) fun _ => .bind (heedless_updateSettings carrier ms _) fun _ => heedless_proofMode ms

theorem heedless_subject (params : Json) : Heedless (under (L := L) ms) (subject params) := by
  refine .bind (.lift _) fun key => ?_
  cases key with
  | text uri => exact .reading (fun _ => rfl) fun _ => .pure _
  | _ => exact .pure _

theorem heedless_hear (params : Json) (signal : Signal) : Heedless (under ms) (hear carrier params signal) := by
  cases signal with
  | progress =>
    refine .bind (heedless_subject ms params) fun n => ?_
    cases n with
    | none => exact .pure _
    | some n =>
      exact .bind (.lift _) fun _ => .bind (heedless_encoding carrier ms) fun _ => .reading (fun _ => rfl) fun _ =>
        .bind (.lift _) fun _ => heedless_editBuffer ms n _
  | cursor =>
    refine .bind (heedless_subject ms params) fun n => ?_
    cases n with
    | none => exact .pure _
    | some n =>
      refine .bind (heedless_proofMode ms) fun _ => .ite (.reading (fun _ => rfl) fun _ => .bind (.lift _) fun _ => ?_)
        (.pure _)
      refine .ite (.bind (.lift _) fun _ => .bind (heedless_encoding carrier ms) fun _ => ?_) (.pure _)
      exact .bind (heedless_buffer ms n) fun _ => .bind (.lift _) fun _ => heedless_moveCursor carrier ms n _
  | proofView => exact .bind (.lift _) fun _ => .modify fun _ => rfl
  | searchHit =>
    refine .bind (.lift _) fun hit => .bind (heedless_accepts ms _ _) fun _ => .ite ?_ (.pure _)
    exact .bind (heedless_showSearch ms _) fun _ => .bind (.lift _) fun _ => .modify fun _ => rfl

end Heedless

/-! ## What befalls a session, under other notices -/

section Runs

variable (carrier : Carrier L) (ms : List Notice) (d : Desk L)

theorem after_under (e : Event L) : (d.under ms).after carrier e = (d.after carrier e).under ms := by
  cases e with
  | attach n => exact congrArg Prod.snd (heedless_attach carrier ms n d)
  | detach n => exact congrArg Prod.snd (heedless_detach ms n d)
  | adopt n => exact congrArg Prod.snd (heedless_adopt carrier ms n d)
  | release n => exact congrArg Prod.snd (heedless_release carrier ms n d)
  | shutdown => exact congrArg Prod.snd (heedless_shutdown ms d)
  | closeBuffer n => exact congrArg Prod.snd (heedless_closeBuffer carrier ms n d)
  | moveCursor n p => exact congrArg Prod.snd (heedless_moveCursor carrier ms n p d)
  | replaceText n text => exact congrArg Prod.snd (heedless_replaceText carrier ms n text d)
  | updateSettings values => exact congrArg Prod.snd (heedless_updateSettings carrier ms values d)
  | toggleMode => exact congrArg Prod.snd (heedless_toggleMode carrier ms d)
  | hear params signal => exact congrArg Prod.snd (heedless_hear carrier ms params signal d)
  | relink link => rfl

theorem undergo_under (a : Affair L) : (d.under ms).undergo carrier a = (d.undergo carrier a).under ms := by
  cases a with
  | befall e => exact after_under carrier ms d e
  | interpret n p => exact congrArg Prod.snd (heedless_interpretTo carrier ms n p d)
  | step n direction => exact congrArg Prod.snd (heedless_step carrier ms n direction d)
  | ask n timeout request => exact congrArg Prod.snd (heedless_ask carrier ms n timeout request d)
  | finish q answer => exact congrArg Prod.snd (heedless_finish ms q answer d)

theorem live_under (as : List (Affair L)) : (d.under ms).live carrier as = (d.live carrier as).under ms := by
  induction as generalizing d with
  | nil => rfl
  | cons a as ih =>
    rw [live, List.foldl_cons, undergo_under]
    exact ih (d.undergo carrier a)

variable (notice : Notice) (as : List (Affair L))

/-- A run with a notice more at its start is the same run, with the notice in its place. -/
theorem live_noting :
    (d.noting notice).live carrier as = (d.live carrier as).inserting d.session.notices.length notice := by
  have hlive : d.live carrier as = (d.unnoted.live carrier as).under d.session.notices := by
    rw [← live_under, under_unnoted]
  rw [noting_eq_under, live_under, hlive, inserting_under]

theorem result_noting {α : Type} {op : Op L α} (h : ∀ ms, Heedless (under ms) op) :
    (op.run.run ((d.noting notice).live carrier as)).1 = (op.run.run (d.live carrier as)).1 := by
  have hrun (ms : List Notice) :
      (op.run.run ((d.unnoted.under ms).live carrier as)).1 = (op.run.run (d.unnoted.live carrier as)).1 := by
    rw [live_under, h ms]
  rw [noting_eq_under, hrun, ← hrun d.session.notices, under_unnoted]

end Runs

/-! ## Requests that fail -/

/-- The end of a request is one notice on what it is about, and has no other effect, now or later. -/
structure LeavesAlone (carrier : Carrier L) (q : Query) (cause : Failure) (d d' : Desk L) (notice : Notice) : Prop where
  about : (notice.method, notice.params) = q.blamed cause
  /-- The desk is as it was, but for the notice. -/
  noted : d' = d.noting notice
  /-- Whatever is done later leads where it would have led, but for the notice. -/
  later : ∀ as, d'.live carrier as = (d.live carrier as).inserting d.session.notices.length notice
  /-- Other requests begin as they would have begun. -/
  begins : ∀ as n timeout request, ((begin carrier n timeout request).run.run (d'.live carrier as)).1 =
    ((begin carrier n timeout request).run.run (d.live carrier as)).1
  /-- And they end as they would have ended. -/
  ends : ∀ as q' answer, ((finish q' answer).run.run (d'.live carrier as)).1 =
    ((finish q' answer).run.run (d.live carrier as)).1

theorem run_finish_noted (carrier : Carrier L) (d : Desk L) (q : Query) {cause : Failure} (h : cause.isNoted = true) :
    ∃ notice, (finish q (.error cause)).run.run d = (.ok false, d.noting notice) ∧
      LeavesAlone carrier q cause d (d.noting notice) notice := by
  obtain ⟨notice, hnotice, habout⟩ := notice?_of_isNoted q h
  refine ⟨notice, ?_, habout, rfl, live_noting carrier d notice, fun as n timeout request => ?_, fun as q' answer => ?_⟩
  · rw [run_finish_error, hnotice]
    rfl
  · exact result_noting carrier d notice as fun ms => heedless_begin carrier ms n timeout request
  · exact result_noting carrier d notice as fun ms => heedless_finish ms q' answer

end Desk

namespace Exchange

variable {L : Type}

/-- What a failure with a notice does to a request, whatever else is under way. -/
structure FailsApart (carrier : Carrier L) (x : Exchange L) (q : Query) (cause : Failure) : Prop where
  /-- One that waits for its answer ends false, and all that it leaves is a notice. -/
  waiting : ∀ number, Keyed.get? number x.underWay = some q →
    ∃ d' notice, Desk.LeavesAlone carrier q cause x.desk d' notice ∧
      x.settle number (.error cause) =
        (some (.ok false), { x with desk := d', underWay := Keyed.erase number x.underWay })
  /-- So does one that cannot be sent; its ticket was taken when it began. -/
  unsent : ∀ n timeout request y, x.begin carrier n timeout request = (.ok q, y) →
    y = { x with desk := x.desk.served (x.aim? request) } ∧
    ∃ d' notice, Desk.LeavesAlone carrier q cause y.desk d' notice ∧ y.refuse q cause = (.ok false, { y with desk := d' })

theorem refuse_eq (x : Exchange L) (q : Query) (cause : Failure) :
    x.refuse q cause =
      (((Desk.finish (L := L) q (.error cause)).run.run x.desk).1,
        { x with desk := ((Desk.finish q (.error cause)).run.run x.desk).2 }) := rfl

/-- Whatever else is under way, a request that fails is false, leaves one notice, and changes nothing else. -/
theorem failed_leaves_alone (carrier : Carrier L) (x : Exchange L) (q : Query) {cause : Failure}
    (h : cause.isNoted = true) : x.FailsApart carrier q cause where
  waiting number hq := by
    obtain ⟨notice, hrun, halone⟩ := Desk.run_finish_noted carrier x.desk q h
    refine ⟨_, notice, halone, ?_⟩
    rw [settle_eq hq, hrun]
  unsent n timeout request y hbegin := by
    obtain ⟨o, hbegun, -⟩ := begin_eq carrier x n timeout request
    obtain ⟨-, rfl⟩ := Prod.mk.inj (hbegun.symm.trans hbegin)
    obtain ⟨notice, hrun, halone⟩ := Desk.run_finish_noted carrier (x.desk.served (x.aim? request)) q h
    refine ⟨rfl, _, notice, halone, ?_⟩
    rw [refuse_eq, hrun]

/-- A check is sent, then a search, and the check is answered. -/
def searchLeft (s : Session) : Exchange Unit :=
  (idle s [.ofText "" "" ""] ()).follow silent
    [.ask 0 .null (.question (.text "check") (.text "nat") .cursor), .ask 0 .null (.search (.text "_ + 0") .cursor),
      .answer 0 (.ok (.text "nat : Set"))]

/-- The search is refused while the answer of the check is on the pane, which stays. -/
theorem failed_leaves_alone_searchRefused : ∃ s : Session, Session.create (.object []) "" = .ok s ∧
    let refused : Failure := .refused (.text "vscoq/search") .null (.int 1) (.text "no such pattern")
    refused.isNoted = true ∧ (searchLeft s).desk.session.queryPane.lines = ["nat : Set"] ∧
      ∃ q, Keyed.get? 1 (searchLeft s).underWay = some q ∧
        ∃ d' notice, Desk.LeavesAlone silent q refused (searchLeft s).desk d' notice ∧
          (searchLeft s).settle 1 (.error refused) =
            (some (.ok false), { searchLeft s with desk := d', underWay := Keyed.erase 1 (searchLeft s).underWay }) := by
  obtain ⟨s, created⟩ : ∃ s, Session.create (.object []) "" = .ok s := ⟨_, rfl⟩
  obtain ⟨q, hq⟩ : ∃ q, Keyed.get? 1 (searchLeft s).underWay = some q := by
    refine Option.isSome_iff_exists.mp ?_
    cases created
    decide +kernel
  refine ⟨s, created, rfl, ?_, q, hq, (failed_leaves_alone silent (searchLeft s) q rfl).waiting 1 hq⟩
  cases created
  decide +kernel

end Exchange
end CoqConsole
