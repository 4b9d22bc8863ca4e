import CoqConsole.Proofs.Session.Moments
import Mathlib.Data.List.Pairwise

/-!
# Histories of an exchange

A run of a session is a list of events, in any order: requests are begun, sent, refused and answered, hits come,
and the rest of the session changes in any way. Its history is what the events come to, moment by moment.

* `Exchange.Event`, `Exchange.after`, `Exchange.follow` : the runs;
* `Exchange.moments`, `Exchange.history` : what befell requests and searches on the way;
* `Exchange.verdict?` : the call that an event ends, and how it ends;
* `Exchange.Recorded` : the history is in order, the board is the one that it leaves, and the requests under way
  have begun and not ended; `recorded_after` is the step, `recorded_follow` the run.
-/

namespace CoqConsole

def Session.withBoard (s : Session) (b : Board) : Session :=
  { s with tickets := b.tickets, queryPane := b.pane, shownSearch := b.shown }

namespace Exchange

/-- A link that takes every notification and names no encoding. -/
def silent : Carrier Unit := ⟨fun _ _ link => .ok link, fun _ => .null⟩

/-- A hit of the first search of a session. -/
def firstHit : Json := .object [("id", .text "1"), ("name", .text "plus_n_O"), ("statement", .text "True")]

inductive Event (L : Type)
  /-- A request about a buffer is begun and, if that succeeds, sent. -/
  | ask (buffer : Nat) (timeout : Json) (request : Request)
  /-- A request is begun and cannot be sent. -/
  | refuse (buffer : Nat) (timeout : Json) (request : Request) (cause : Failure)
  /-- A request under way is answered, or is told that it will not be. -/
  | answer (number : Nat) (answer : Except Failure Json)
  /-- A notification of a hit comes. -/
  | hit (params : Json)
  /-- Anything happens that leaves the board alone. -/
  | elsewhere (desk : Desk L)

variable {L : Type} (carrier : Carrier L)

def idle (s : Session) (buffers : List (Buffer Reaction Mark)) (link : L) : Exchange L :=
  ⟨⟨s, buffers, link⟩, [], 0⟩

def board (x : Exchange L) : Board := x.desk.session.board

def aim? (x : Exchange L) (r : Request) : Option Aim := x.desk.session.tickets.aim? r

def after (x : Exchange L) : Event L → Exchange L
  | .ask n timeout r =>
    match x.begin carrier n timeout r with
    | (.ok q, x) => (x.post q).2
    | (.error _, x) => x
  | .refuse n timeout r cause =>
    match x.begin carrier n timeout r with
    | (.ok q, x) => (x.refuse q cause).2
    | (.error _, x) => x
  | .answer number answer => (x.settle number answer).2
  | .hit params => (x.perform (Desk.hear carrier params .searchHit)).2
  | .elsewhere d => { x with desk := { d with session := d.session.withBoard x.board } }

def follow (x : Exchange L) (es : List (Event L)) : Exchange L := es.foldl (after carrier) x

def moments (x : Exchange L) : Event L → List Moment
  | .ask _ _ r => (x.aim? r).toList.map .begun
  | .refuse n timeout r cause =>
    (x.aim? r).toList.map .begun ++
      match x.begin carrier n timeout r with
      | (.ok q, _) => [.ended q.aim (.error cause)]
      | (.error _, _) => []
  | .answer number answer =>
    match Keyed.get? number x.underWay with
    | some q => [.ended q.aim answer]
    | none => []
  | .hit params => [.heard params]
  | .elsewhere _ => []

def history (x : Exchange L) : List (Event L) → List Moment
  | [] => []
  | e :: es => x.moments carrier e ++ (x.after carrier e).history es

/-- The call that an event ends: what it was for, and its result. -/
def verdict? (x : Exchange L) : Event L → Option (Aim × Except Failure Bool)
  | .ask n timeout r =>
    match x.begin carrier n timeout r with
    | (.ok _, _) => none
    | (.error cause, _) => (x.aim? r).map fun aim => (aim, .error cause)
  | .refuse n timeout r cause =>
    match x.begin carrier n timeout r with
    | (.ok q, x) => some (q.aim, (x.refuse q cause).1)
    | (.error cause, _) => (x.aim? r).map fun aim => (aim, .error cause)
  | .answer number answer =>
    match Keyed.get? number x.underWay with
    | some q => (x.settle number answer).1.map fun r => (q.aim, r)
    | none => none
  | .hit _ => none
  | .elsewhere _ => none

theorem follow_append (x : Exchange L) (es fs : List (Event L)) :
    x.follow carrier (es ++ fs) = (x.follow carrier es).follow carrier fs := List.foldl_append

theorem history_append (x : Exchange L) (es fs : List (Event L)) :
    x.history carrier (es ++ fs) = x.history carrier es ++ (x.follow carrier es).history carrier fs := by
  induction es generalizing x with
  | nil => rfl
  | cons e es ih => rw [List.cons_append, history, ih, history, List.append_assoc, follow, follow, List.foldl_cons]

theorem moments_heard (x : Exchange L) (e : Event L) {params : Json} (h : .heard params ∈ x.moments carrier e) :
    x.moments carrier e = [.heard params] := by
  cases e with
  | ask n timeout r =>
    obtain ⟨_, _, hu⟩ := List.mem_map.mp h
    cases hu
  | refuse n timeout r cause =>
    rcases List.mem_append.mp h with h | h
    · obtain ⟨_, _, hu⟩ := List.mem_map.mp h
      cases hu
    · split at h
      · cases List.mem_singleton.mp h
      · cases h
  | answer number answer =>
    rw [moments] at h
    split at h
    · cases List.mem_singleton.mp h
    · cases h
  | hit params' => rw [moments, List.mem_singleton.mp h]
  | elsewhere d => cases h

/-- A history up to a hit is the history of a run. -/
theorem exists_history_heard (x : Exchange L) (es : List (Event L)) {ts us : List Moment} {params : Json}
    (h : x.history carrier es = ts ++ .heard params :: us) :
    ∃ fs, fs <+: es ∧ x.history carrier fs = ts ++ [.heard params] := by
  induction es generalizing x ts with
  | nil => simp [history] at h
  | cons e es ih =>
    rw [history] at h
    rcases List.append_eq_append_iff.mp h with ⟨vs, rfl, hrest⟩ | ⟨vs, he, hrest⟩
    · obtain ⟨fs, hfs, heq⟩ := ih (x.after carrier e) hrest
      refine ⟨e :: fs, List.cons_prefix_cons.mpr ⟨rfl, hfs⟩, ?_⟩
      rw [history, heq, List.append_assoc]
    · cases vs with
      | nil =>
        rw [List.append_nil] at he
        obtain ⟨fs, hfs, heq⟩ := ih (x.after carrier e)
          (show _ = [] ++ .heard params :: us from hrest.symm)
        refine ⟨e :: fs, List.cons_prefix_cons.mpr ⟨rfl, hfs⟩, ?_⟩
        rw [history, heq, he, List.nil_append]
      | cons v vs =>
        cases hrest
        have hmem : .heard params ∈ x.moments carrier e := by rw [he]; simp
        have hsingle := moments_heard carrier x e hmem
        rw [he] at hsingle
        obtain ⟨rfl, rfl⟩ : ts = [] ∧ vs = [] := by
          cases ts with
          | nil => simpa using hsingle
          | cons t ts => simp at hsingle
        refine ⟨[e], List.cons_prefix_cons.mpr ⟨rfl, List.nil_prefix⟩, ?_⟩
        rw [history, history, List.append_nil, he]

/-! ## Events, case by case -/

/-- A request is begun. Only the session's tickets change. -/
theorem begin_eq (x : Exchange L) (n : Nat) (timeout : Json) (r : Request) :
    ∃ o, x.begin carrier n timeout r = (o, { x with desk := x.desk.served (x.aim? r) }) ∧
      ∀ q, o = .ok q → x.aim? r = some q.aim := by
  obtain ⟨o, h, haim⟩ := Desk.run_begin carrier x.desk n timeout r
  refine ⟨o, ?_, haim⟩
  rw [begin, perform, h]
  rfl

theorem settle_eq {x : Exchange L} {number : Nat} {q : Query} (h : Keyed.get? number x.underWay = some q)
    (answer : Except Failure Json) :
    x.settle number answer =
      (some ((Desk.finish (L := L) q answer).run.run x.desk).1,
        { desk := ((Desk.finish q answer).run.run x.desk).2
          underWay := Keyed.erase number x.underWay
          sent := x.sent }) := by
  rw [settle, h]
  rfl

theorem settle_eq_of_none {x : Exchange L} {number : Nat} (h : Keyed.get? number x.underWay = none)
    (answer : Except Failure Json) : x.settle number answer = (none, x) := by
  rw [settle, h]

/-- On the board an event is its moments. -/
theorem board_after (x : Exchange L) (e : Event L) :
    (x.after carrier e).board = (x.moments carrier e).foldl Board.take x.board := by
  cases e with
  | ask n timeout r =>
    obtain ⟨o, h, -⟩ := begin_eq carrier x n timeout r
    have hboard : ({ x with desk := x.desk.served (x.aim? r) } : Exchange L).board =
        (((x.aim? r).toList.map Moment.begun).foldl Board.take x.board) := by
      cases x.aim? r <;> rfl
    rw [after, moments, h, ← hboard]
    cases o <;> rfl
  | refuse n timeout r cause =>
    obtain ⟨o, h, -⟩ := begin_eq carrier x n timeout r
    have hboard : ({ x with desk := x.desk.served (x.aim? r) } : Exchange L).board =
        (((x.aim? r).toList.map Moment.begun).foldl Board.take x.board) := by
      cases x.aim? r <;> rfl
    rw [after, moments, h, List.foldl_append, ← hboard]
    cases o with
    | error _ => rfl
    | ok q => exact Desk.board_finish (x.desk.served (x.aim? r)) q (.error cause)
  | answer number answer =>
    rw [after, moments]
    cases h : Keyed.get? number x.underWay with
    | none => rw [settle_eq_of_none h]; rfl
    | some q =>
      rw [settle_eq h]
      exact Desk.board_finish x.desk q answer
  | hit params => exact Desk.board_hearSearchHit x.desk params
  | elsewhere d => rfl

/-! ## Requests on record -/

/-- What the requests under way have to do with a history: each has begun and not ended, and no two are one.
Resets have no tickets and do not count. -/
structure Filed (underWay : List (Nat × Query)) (sent : Nat) (ts : List Moment) : Prop where
  numbered : ∀ p ∈ underWay, p.1 < sent
  distinct : (Keyed.keys underWay).Nodup
  begun : ∀ p ∈ underWay, p.2.aim ≠ .reset → .begun p.2.aim ∈ ts
  unended : ∀ p ∈ underWay, p.2.aim ≠ .reset → ∀ a, .ended p.2.aim a ∉ ts
  single : underWay.Pairwise fun p p' => p.2.aim ≠ .reset → p.2.aim ≠ p'.2.aim

namespace Filed

variable {underWay : List (Nat × Query)} {sent : Nat} {ts : List Moment} (h : Filed underWay sent ts)
include h

/-- Moments that end nothing under way. -/
theorem aside {us : List Moment} (hus : ∀ p ∈ underWay, p.2.aim ≠ .reset → ∀ a, .ended p.2.aim a ∉ us) :
    Filed underWay sent (ts ++ us) where
  numbered := h.numbered
  distinct := h.distinct
  begun := fun p hp hne => List.mem_append_left _ (h.begun p hp hne)
  unended := fun p hp hne a hmem => by
    rcases List.mem_append.mp hmem with hmem | hmem
    · exact h.unended p hp hne a hmem
    · exact hus p hp hne a hmem
  single := h.single

/-- A request that has begun and not ended is filed. -/
theorem post {q : Query} (hbegun : q.aim ≠ .reset → .begun q.aim ∈ ts)
    (hunended : q.aim ≠ .reset → ∀ a, .ended q.aim a ∉ ts)
    (hsingle : ∀ p ∈ underWay, p.2.aim ≠ .reset → p.2.aim ≠ q.aim) :
    Filed (underWay ++ [(sent, q)]) (sent + 1) ts where
  numbered := fun p hp => by
    rcases List.mem_append.mp hp with hp | hp
    · exact Nat.lt_succ_of_lt (h.numbered p hp)
    · rw [List.mem_singleton.mp hp]
      exact Nat.lt_succ_self _
  distinct := Keyed.nodup_append_single h.distinct fun hmem => by
    obtain ⟨p, hp, he⟩ := List.mem_map.mp hmem
    have := h.numbered p hp
    omega
  begun := fun p hp => by
    rcases List.mem_append.mp hp with hp | hp
    · exact h.begun p hp
    · rw [List.mem_singleton.mp hp]
      exact hbegun
  unended := fun p hp => by
    rcases List.mem_append.mp hp with hp | hp
    · exact h.unended p hp
    · rw [List.mem_singleton.mp hp]
      exact hunended
  single := List.pairwise_append.mpr ⟨h.single, List.pairwise_singleton _ _, fun p hp p' hp' => by
    rw [List.mem_singleton.mp hp']
    exact hsingle p hp⟩

theorem erase (number : Nat) : Filed (Keyed.erase number underWay) sent ts where
  numbered := fun p hp => h.numbered p (Keyed.mem_erase.mp hp).1
  distinct := Keyed.nodup_erase h.distinct
  begun := fun p hp => h.begun p (Keyed.mem_erase.mp hp).1
  unended := fun p hp => h.unended p (Keyed.mem_erase.mp hp).1
  single := h.single.sublist List.filter_sublist

/-- Requests under other numbers have other tickets. -/
theorem aim_ne {number : Nat} {q : Query} (hq : Keyed.get? number underWay = some q)
    {p : Nat × Query} (hp : p ∈ Keyed.erase number underWay) (hne : p.2.aim ≠ .reset) : p.2.aim ≠ q.aim := by
  obtain ⟨hmem, hnumber⟩ := Keyed.mem_erase.mp hp
  have hsymm : Std.Symm fun p p' : Nat × Query => p.2.aim ≠ .reset → p.2.aim ≠ p'.2.aim :=
    ⟨fun p p' hpp hp' he => hpp (fun hr => hp' (he.trans hr)) he.symm⟩
  have hdiff : p ≠ (number, q) := fun he => hnumber (by rw [he])
  exact h.single.forall hmem (Keyed.mem_of_get? hq) hdiff hne

theorem settle {number : Nat} {q : Query} (hq : Keyed.get? number underWay = some q)
    (answer : Except Failure Json) : Filed (Keyed.erase number underWay) sent (ts ++ [.ended q.aim answer]) := by
  refine (h.erase number).aside fun p hp hne a hmem => ?_
  exact h.aim_ne hq hp hne (Moment.ended.inj (List.mem_singleton.mp hmem)).1

end Filed

/-- What an exchange has to do with its history. -/
structure Recorded (x : Exchange L) (ts : List Moment) : Prop where
  orderly : Orderly ts
  board : x.board = .after ts
  filed : Filed x.underWay x.sent ts

namespace Recorded

theorem idle {overrides : Json} {ns : String} {s : Session} (h : Session.create overrides ns = .ok s)
    (buffers : List (Buffer Reaction Mark)) (link : L) : (idle s buffers link).Recorded [] where
  orderly := .nil
  board := board_create h
  filed :=
    { numbered := fun _ hp => absurd hp List.not_mem_nil
      distinct := List.nodup_nil
      begun := fun _ hp => absurd hp List.not_mem_nil
      unended := fun _ hp => absurd hp List.not_mem_nil
      single := List.Pairwise.nil }

variable {x : Exchange L} {ts : List Moment} (h : x.Recorded ts)
include h

theorem tickets : x.desk.session.tickets.Recorded ts := by
  have hboard := congrArg Board.tickets h.board
  rw [show x.desk.session.tickets = (Board.after ts).tickets from hboard]
  exact h.orderly.recorded

theorem due_begun {r : Request} {aim : Aim} (haim : x.aim? r = some aim) : (Moment.begun aim).Due ts := by
  intro p hp
  rw [← h.tickets.issued]
  cases r with
  | search => cases haim; cases hp; rfl
  | question kind =>
    simp only [aim?, Tickets.aim?] at haim
    split at haim
    · cases haim; cases hp; rfl
    · cases haim
  | reset => cases haim; cases hp

/-- The next request is for nothing that is in the history. -/
theorem begun_notMem {r : Request} {aim : Aim} (haim : x.aim? r = some aim) (hne : aim ≠ .reset) :
    .begun aim ∉ ts := by
  intro hmem
  have hdue := h.due_begun haim
  have hcounted := h.tickets.counted
  rw [h.tickets.issued] at hcounted
  cases aim with
  | search t =>
    have ht := hdue _ rfl
    have := hcounted _ (mem_taken_search.mpr hmem)
    omega
  | question t =>
    have ht := hdue _ rfl
    have := hcounted _ (mem_taken_question.mpr hmem)
    omega
  | reset => exact hne rfl

/-- The history with the ticket of the next request. -/
theorem orderly_begun (r : Request) : Orderly (ts ++ (x.aim? r).toList.map .begun) := by
  cases haim : x.aim? r with
  | none =>
    rw [Option.toList_none, List.map_nil, List.append_nil]
    exact h.orderly
  | some aim => exact .snoc h.orderly (h.due_begun haim)

theorem filed_begun (r : Request) : Filed x.underWay x.sent (ts ++ (x.aim? r).toList.map .begun) := by
  refine h.filed.aside fun p hp hne a hmem => ?_
  obtain ⟨_, _, hu⟩ := List.mem_map.mp hmem
  cases hu

/-- A request that took its ticket has begun, has not ended, and is not under way. -/
theorem begun_next {r : Request} {aim : Aim} (haim : x.aim? r = some aim) (hne : aim ≠ .reset) :
    .begun aim ∈ ts ++ (x.aim? r).toList.map .begun ∧
      (∀ a, .ended aim a ∉ ts ++ (x.aim? r).toList.map .begun) ∧ ∀ p ∈ x.underWay, p.2.aim ≠ aim := by
  have hnew := h.begun_notMem haim hne
  refine ⟨?_, fun a hmem => ?_, fun p hp he => ?_⟩
  · rw [haim]
    exact List.mem_append_right _ (List.mem_singleton_self _)
  · rcases List.mem_append.mp hmem with hmem | hmem
    · exact hnew (h.orderly.begun_of_ended hmem hne)
    · obtain ⟨_, _, hu⟩ := List.mem_map.mp hmem
      cases hu
  · exact hnew (he ▸ h.filed.begun p hp (he ▸ hne))

end Recorded

theorem orderly_after {x : Exchange L} {ts : List Moment} (h : x.Recorded ts) (e : Event L) :
    Orderly (ts ++ x.moments carrier e) := by
  cases e with
  | ask n timeout r => exact h.orderly_begun r
  | refuse n timeout r cause =>
    obtain ⟨o, hbegin, haim⟩ := begin_eq carrier x n timeout r
    rw [moments, hbegin, ← List.append_assoc]
    cases o with
    | error _ => rw [List.append_nil]; exact h.orderly_begun r
    | ok q =>
      refine .snoc (h.orderly_begun r) fun hne => ?_
      obtain ⟨hbegun, hunended, -⟩ := h.begun_next (haim q rfl) hne
      exact ⟨hbegun, hunended⟩
  | answer number answer =>
    rw [moments]
    cases hq : Keyed.get? number x.underWay with
    | none => rw [List.append_nil]; exact h.orderly
    | some q =>
      have hmem := Keyed.mem_of_get? hq
      exact .snoc h.orderly fun hne => ⟨h.filed.begun _ hmem hne, h.filed.unended _ hmem hne⟩
  | hit params => exact .snoc h.orderly trivial
  | elsewhere d => rw [moments, List.append_nil]; exact h.orderly

theorem filed_after {x : Exchange L} {ts : List Moment} (h : x.Recorded ts) (e : Event L) :
    Filed (x.after carrier e).underWay (x.after carrier e).sent (ts ++ x.moments carrier e) := by
  cases e with
  | ask n timeout r =>
    obtain ⟨o, hbegin, haim⟩ := begin_eq carrier x n timeout r
    rw [after, moments, hbegin]
    cases o with
    | error _ => exact h.filed_begun r
    | ok q =>
      have hnext := fun hne => h.begun_next (haim q rfl) hne
      exact (h.filed_begun r).post (fun hne => (hnext hne).1) (fun hne => (hnext hne).2.1)
        fun p hp hne he => (hnext (he ▸ hne)).2.2 p hp he
  | refuse n timeout r cause =>
    obtain ⟨o, hbegin, haim⟩ := begin_eq carrier x n timeout r
    rw [after, moments, hbegin, ← List.append_assoc]
    cases o with
    | error _ => rw [List.append_nil]; exact h.filed_begun r
    | ok q =>
      refine (h.filed_begun r).aside fun p hp hne a hmem => ?_
      have haims := (Moment.ended.inj (List.mem_singleton.mp hmem)).1
      exact (h.begun_next (haim q rfl) (haims ▸ hne)).2.2 p hp haims
  | answer number answer =>
    rw [after, moments]
    cases hq : Keyed.get? number x.underWay with
    | none => rw [settle_eq_of_none hq, List.append_nil]; exact h.filed
    | some q => rw [settle_eq hq]; exact h.filed.settle hq answer
  | hit params =>
    refine h.filed.aside fun p hp hne a hmem => ?_
    cases List.mem_singleton.mp hmem
  | elsewhere d => rw [moments, List.append_nil]; exact h.filed

theorem recorded_after {x : Exchange L} {ts : List Moment} (h : x.Recorded ts) (e : Event L) :
    (x.after carrier e).Recorded (ts ++ x.moments carrier e) where
  orderly := orderly_after carrier h e
  board := by rw [board_after, h.board, Board.after_append]
  filed := filed_after carrier h e

theorem recorded_follow {x : Exchange L} {ts : List Moment} (h : x.Recorded ts) (es : List (Event L)) :
    (x.follow carrier es).Recorded (ts ++ x.history carrier es) := by
  induction es generalizing x ts with
  | nil => rwa [history, List.append_nil]
  | cons e es ih =>
    rw [history, ← List.append_assoc]
    exact ih (recorded_after carrier h e)

end Exchange
end CoqConsole
