import CoqConsole.Proofs.Operation
import CoqConsole.Proofs.Tickets
import CoqConsole.Session.Exchange
import CoqConsole.Session.Hearing

/-!
# The board of a session

Searches and questions share three things of a session: the tickets, the query pane, and the note of the
search whose hits fill that pane. Together they are its board.

* `Moment` : what befalls requests and searches;
* `Writing` : what is written to the query pane, and for whom;
* `Board.writings`, `Board.take` : what a moment writes, and the board after it;
* `run_begin`, `run_finish_search`, `run_finish_question`, `run_finish_error`, `run_hearSearchHit` : what the
  operations of a session do, as equations;
* `board_finish`, `board_hearSearchHit` : on the board, each of them is one moment.
-/

namespace CoqConsole

/-! ## Moments -/

/-- What befalls a request or a search. -/
inductive Moment
  /-- A request took its ticket, whether it is sent or not. -/
  | begun (aim : Aim)
  /-- A request ended by its answer. -/
  | ended (aim : Aim) (answer : Except Failure Json)
  /-- A notification of a hit came. -/
  | heard (params : Json)

def Aim.channel? : Aim → Option String
  | .search _ => some searchChannel
  | .question _ => some questionChannel
  | .reset => none

/-- What the next request would be for. A question of no known kind takes no ticket. -/
def Tickets.aim? (t : Tickets String) : Request → Option Aim
  | .search .. => some (.search (t.issued + 1))
  | .question kind .. => if isQuestion kind then some (.question (t.issued + 1)) else Option.none
  | .reset => some .reset

def Tickets.serve (t : Tickets String) (aim : Option Aim) : Tickets String :=
  match aim.bind Aim.channel? with
  | some channel => (t.issue channel).2
  | Option.none => t

/-! ## Boards -/

/-- What is written to the query pane, and for whom. -/
inductive Writing
  /-- The pane is emptied for a search. -/
  | emptied (search : Int)
  /-- The answer of a question replaces everything. -/
  | answer (ticket : Nat) (lines : List String)
  /-- A hit of a search is added. -/
  | hit (search : Int) (lines : List String)

namespace Writing

def onPane : Writing → PaneWrite
  | emptied _ => .clear
  | answer _ lines => .replace lines
  | hit _ lines => .append lines

def shown (before : Option Int) : Writing → Option Int
  | emptied search => some search
  | _ => before

end Writing

/-- The part of a session that searches and questions share. -/
structure Board where
  tickets : Tickets String
  pane : Pane
  /-- The search whose hits fill the pane. -/
  shown : Option Int

def Session.board (s : Session) : Board := ⟨s.tickets, s.queryPane, s.shownSearch⟩

namespace Board

/-- What makes room for a search: nothing if it is shown already. -/
def opening (b : Board) (search : Int) : List Writing :=
  if b.shown = some search then [] else [.emptied search]

def writings (b : Board) : Moment → List Writing
  | .ended (.search t) (.ok _) => if b.tickets.accept searchChannel t then b.opening t else []
  | .ended (.question t) (.ok value) =>
    if b.tickets.accept questionChannel t then
      match renderAnswer value with
      | .ok lines => [.answer t lines]
      | .error _ => []
    else []
  | .heard params =>
    match SearchHit.ofJson params with
    | .ok hit =>
      if b.tickets.accept searchChannel hit.id then
        match hit.render with
        | .ok lines => b.opening hit.id ++ [.hit hit.id lines]
        | .error _ => b.opening hit.id
      else []
    | .error _ => []
  | _ => []

def write (b : Board) (w : Writing) : Board :=
  { b with pane := b.pane.write w.onPane, shown := w.shown b.shown }

def writeAll (b : Board) (ws : List Writing) : Board := ws.foldl write b

def serve (b : Board) (aim : Option Aim) : Board := { b with tickets := b.tickets.serve aim }

def take (b : Board) : Moment → Board
  | .begun aim => b.serve (some aim)
  | u => b.writeAll (b.writings u)

theorem take_ended (b : Board) (aim : Aim) (answer : Except Failure Json) :
    b.take (.ended aim answer) = b.writeAll (b.writings (.ended aim answer)) := rfl

theorem take_heard (b : Board) (params : Json) :
    b.take (.heard params) = b.writeAll (b.writings (.heard params)) := rfl

theorem tickets_writeAll (b : Board) (ws : List Writing) : (b.writeAll ws).tickets = b.tickets := by
  induction ws generalizing b with
  | nil => rfl
  | cons w ws ih => exact ih (b.write w)

theorem writeAll_append (b : Board) (ws vs : List Writing) :
    b.writeAll (ws ++ vs) = (b.writeAll ws).writeAll vs := List.foldl_append

end Board

/-! ## Operations -/

namespace Desk

variable {L : Type} (carrier : Carrier L) (d : Desk L)

def served (aim : Option Aim) : Desk L :=
  { d with session := { d.session with tickets := d.session.tickets.serve aim } }

theorem run_wirePlace (n : Nat) (p : Place) : ∃ r, (wirePlace carrier n p).run.run d = (r, d) := by
  unfold wirePlace encoding buffer
  simp only [run_bind, run_get, run_pure]
  exact ⟨_, run_lift _ d⟩

/-- A request takes its ticket before anything can fail, and changes nothing else. -/
theorem run_begin (n : Nat) (timeout : Json) (r : Request) :
    ∃ o, (begin carrier n timeout r).run.run d = (o, d.served (d.session.tickets.aim? r)) ∧
      ∀ q, o = .ok q → d.session.tickets.aim? r = some q.aim := by
  cases r with
  | search pattern p =>
    obtain ⟨place, hplace⟩ := run_wirePlace carrier (d.served (d.session.tickets.aim? (.search pattern p))) n p
    simp only [begin, beginSearch, run_bind]
    have hissue : (issue searchChannel).run.run d =
      (.ok (d.session.tickets.issued + 1), d.served (d.session.tickets.aim? (.search pattern p))) := rfl
    rw [hissue]
    simp only [hplace]
    cases place with
    | error cause => exact ⟨_, rfl, fun q h => by cases h⟩
    | ok place => exact ⟨_, rfl, fun q h => by cases h; rfl⟩
  | question kind pattern p =>
    simp only [begin, beginQuestion, run_bind, run_ite, run_throw, run_pure, Tickets.aim?]
    by_cases hk : isQuestion kind = true
    · obtain ⟨place, hplace⟩ := run_wirePlace carrier (d.served (some (.question (d.session.tickets.issued + 1)))) n p
      have hissue : (issue questionChannel).run.run d =
        (.ok (d.session.tickets.issued + 1), d.served (some (.question (d.session.tickets.issued + 1)))) := rfl
      simp only [if_pos hk, hissue, hplace]
      cases place with
      | error cause => exact ⟨_, rfl, fun q h => by cases h⟩
      | ok place => exact ⟨_, rfl, fun q h => by cases h; rfl⟩
    · simp only [if_neg hk]
      exact ⟨_, rfl, fun q h => by cases h⟩
  | reset => exact ⟨_, rfl, fun q h => by cases h; rfl⟩

variable (q : Query)

theorem run_finish_search {ticket : Nat} (h : q.aim = .search ticket) (value : Json) :
    (finish q (.ok value)).run.run d = (.ok true,
      if d.session.tickets.accept searchChannel ticket then ((showSearch ticket).run.run d).2 else d) := by
  simp only [finish, h, accepts, run_bind, run_get, run_pure, run_ite]
  split <;> rfl

theorem run_finish_question {ticket : Nat} (h : q.aim = .question ticket) (value : Json) :
    (finish q (.ok value)).run.run d =
      if d.session.tickets.accept questionChannel ticket then
        match renderAnswer value with
        | .ok lines =>
          (.ok true, { d with session := { d.session with queryPane := d.session.queryPane.write (.replace lines) } })
        | .error cause => (.error cause, d)
      else (.ok false, d) := by
  simp only [finish, h, accepts, run_bind, run_get, run_pure, run_ite, run_lift]
  split
  · cases renderAnswer value <;> rfl
  · rfl

theorem run_finish_reset (h : q.aim = .reset) (value : Json) :
    (finish q (.ok value)).run.run d = (.ok true, d) := by
  simp only [finish, h, run_pure]

theorem run_finish_error (cause : Failure) :
    (finish q (.error cause)).run.run d =
      match q.notice? cause with
      | some notice => (.ok false, { d with session := { d.session with notices := d.session.notices ++ [notice] } })
      | none => (.error cause, d) := by
  simp only [finish]
  cases q.notice? cause <;> rfl

theorem run_hearSearchHit (params : Json) :
    (hearSearchHit params).run.run d =
      match SearchHit.ofJson params with
      | .error cause => (.error cause, d)
      | .ok hit =>
        if d.session.tickets.accept searchChannel hit.id then
          let d := ((showSearch (L := L) hit.id).run.run d).2
          match hit.render with
          | .error cause => (.error cause, d)
          | .ok lines =>
            (.ok (), { d with session := { d.session with queryPane := d.session.queryPane.write (.append lines) } })
        else (.ok (), d) := by
  simp only [hearSearchHit, accepts, run_bind, run_get, run_pure, run_ite, run_lift]
  cases SearchHit.ofJson params with
  | error cause => rfl
  | ok hit =>
    simp only
    split
    · cases hit.render <;> rfl
    · rfl

/-! ## Operations as moments -/

theorem board_showSearch (search : Int) :
    ((showSearch (L := L) search).run.run d).2.session.board =
      d.session.board.writeAll (d.session.board.opening search) := by
  have hrun : ((showSearch (L := L) search).run.run d).2.session =
      if d.session.shownSearch = some search then d.session
      else { d.session with shownSearch := some search, queryPane := d.session.queryPane.write .clear } := rfl
  rw [hrun, Board.opening, show d.session.board.shown = d.session.shownSearch from rfl]
  by_cases h : d.session.shownSearch = some search
  · rw [if_pos h, if_pos h]
    rfl
  · rw [if_neg h, if_neg h]
    rfl

theorem board_finish (answer : Except Failure Json) :
    ((finish q answer).run.run d).2.session.board = d.session.board.take (.ended q.aim answer) := by
  rw [Board.take_ended]
  cases answer with
  | error cause =>
    rw [run_finish_error]
    have hnone : d.session.board.writings (.ended q.aim (.error cause)) = [] := by cases q.aim <;> rfl
    rw [hnone]
    split <;> rfl
  | ok value =>
    cases h : q.aim with
    | search ticket =>
      rw [run_finish_search d q h, Board.writings, show d.session.board.tickets = d.session.tickets from rfl]
      by_cases hacc : d.session.tickets.accept searchChannel ticket = true
      · rw [if_pos hacc, if_pos hacc]
        exact board_showSearch d ticket
      · rw [if_neg hacc, if_neg hacc]
        rfl
    | question ticket =>
      rw [run_finish_question d q h, Board.writings, show d.session.board.tickets = d.session.tickets from rfl]
      by_cases hacc : d.session.tickets.accept questionChannel ticket = true
      · rw [if_pos hacc, if_pos hacc]
        cases renderAnswer value <;> rfl
      · rw [if_neg hacc, if_neg hacc]
        rfl
    | reset =>
      rw [run_finish_reset d q h]
      rfl

theorem board_hearSearchHit (params : Json) :
    ((hearSearchHit params).run.run d).2.session.board = d.session.board.take (.heard params) := by
  rw [Board.take_heard, run_hearSearchHit, Board.writings, show d.session.board.tickets = d.session.tickets from rfl]
  cases SearchHit.ofJson params with
  | error cause => rfl
  | ok hit =>
    simp only
    have hshow := board_showSearch d hit.id
    by_cases hacc : d.session.tickets.accept searchChannel hit.id = true
    · rw [if_pos hacc, if_pos hacc]
      cases hit.render with
      | error cause => exact hshow
      | ok lines =>
        rw [Board.writeAll_append, ← hshow]
        rfl
    · rw [if_neg hacc, if_neg hacc]
      rfl

end Desk
end CoqConsole
