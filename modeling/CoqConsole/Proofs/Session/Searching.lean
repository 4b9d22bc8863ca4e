import CoqConsole.Proofs.Session.History
import CoqConsole.Proofs.Session.Standing
import Mathlib.Data.List.TakeWhile

/-!
# Sessions that only search

Without questions the query pane belongs to the search that is shown.

* `hitLines` : the lines of the hits of a search that came before a later search began;
* `lines_searching` : they are the pane's lines, if that search is shown;
* `le_latest_of_shown`, `shown_mono` : the shown search has begun, and is never replaced by an earlier one;
* `pane_searching` : all of it in every state of a run.
-/

namespace CoqConsole

def Moment.beginsAfter (s : Int) (u : Moment) : Bool :=
  match u.taken? with
  | some (channel, t) => channel == searchChannel && decide (s < t)
  | none => false

def Writing.linesOf (s : Int) : Writing → List String
  | .hit search lines => if search = s then lines else []
  | _ => []

/-- The lines of the hits of a search that came before a later search began, in the order in which they came. -/
def hitLines (s : Int) (ts : List Moment) : List String :=
  (ts.takeWhile fun u => !u.beginsAfter s).flatMap fun u => u.offers.flatMap (Writing.linesOf s)

/-! ## Hits of a search -/

theorem exists_beginsAfter {s : Int} {ts : List Moment} :
    (∃ u ∈ ts, u.beginsAfter s = true) ↔ Overtaken searchChannel s ts := by
  constructor
  · rintro ⟨u, hu, h⟩
    unfold Moment.beginsAfter at h
    split at h
    · next channel t htaken =>
      rw [Bool.and_eq_true, beq_iff_eq, decide_eq_true_eq] at h
      exact ⟨(channel, t), List.mem_filterMap.mpr ⟨u, hu, htaken⟩, h.1, h.2⟩
    · cases h
  · rintro ⟨p, hp, hc, hlt⟩
    obtain ⟨u, hu, htaken⟩ := List.mem_filterMap.mp hp
    refine ⟨u, hu, ?_⟩
    simp [Moment.beginsAfter, htaken, hc, hlt]

theorem hitLines_snoc (s : Int) (ts : List Moment) (u : Moment) :
    hitLines s (ts ++ [u]) =
      hitLines s ts ++ if Overtaken searchChannel s ts then [] else u.offers.flatMap (Writing.linesOf s) := by
  unfold hitLines
  by_cases hover : Overtaken searchChannel s ts
  · obtain ⟨v, hv, hafter⟩ := exists_beginsAfter.mpr hover
    have hne : (ts.takeWhile fun u => !u.beginsAfter s).length ≠ ts.length := by
      intro hlength
      have htake := (List.takeWhile_prefix fun u : Moment => !u.beginsAfter s).eq_of_length hlength
      have := List.takeWhile_eq_self_iff.mp htake v hv
      simp [hafter] at this
    rw [if_pos hover, List.append_nil, List.takeWhile_append, if_neg hne]
  · have hall : ∀ v ∈ ts, (!v.beginsAfter s) = true := by
      intro v hv
      rw [Bool.not_eq_true']
      by_contra hafter
      exact hover (exists_beginsAfter.mp ⟨v, hv, by simpa using hafter⟩)
    rw [if_neg hover, List.takeWhile_append_of_pos hall, List.takeWhile_eq_self_iff.mpr hall, List.flatMap_append]
    congr 1
    cases hu : u.beginsAfter s with
    | false => simp [hu]
    | true =>
      have hnone : u.offers = [] := by
        cases u with
        | begun aim => rfl
        | ended aim answer => cases hu
        | heard params => cases hu
      simp [hu, hnone]

theorem offers_cases (u : Moment) :
    u.offers = [] ∨ (∃ t lines, u.offers = [.answer t lines]) ∨ ∃ s lines, u.offers = [.hit s lines] := by
  unfold Moment.offers
  split
  · split
    · exact .inr (.inl ⟨_, _, rfl⟩)
    · exact .inl rfl
  · split
    · split
      · exact .inr (.inr ⟨_, _, rfl⟩)
      · exact .inl rfl
    · exact .inl rfl
  · exact .inl rfl

theorem linesOf_eq_nil {s : Int} {u : Moment} (h : ∀ lines, u.offers ≠ [.hit s lines]) :
    u.offers.flatMap (Writing.linesOf s) = [] := by
  rcases offers_cases u with hu | ⟨t, lines, hu⟩ | ⟨s', lines, hu⟩
  · rw [hu]
    rfl
  · rw [hu]
    rfl
  · have hne : s' ≠ s := by
      rintro rfl
      exact h lines hu
    rw [hu, List.flatMap_singleton, Writing.linesOf, if_neg hne]

/-- A search that was not told of has no hits. -/
theorem hitLines_eq_nil {s : Int} {ts : List Moment} (h : ∀ u ∈ ts, u.told? ≠ some s) : hitLines s ts = [] := by
  rw [hitLines, List.flatMap_eq_nil_iff]
  intro u hu
  exact linesOf_eq_nil fun lines hoffers => h u ((List.takeWhile_prefix _).subset hu) (told_of_offers hoffers)

/-! ## The pane -/

/-- Without questions the pane holds the hits of the shown search, and is empty if there is none. -/
theorem lines_searching {ts : List Moment} (h : Orderly ts) (announced : Announced ts)
    (searching : ∀ t, .begun (.question t) ∉ ts) :
    (shownAfter ts).flatMap Writing.lines =
      match (Board.after ts).shown with
      | some s => hitLines s ts
      | none => [] := by
  induction h with
  | nil => rfl
  | @snoc ts u h due ih =>
    have ih := ih announced.of_append fun t hmem => searching t (List.mem_append_left _ hmem)
    -- a search that is not shown yet, and not stale, has no hits so far
    have hnew (n : Nat) (accepted : (Board.after ts).tickets.accept searchChannel n = true)
        (hne : (Board.after ts).shown ≠ some (n : Int)) : hitLines n ts = [] := by
      refine hitLines_eq_nil fun v hv told => hne ?_
      exact shown_of_told h announced.of_append hv told ((h.accept_iff searchChannel n).mp accepted)
    cases shift ts u with
    | same stale standing shown =>
      rw [standing, shown, ih]
      cases hs : (Board.after ts).shown with
      | none => rfl
      | some s =>
        simp only [hitLines_snoc]
        split
        · rw [List.append_nil]
        · next hnot =>
          obtain ⟨n, rfl, -⟩ := begun_of_shown h announced.of_append hs
          have accepted := (h.accept_iff searchChannel n).mpr hnot
          rw [linesOf_eq_nil fun lines hoffers => ?_, List.append_nil]
          rw [stale n lines hoffers] at accepted
          cases accepted
    | @opened s told none accepted new standing shown =>
      obtain ⟨n, rfl, -⟩ := begun_of_told (h.snoc due) announced told
      have hnot := (h.accept_iff searchChannel n).mp accepted
      simp only [standing, shown, hitLines_snoc, hnew n accepted new, if_neg hnot, none]
      rfl
    | @added s lines told offered accepted standing shown =>
      obtain ⟨n, rfl, -⟩ := begun_of_told (h.snoc due) announced told
      have hnot := (h.accept_iff searchChannel n).mp accepted
      have hlines : u.offers.flatMap (Writing.linesOf n) = lines := by
        rw [offered, List.flatMap_singleton, Writing.linesOf, if_pos rfl]
      simp only [standing, shown, hitLines_snoc, if_neg hnot, hlines, List.flatMap_append, List.flatMap_singleton,
        Writing.lines]
      congr 1
      by_cases hs : (Board.after ts).shown = some (n : Int)
      · rw [if_pos hs, ih, hs]
      · rw [if_neg hs, hnew n accepted hs]
        rfl
    | @answered t value lines ended rendered accepted standing shown =>
      subst ended
      obtain ⟨hbegun, -⟩ := due (by simp)
      exact absurd (List.mem_append_left _ hbegun) (searching t)

/-- The shown search is none later than the last one. -/
theorem le_latest_of_shown {ts : List Moment} (h : Orderly ts) (announced : Announced ts) {s : Int}
    (hs : (Board.after ts).shown = some s) : s ≤ (Board.after ts).tickets.latest searchChannel := by
  obtain ⟨n, rfl, hbegun⟩ := begun_of_shown h announced hs
  exact Int.ofNat_le.mpr (h.recorded.le_latest _ (mem_taken_search.mpr hbegun))

/-- The shown search is never replaced by an earlier one. -/
theorem shown_mono {ts us : List Moment} (h : Orderly (ts ++ us)) (announced : Announced (ts ++ us)) {s : Int}
    (hs : (Board.after ts).shown = some s) : ∃ s', (Board.after (ts ++ us)).shown = some s' ∧ s ≤ s' := by
  induction us using List.reverseRecOn with
  | nil => exact ⟨s, by rwa [List.append_nil], Int.le_refl s⟩
  | append_singleton us u ih =>
    rw [← List.append_assoc] at h announced ⊢
    have hprefix := h.of_prefix (List.prefix_append _ _)
    obtain ⟨s', hs', hle⟩ := ih hprefix announced.of_append
    rw [Board.after_snoc, Board.shown_take]
    cases told : u.told? with
    | none => exact ⟨s', hs', hle⟩
    | some s'' =>
      simp only
      split
      · next accepted =>
        obtain ⟨n, rfl, -⟩ := begun_of_told h announced told
        refine ⟨n, rfl, Int.le_trans hle ?_⟩
        have hlatest := le_latest_of_shown hprefix announced.of_append hs'
        rw [Tickets.accept_iff] at accepted
        omega
      · exact ⟨s', hs', hle⟩

/-! ## Runs -/

namespace Exchange

variable {L : Type} (carrier : Carrier L)

/-- In a session that only searches the query pane holds the hits of the shown search that came before a later
search began, each once and in order, and nothing while no search is shown. The shown search never goes back and
is none later than the last one that began. -/
theorem pane_searching {overrides : Json} {ns : String} {s : Session} (created : Session.create overrides ns = .ok s)
    (buffers : List (Buffer Reaction Mark)) (link : L) (es : List (Event L))
    (announced : Announced ((idle s buffers link).history carrier es))
    (searching : ∀ t, .begun (.question t) ∉ (idle s buffers link).history carrier es) :
    let x := (idle s buffers link).follow carrier es
    (∀ n, x.desk.session.shownSearch = some n →
      x.desk.session.queryPane.lines = hitLines n ((idle s buffers link).history carrier es) ∧
      n ≤ x.desk.session.tickets.latest searchChannel) ∧
    (x.desk.session.shownSearch = none → x.desk.session.queryPane.lines = []) ∧
    ∀ fs, fs <+: es → ∀ m, ((idle s buffers link).follow carrier fs).desk.session.shownSearch = some m →
      ∃ n, x.desk.session.shownSearch = some n ∧ m ≤ n := by
  intro x
  have hrecorded (fs : List (Event L)) := recorded_follow carrier (Recorded.idle created buffers link) fs
  simp only [List.nil_append] at hrecorded
  have hshown (fs : List (Event L)) : ((idle s buffers link).follow carrier fs).desk.session.shownSearch =
      (Board.after ((idle s buffers link).history carrier fs)).shown := congrArg Board.shown (hrecorded fs).board
  have hpane := congrArg (fun b : Board => b.pane.lines) (hrecorded es).board
  have htickets := congrArg Board.tickets (hrecorded es).board
  have hlines := (lines_after _).trans (lines_searching (hrecorded es).orderly announced searching)
  refine ⟨fun n hn => ⟨?_, ?_⟩, fun hnone => ?_, fun fs hfs m hm => ?_⟩
  · rw [hshown] at hn
    rw [hn] at hlines
    exact hpane.trans hlines
  · rw [hshown] at hn
    have hle := le_latest_of_shown (hrecorded es).orderly announced hn
    rwa [← htickets] at hle
  · rw [hshown] at hnone
    rw [hnone] at hlines
    exact hpane.trans hlines
  · rw [hshown] at hm ⊢
    obtain ⟨gs, rfl⟩ := hfs
    have horderly := (hrecorded (fs ++ gs)).orderly
    rw [history_append] at announced horderly ⊢
    exact shown_mono horderly announced hm

/-- A search with a hit, a second search, and another hit of the first, which gets no answer. -/
def searchTwice : List (Event Unit) :=
  [.ask 0 .null (.search (.text "plus") .cursor), .hit firstHit, .ask 0 .null (.search (.text "mult") .cursor),
    .hit firstHit, .answer 0 (.error .timedOut)]

theorem pane_searchTwice : ∃ s : Session, Session.create (.object []) "" = .ok s ∧
    Announced ((idle s [.ofText "" "" ""] ()).history silent searchTwice) ∧
    (∀ t, .begun (.question t) ∉ (idle s [.ofText "" "" ""] ()).history silent searchTwice) ∧
    ((idle s [.ofText "" "" ""] ()).follow silent searchTwice).desk.session.queryPane.lines =
      ["plus_n_O:", "  True", ""] := by
  obtain ⟨s, created⟩ : ∃ s, Session.create (.object []) "" = .ok s := ⟨_, rfl⟩
  have hhistory : (idle s [.ofText "" "" ""] ()).history silent searchTwice =
      [.begun (.search 1), .heard firstHit, .begun (.search 2), .heard firstHit,
        .ended (.search 1) (.error .timedOut)] := by
    cases created
    rfl
  have hread : SearchHit.ofJson firstHit = .ok ⟨1, .text "plus_n_O", .text "True"⟩ := rfl
  have announced : Announced ((idle s [.ofText "" "" ""] ()).history silent searchTwice) := by
    rw [hhistory]
    intro us params vs h hit hhit
    rcases us with _ | ⟨_, _ | ⟨_, _ | ⟨_, _ | ⟨_, _ | ⟨_, us⟩⟩⟩⟩⟩ <;> simp at h
    · obtain ⟨rfl, rfl, rfl⟩ := h
      cases hread.symm.trans hhit
      exact ⟨1, rfl, List.mem_cons_self⟩
    · obtain ⟨rfl, rfl, rfl, rfl, rfl⟩ := h
      cases hread.symm.trans hhit
      exact ⟨1, rfl, List.mem_cons_self⟩
  have searching : ∀ t, .begun (.question t) ∉ (idle s [.ofText "" "" ""] ()).history silent searchTwice := by
    rw [hhistory]
    simp
  have hpane := pane_searching silent created [.ofText "" "" ""] () searchTwice announced searching
  refine ⟨s, created, announced, searching, ?_⟩
  rw [(hpane.1 1 (by cases created; rfl)).1, hhistory]
  rfl

end Exchange
end CoqConsole
