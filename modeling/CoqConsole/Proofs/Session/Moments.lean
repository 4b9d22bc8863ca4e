import CoqConsole.Proofs.Session.Board

/-!
# Moments in order

What a list of moments says of the board that it leaves.

* `taken` : the tickets that were taken;
* `Overtaken` : a later ticket was taken from the channel;
* `Orderly` : tickets are numbered as they are taken, and what ends has begun and ends once;
* `Board.after`, `written` : the board that moments leave, and what they write to its pane;
* `Orderly.recorded` : its tickets are those that were taken;
* `Orderly.accept_iff` : an answer is accepted unless its ticket is overtaken.
-/

namespace CoqConsole

/-! ## Tickets -/

/-- The ticket that a moment took, with its channel. -/
def Moment.taken? : Moment → Option (String × Nat)
  | .begun (.search t) => some (searchChannel, t)
  | .begun (.question t) => some (questionChannel, t)
  | _ => none

/-- The tickets that were taken, in order. -/
def taken (ts : List Moment) : List (String × Nat) := ts.filterMap Moment.taken?

/-- A later ticket than this one was taken from the channel. -/
def Overtaken (channel : String) (t : Int) (ts : List Moment) : Prop := ∃ p ∈ taken ts, p.1 = channel ∧ t < p.2

instance (channel : String) (t : Int) (ts : List Moment) : Decidable (Overtaken channel t ts) :=
  inferInstanceAs (Decidable (∃ p ∈ taken ts, p.1 = channel ∧ t < p.2))

theorem taken_append (ts us : List Moment) : taken (ts ++ us) = taken ts ++ taken us := List.filterMap_append

theorem taken_single_some {u : Moment} {p : String × Nat} (h : u.taken? = some p) : taken [u] = [p] := by
  rw [taken, List.filterMap_cons, h, List.filterMap_nil]

theorem taken_single_none {u : Moment} (h : u.taken? = none) : taken [u] = [] := by
  rw [taken, List.filterMap_cons, h, List.filterMap_nil]

theorem searchChannel_ne : searchChannel ≠ questionChannel := by decide

theorem Moment.taken?_eq_some_iff {u : Moment} {channel : String} {t : Nat} :
    u.taken? = some (channel, t) ↔
      u = .begun (.search t) ∧ channel = searchChannel ∨ u = .begun (.question t) ∧ channel = questionChannel := by
  constructor
  · intro h
    unfold taken? at h
    split at h <;> cases h
    · exact .inl ⟨rfl, rfl⟩
    · exact .inr ⟨rfl, rfl⟩
  · rintro (⟨rfl, rfl⟩ | ⟨rfl, rfl⟩) <;> rfl

theorem mem_taken {channel : String} {t : Nat} {ts : List Moment} :
    (channel, t) ∈ taken ts ↔
      .begun (.search t) ∈ ts ∧ channel = searchChannel ∨ .begun (.question t) ∈ ts ∧ channel = questionChannel := by
  simp only [taken, List.mem_filterMap, Moment.taken?_eq_some_iff, and_or_left, exists_or, ← and_assoc, exists_and_right,
    exists_eq_right]

theorem mem_taken_search {t : Nat} {ts : List Moment} :
    (searchChannel, t) ∈ taken ts ↔ .begun (.search t) ∈ ts := by
  rw [mem_taken, and_iff_left rfl, or_iff_left fun h => searchChannel_ne h.2]

theorem mem_taken_question {t : Nat} {ts : List Moment} :
    (questionChannel, t) ∈ taken ts ↔ .begun (.question t) ∈ ts := by
  rw [mem_taken, and_iff_left rfl, or_iff_right fun h => searchChannel_ne h.2.symm]

theorem Overtaken.append {channel : String} {t : Int} {ts : List Moment} (h : Overtaken channel t ts)
    (us : List Moment) : Overtaken channel t (ts ++ us) := by
  obtain ⟨p, hp, hc, ht⟩ := h
  refine ⟨p, ?_, hc, ht⟩
  rw [taken_append]
  exact List.mem_append_left _ hp

/-- Of two tickets of a channel that are not overtaken neither is the later one. -/
theorem eq_of_not_overtaken {channel : String} {t u : Nat} {ts : List Moment} (ht : (channel, t) ∈ taken ts)
    (hu : (channel, u) ∈ taken ts) (hnt : ¬ Overtaken channel t ts) (hnu : ¬ Overtaken channel u ts) : t = u := by
  by_contra hne
  rcases Nat.lt_or_gt_of_ne hne with hlt | hlt
  · exact hnt ⟨_, hu, rfl, by omega⟩
  · exact hnu ⟨_, ht, rfl, by omega⟩

/-! ## Order -/

/-- What a moment needs to have come before it. Resets take no ticket and need nothing. -/
def Moment.Due (ts : List Moment) : Moment → Prop
  | .begun aim => ∀ p, (Moment.begun aim).taken? = some p → p.2 = (taken ts).length + 1
  | .ended aim _ => aim ≠ .reset → .begun aim ∈ ts ∧ ∀ a, .ended aim a ∉ ts
  | .heard _ => True

inductive Orderly : List Moment → Prop
  | nil : Orderly []
  | snoc {ts : List Moment} {u : Moment} (h : Orderly ts) (due : u.Due ts) : Orderly (ts ++ [u])

namespace Orderly

theorem of_prefix {ts us : List Moment} (h : Orderly ts) (hus : us <+: ts) : Orderly us := by
  induction h with
  | nil =>
    rw [List.prefix_nil.mp hus]
    exact .nil
  | snoc h due ih =>
    rcases List.prefix_concat_iff.mp hus with rfl | hus
    · exact .snoc h due
    · exact ih hus

theorem due_snoc {ts : List Moment} {u : Moment} (h : Orderly (ts ++ [u])) : u.Due ts := by
  generalize hvs : ts ++ [u] = vs at h
  cases h with
  | nil => exact absurd hvs (by simp)
  | snoc h due =>
    obtain ⟨rfl, hu⟩ := List.append_inj' hvs rfl
    cases hu
    exact due

theorem due {ts us : List Moment} {u : Moment} (h : Orderly (ts ++ u :: us)) : u.Due ts :=
  (h.of_prefix ⟨us, by rw [List.append_assoc, List.singleton_append]⟩ : Orderly (ts ++ [u])).due_snoc

theorem begun_of_ended {ts : List Moment} (h : Orderly ts) {aim : Aim} {answer : Except Failure Json}
    (hmem : .ended aim answer ∈ ts) (hne : aim ≠ .reset) : .begun aim ∈ ts := by
  obtain ⟨us, vs, rfl⟩ := List.append_of_mem hmem
  exact List.mem_append_left _ (h.due hne).1

end Orderly

/-! ## Boards -/

def Board.fresh : Board := ⟨.none, .named "coq-infos", none⟩

def Board.after (ts : List Moment) : Board := ts.foldl Board.take .fresh

theorem board_create {overrides : Json} {ns : String} {s : Session} (h : Session.create overrides ns = .ok s) :
    s.board = .fresh := by
  unfold Session.create at h
  cases hmake : Settings.make overrides with
  | error cause =>
    rw [hmake] at h
    cases h
  | ok settings =>
    rw [hmake] at h
    cases h
    rfl

theorem Board.after_append (ts us : List Moment) : after (ts ++ us) = us.foldl take (after ts) := List.foldl_append

theorem Board.after_snoc (ts : List Moment) (u : Moment) : after (ts ++ [u]) = (after ts).take u := after_append ts [u]

/-- What moments write to the pane, from a board on. -/
def Board.script (b : Board) : List Moment → List Writing
  | [] => []
  | u :: us => b.writings u ++ (b.take u).script us

/-- What moments write to the pane of a fresh session. -/
def written (ts : List Moment) : List Writing := Board.fresh.script ts

theorem Board.script_append (b : Board) (ts us : List Moment) :
    b.script (ts ++ us) = b.script ts ++ (ts.foldl take b).script us := by
  induction ts generalizing b with
  | nil => rfl
  | cons u ts ih => rw [List.cons_append, script, script, ih, List.append_assoc, List.foldl_cons]

theorem written_snoc (ts : List Moment) (u : Moment) :
    written (ts ++ [u]) = written ts ++ (Board.after ts).writings u := by
  rw [written, Board.script_append, Board.script, Board.script, List.append_nil]
  rfl

/-- The tickets are what moments have taken. -/
structure Tickets.Recorded (t : Tickets String) (ts : List Moment) : Prop where
  issued : t.issued = (taken ts).length
  ascending : ((taken ts).map Prod.snd).Pairwise (· < ·)
  counted : ∀ p ∈ taken ts, p.2 ≤ t.issued
  le_latest : ∀ p ∈ taken ts, p.2 ≤ t.latest p.1
  latest_mem : ∀ channel, t.latest channel = 0 ∨ (channel, t.latest channel) ∈ taken ts

namespace Tickets.Recorded

theorem none : Recorded (.none : Tickets String) [] :=
  ⟨rfl, List.Pairwise.nil, fun _ h => absurd h List.not_mem_nil, fun _ h => absurd h List.not_mem_nil,
    fun _ => .inl rfl⟩

variable {t : Tickets String} {ts : List Moment} (h : t.Recorded ts)
include h

/-- No channel's last ticket is above the counter. -/
theorem latest_le (channel : String) : t.latest channel ≤ t.issued := by
  rcases h.latest_mem channel with h0 | hmem
  · omega
  · exact h.counted _ hmem

/-- A moment that takes no ticket changes nothing. -/
theorem quiet {u : Moment} (hu : u.taken? = Option.none) : t.Recorded (ts ++ [u]) := by
  have htaken : taken (ts ++ [u]) = taken ts := by rw [taken_append, taken_single_none hu, List.append_nil]
  exact ⟨htaken ▸ h.issued, htaken ▸ h.ascending, htaken ▸ h.counted, htaken ▸ h.le_latest, htaken ▸ h.latest_mem⟩

theorem issue {u : Moment} {channel : String} (hu : u.taken? = some (channel, t.issued + 1)) :
    (t.issue channel).2.Recorded (ts ++ [u]) := by
  have htaken : taken (ts ++ [u]) = taken ts ++ [(channel, t.issued + 1)] := by
    rw [taken_append, taken_single_some hu]
  have hlatest := (Counted.issue h.latest_le channel).2
  refine ⟨?_, ?_, ?_, ?_, ?_⟩
  · rw [htaken, List.length_append, List.length_singleton, issued_issue, h.issued]
  · rw [htaken, List.map_append, List.pairwise_append]
    refine ⟨h.ascending, List.pairwise_singleton _ _, fun a ha b hb => ?_⟩
    obtain ⟨p, hp, rfl⟩ := List.mem_map.mp ha
    rw [List.mem_singleton.mp hb]
    exact Nat.lt_succ_of_le (h.counted p hp)
  · intro p hp
    rw [htaken, List.mem_append] at hp
    rw [issued_issue]
    rcases hp with hp | hp
    · exact Nat.le_succ_of_le (h.counted p hp)
    · exact (List.mem_singleton.mp hp) ▸ Nat.le_refl _
  · intro p hp
    rw [htaken, List.mem_append] at hp
    rcases hp with hp | hp
    · exact Nat.le_trans (h.le_latest p hp) (hlatest p.1)
    · have hlatest : (t.issue channel).2.latest channel = t.issued + 1 := by rw [latest_issue, if_pos rfl]
      rw [List.mem_singleton.mp hp]
      exact Nat.le_of_eq hlatest.symm
  · intro c
    rw [latest_issue, htaken]
    split
    · next hc => exact .inr (List.mem_append_right _ (by rw [hc]; exact List.mem_singleton_self _))
    · exact (h.latest_mem c).imp_right (List.mem_append_left _)

/-- A ticket that was taken is accepted unless a later one was. -/
theorem accept_iff (channel : String) (ticket : Nat) :
    t.accept channel ticket = true ↔ ¬ Overtaken channel ticket ts := by
  rw [Tickets.accept_iff]
  constructor
  · rintro hle ⟨p, hp, rfl, hlt⟩
    have := h.le_latest p hp
    omega
  · intro hnot
    rcases h.latest_mem channel with h0 | hmem
    · omega
    · by_contra hlt
      exact hnot ⟨_, hmem, rfl, by omega⟩

end Tickets.Recorded

theorem Board.tickets_take {b : Board} {u : Moment} (hu : ∀ aim, u ≠ .begun aim) : (b.take u).tickets = b.tickets := by
  cases u with
  | begun aim => exact absurd rfl (hu aim)
  | ended aim answer => rw [take_ended, tickets_writeAll]
  | heard params => rw [take_heard, tickets_writeAll]

namespace Orderly

variable {ts : List Moment} (h : Orderly ts)
include h

theorem recorded : (Board.after ts).tickets.Recorded ts := by
  induction h with
  | nil => exact Tickets.Recorded.none
  | @snoc ts u h due ih =>
    rw [Board.after_snoc]
    cases u with
    | ended aim answer =>
      rw [Board.tickets_take (by simp)]
      exact ih.quiet rfl
    | heard params =>
      rw [Board.tickets_take (by simp)]
      exact ih.quiet rfl
    | begun aim =>
      cases aim with
      | search t =>
        have ht : t = (Board.after ts).tickets.issued + 1 := by rw [ih.issued]; exact due _ rfl
        exact ih.issue (by rw [← ht]; rfl)
      | question t =>
        have ht : t = (Board.after ts).tickets.issued + 1 := by rw [ih.issued]; exact due _ rfl
        exact ih.issue (by rw [← ht]; rfl)
      | reset => exact ih.quiet rfl

/-- An answer is accepted unless its ticket is overtaken. -/
theorem accept_iff (channel : String) (ticket : Nat) :
    (Board.after ts).tickets.accept channel ticket = true ↔ ¬ Overtaken channel ticket ts :=
  h.recorded.accept_iff channel ticket

end Orderly

end CoqConsole
