import CoqConsole.Proofs.Session.Moments
import Mathlib.Data.List.Induction

/-!
# Hits and the search that is shown

* `Moment.told?` : the search that a success or a hit tells of;
* `Announced` : every hit is one of a search that began before;
* `Moment.offers` : what a moment has to show;
* `Board.Writes`, `Board.writes` : what it writes, case by case;
* `shown_take` : the search of an accepted success or hit is the one that is shown;
* `mem_of_shown` : the shown search was told of;
* `shown_of_told` : a search that was told of is the one that is shown, unless it is overtaken.
-/

namespace CoqConsole

/-- The search that a moment tells of: a success of a search, or a hit. -/
def Moment.told? : Moment → Option Int
  | .ended (.search t) (.ok _) => some t
  | .heard params =>
    match SearchHit.ofJson params with
    | .ok hit => some hit.id
    | .error _ => none
  | _ => none

/-- Every hit that can be read is one of a search that began before. -/
def Announced (ts : List Moment) : Prop :=
  ∀ us params vs, ts = us ++ .heard params :: vs →
    ∀ hit, SearchHit.ofJson params = .ok hit → ∃ t : Nat, hit.id = t ∧ .begun (.search t) ∈ us

theorem Announced.of_append {ts us : List Moment} (h : Announced (ts ++ us)) : Announced ts := by
  rintro vs params ws rfl hit hread
  exact h vs params (ws ++ us) (by simp) hit hread

/-- A search has begun before it is told of. -/
theorem begun_of_told {ts : List Moment} {u : Moment} {s : Int} (h : Orderly (ts ++ [u]))
    (announced : Announced (ts ++ [u])) (told : u.told? = some s) :
    ∃ t : Nat, s = t ∧ .begun (.search t) ∈ ts := by
  unfold Moment.told? at told
  split at told
  · next t value =>
    obtain ⟨hbegun, -⟩ := h.due_snoc (u := .ended (.search t) (.ok value)) (by simp)
    exact ⟨t, (Option.some.inj told).symm, hbegun⟩
  · next params =>
    split at told
    · next hit hread =>
      rw [← Option.some.inj told]
      exact announced ts params [] rfl hit hread
    · cases told
  · cases told

theorem begun_of_mem {ts : List Moment} {u : Moment} {s : Int} (h : Orderly ts) (announced : Announced ts)
    (hu : u ∈ ts) (told : u.told? = some s) : ∃ t : Nat, s = t ∧ .begun (.search t) ∈ ts := by
  obtain ⟨us, vs, rfl⟩ := List.append_of_mem hu
  have hsplit : us ++ u :: vs = us ++ [u] ++ vs := by rw [List.append_assoc, List.singleton_append]
  rw [hsplit] at h announced
  obtain ⟨t, hst, hbegun⟩ := begun_of_told (h.of_prefix (List.prefix_append _ _)) announced.of_append told
  exact ⟨t, hst, List.mem_append_left _ hbegun⟩

/-- A search that is told of and not stale is the last one. -/
theorem eq_of_told {ts : List Moment} {u : Moment} {s : Int} (h : Orderly (ts ++ [u])) (announced : Announced (ts ++ [u]))
    (told : u.told? = some s) (accepted : (Board.after ts).tickets.accept searchChannel s = true) {n : Nat}
    (hbegun : .begun (.search n) ∈ ts) (hlast : ¬ Overtaken searchChannel n ts) : s = n := by
  obtain ⟨t, rfl, hbegun'⟩ := begun_of_told h announced told
  have hnot := ((h.of_prefix (List.prefix_append _ _)).accept_iff searchChannel t).mp accepted
  rw [eq_of_not_overtaken (mem_taken_search.mpr hbegun') (mem_taken_search.mpr hbegun) hnot hlast]

/-! ## What is written -/

/-- What a moment has to show, were it not stale. -/
def Moment.offers : Moment → List Writing
  | .ended (.question t) (.ok value) =>
    match renderAnswer value with
    | .ok lines => [.answer t lines]
    | .error _ => []
  | .heard params =>
    match SearchHit.ofJson params with
    | .ok hit =>
      match hit.render with
      | .ok lines => [.hit hit.id lines]
      | .error _ => []
    | .error _ => []
  | _ => []

theorem heard_of_offers {u : Moment} {s : Int} {lines : List String} (h : u.offers = [.hit s lines]) :
    ∃ params hit, u = .heard params ∧ SearchHit.ofJson params = .ok hit ∧ hit.id = s ∧ hit.render = .ok lines := by
  unfold Moment.offers at h
  split at h
  · split at h
    · cases h
    · cases h
  · next params =>
    split at h
    · next hit hread =>
      split at h
      · next lines' hrender =>
        cases h
        exact ⟨params, hit, rfl, hread, rfl, hrender⟩
      · cases h
    · cases h
  · cases h

theorem told_of_offers {u : Moment} {s : Int} {lines : List String} (h : u.offers = [.hit s lines]) :
    u.told? = some s := by
  obtain ⟨params, hit, rfl, hread, rfl, -⟩ := heard_of_offers h
  simp only [Moment.told?, hread]

/-- What a moment writes to the pane of a board, case by case. -/
inductive Board.Writes (b : Board) : Moment → List Writing → Prop
  /-- Nothing, unless a search that is not stale is told of. -/
  | nothing {u : Moment} (stale : ∀ s, u.told? = some s → b.tickets.accept searchChannel s = false) : Writes b u []
  /-- A search is told of, and there is no hit to show. -/
  | opened {u : Moment} {s : Int} (told : u.told? = some s) (accepted : b.tickets.accept searchChannel s = true)
    (none : u.offers = []) : Writes b u (b.opening s)
  /-- A hit is shown. -/
  | added {params : Json} {hit : SearchHit} {lines : List String} (read : SearchHit.ofJson params = .ok hit)
    (accepted : b.tickets.accept searchChannel hit.id = true) (rendered : hit.render = .ok lines) :
    Writes b (.heard params) (b.opening hit.id ++ [.hit hit.id lines])
  /-- An answer is shown. -/
  | answered {t : Nat} {value : Json} {lines : List String}
    (accepted : b.tickets.accept questionChannel t = true) (rendered : renderAnswer value = .ok lines) :
    Writes b (.ended (.question t) (.ok value)) [.answer t lines]

theorem Board.writes (b : Board) (u : Moment) : b.Writes u (b.writings u) := by
  cases u with
  | begun aim => exact .nothing fun s h => by cases h
  | ended aim answer =>
    cases answer with
    | error cause => cases aim <;> exact .nothing fun s h => by cases h
    | ok value =>
      cases aim with
      | search t =>
        simp only [writings]
        split
        · next h => exact .opened rfl h rfl
        · next h => exact .nothing fun s hs => by cases hs; simpa using h
      | question t =>
        simp only [writings]
        split
        · next h =>
          cases hlines : renderAnswer value with
          | ok lines => exact .answered h hlines
          | error cause => exact .nothing fun s hs => by cases hs
        · exact .nothing fun s hs => by cases hs
      | reset => exact .nothing fun s h => by cases h
  | heard params =>
    simp only [writings]
    cases hread : SearchHit.ofJson params with
    | error cause => exact .nothing fun s hs => by simp [Moment.told?, hread] at hs
    | ok hit =>
      have htold : (Moment.heard params).told? = some hit.id := by simp only [Moment.told?, hread]
      simp only
      split
      · next h =>
        cases hlines : hit.render with
        | ok lines => exact .added hread h hlines
        | error cause => exact .opened htold h (by simp only [Moment.offers, hread, hlines])
      · next h =>
        refine .nothing fun s hs => ?_
        rw [← Option.some.inj (htold.symm.trans hs)]
        simpa using h

/-! ## What is shown -/

namespace Board

theorem shown_opening (b : Board) (search : Int) : (b.writeAll (b.opening search)).shown = some search := by
  unfold opening
  split
  · next h => exact h
  · rfl

theorem shown_take (b : Board) (u : Moment) :
    (b.take u).shown =
      match u.told? with
      | some s => if b.tickets.accept searchChannel s then some s else b.shown
      | none => b.shown := by
  cases u with
  | begun aim => rfl
  | ended aim answer =>
    rw [take_ended]
    cases answer with
    | error cause => cases aim <;> rfl
    | ok value =>
      cases aim with
      | search t =>
        simp only [writings, Moment.told?]
        split
        · exact b.shown_opening t
        · rfl
      | question t =>
        simp only [writings, Moment.told?]
        split
        · cases renderAnswer value <;> rfl
        · rfl
      | reset => rfl
  | heard params =>
    rw [take_heard]
    simp only [writings, Moment.told?]
    cases SearchHit.ofJson params with
    | error cause => rfl
    | ok hit =>
      simp only
      split
      · cases hit.render with
        | error cause => exact b.shown_opening hit.id
        | ok lines =>
          rw [writeAll_append]
          exact b.shown_opening hit.id
      · rfl

end Board

theorem mem_of_shown {ts : List Moment} {s : Int} (h : (Board.after ts).shown = some s) :
    ∃ u ∈ ts, u.told? = some s := by
  induction ts using List.reverseRecOn with
  | nil => cases h
  | append_singleton ts u ih =>
    rw [Board.after_snoc, Board.shown_take] at h
    have hbefore : (Board.after ts).shown = some s → ∃ v ∈ ts ++ [u], v.told? = some s := fun h => by
      obtain ⟨v, hv, ht⟩ := ih h
      exact ⟨v, List.mem_append_left _ hv, ht⟩
    split at h
    · next t ht =>
      split at h
      · exact ⟨u, List.mem_append_right _ (List.mem_singleton_self _), ht.trans h⟩
      · exact hbefore h
    · exact hbefore h

theorem begun_of_shown {ts : List Moment} {s : Int} (h : Orderly ts) (announced : Announced ts)
    (hs : (Board.after ts).shown = some s) : ∃ t : Nat, s = t ∧ .begun (.search t) ∈ ts := by
  obtain ⟨u, hu, ht⟩ := mem_of_shown hs
  exact begun_of_mem h announced hu ht

/-- A search that was told of is the one that is shown, unless it is overtaken. -/
theorem shown_of_told {ts : List Moment} {u : Moment} {s : Int} (h : Orderly ts) (announced : Announced ts)
    (hu : u ∈ ts) (ht : u.told? = some s) (hnot : ¬ Overtaken searchChannel s ts) :
    (Board.after ts).shown = some s := by
  induction h with
  | nil => cases hu
  | @snoc ts v h due ih =>
    have hbefore : u ∈ ts → (Board.after ts).shown = some s := fun hu =>
      ih announced.of_append hu fun hover => hnot (hover.append [v])
    rw [Board.after_snoc, Board.shown_take]
    cases hv : v.told? with
    | none =>
      rcases List.mem_append.mp hu with hu | hu
      · exact hbefore hu
      · rw [← List.mem_singleton.mp hu, ht] at hv
        cases hv
    | some s' =>
      simp only
      by_cases accepted : (Board.after ts).tickets.accept searchChannel s' = true
      · rw [if_pos accepted]
        rcases List.mem_append.mp hu with hu | hu
        · -- both searches are the last one that began
          obtain ⟨t, rfl, hbegun⟩ := begun_of_mem h announced.of_append hu ht
          rw [eq_of_told (h.snoc due) announced hv accepted hbegun fun hover => hnot (hover.append _)]
        · rw [← List.mem_singleton.mp hu, ht] at hv
          exact hv.symm
      · rw [if_neg accepted]
        rcases List.mem_append.mp hu with hu | hu
        · exact hbefore hu
        · rw [← List.mem_singleton.mp hu, ht] at hv
          cases hv
          have hv : v.told? = some s := by rw [← List.mem_singleton.mp hu, ht]
          obtain ⟨t, rfl, -⟩ := begun_of_told (h.snoc due) announced hv
          exact absurd ((h.accept_iff searchChannel t).mpr fun hover => hnot (hover.append _)) accepted

end CoqConsole
