import CoqConsole.Proofs.Console.Showing

/-!
# Hits on the pane

The hits of a search come one by one, while the call that began it sleeps. They come to the pane on which the answers of
questions and the hits of other searches are shown, too.

* `IsHit`, `AreHits` : the lines of the hits of one search;
* `Gathers` : what is said of the tickets and of the pane, and stays true as hits come;
* `Console.Overlays` : a question is answered, and its answer is laid over what is shown;
* `gathers_after`, `gathers_afterAll` : what stays true where no answer is laid over it;
* `gathers_ownHits` : the hits of a search that is shown; `gathers_succeeded` : the searches that are shown after it.
-/

namespace CoqConsole

/-! ## Hits -/

def IsHit (search : Int) (lines : List String) : Prop :=
  ∃ params hit, SearchHit.ofJson params = .ok hit ∧ hit.id = search ∧ hit.render = .ok lines

def AreHits (search : Int) (lines : List String) : Prop :=
  ∃ hits : List (List String), lines = hits.flatten ∧ ∀ hit ∈ hits, IsHit search hit

theorem areHits_nil (search : Int) : AreHits search [] := ⟨[], rfl, List.forall_mem_nil _⟩

theorem AreHits.snoc {search : Int} {lines hit : List String} (h : AreHits search lines) (hhit : IsHit search hit) :
    AreHits search (lines ++ hit) := by
  obtain ⟨hits, rfl, hall⟩ := h
  refine ⟨hits ++ [hit], by rw [List.flatten_append, List.flatten_singleton], fun hit' hmem => ?_⟩
  rcases List.mem_append.mp hmem with hmem | hmem
  · exact hall hit' hmem
  · exact List.mem_singleton.mp hmem ▸ hhit

/-! ## What stays true -/

/-- What is said of the tickets, of the lines on the pane and of the search that is shown. -/
abbrev Gist := Tickets String → List String → Option Int → Prop

def Gist.onDisplay (G : Gist) : Display → Tickets String → Prop := fun x t => G t x.infos.1 x.shown

/-- It stays true as tickets are taken, the pane is emptied, and hits come that are not stale. -/
structure Gathers (G : Gist) : Prop where
  serve : ∀ {t lines shown} aim, G t lines shown → G (t.serve aim) lines shown
  wiped : ∀ {t lines shown}, G t lines shown → G t [] shown
  opened : ∀ {t lines shown s}, G t lines shown → t.accept searchChannel s = true → G t [] (some s)
  added : ∀ {t lines s hit}, G t lines (some s) → IsHit s hit → G t (lines ++ hit) (some s)

namespace Gathers

variable {G : Gist} (g : Gathers G)
include g

theorem lasting : Lasting G.onDisplay := fun _ _ aim h => g.serve aim h

omit g in
theorem isApart : IsApart G.onDisplay := fun _ _ _ h => h

/-- The pane is made ready for a search that is not stale. -/
theorem showSearch {d : Desk Wired} {s : Int} (haccept : d.session.tickets.accept searchChannel s = true)
    (hd : d.session.Presents G.onDisplay) : ((Desk.showSearch s).run.run d).2.session.Presents G.onDisplay := by
  rw [Desk.session_showSearch]
  split
  · exact hd
  · exact g.opened hd haccept

/-- The answer of a question that is not stale is the only one that may change it. -/
theorem finish {query : Query} {answer : Except Failure Json} {d : Desk Wired}
    (hanswer : ∀ ticket value, query.aim = .question ticket → answer = .ok value →
      d.session.tickets.accept questionChannel ticket = true → ∀ lines {t old shown}, G t old shown → G t lines shown)
    (hd : d.session.Presents G.onDisplay) : ((Desk.finish query answer).run.run d).2.session.Presents G.onDisplay := by
  cases answer with
  | error cause => exact Desk.presents_finish_error isApart query cause d hd
  | ok value =>
    cases haim : query.aim with
    | search ticket =>
      rw [Desk.run_finish_search d query haim]
      split
      · next haccept => exact g.showSearch haccept hd
      · exact hd
    | question ticket =>
      rw [Desk.run_finish_question d query haim]
      split
      · next haccept =>
        cases renderAnswer value with
        | ok lines => exact hanswer ticket value haim rfl haccept lines hd
        | error cause => exact hd
      · exact hd
    | reset =>
      rw [Desk.run_finish_reset d query haim]
      exact hd

theorem hear {signal : Signal} (hsignal : signal = .proofView ∨ signal = .searchHit) (params : Json) {d : Desk Wired}
    (hd : d.session.Presents G.onDisplay) :
    ((Desk.hear lineCarrier params signal).run.run d).2.session.Presents G.onDisplay := by
  rcases hsignal with rfl | rfl
  · rw [Desk.hear_proofView]
    cases ProofView.ofJson params >>= ProofView.render with
    | ok lines => exact hd
    | error cause => exact hd
  · show ((Desk.hearSearchHit params).run.run d).2.session.Presents G.onDisplay
    rw [Desk.run_hearSearchHit]
    cases hread : SearchHit.ofJson params with
    | error cause => exact hd
    | ok hit =>
      simp only
      split
      · next haccept =>
        have hready := g.showSearch haccept hd
        have hshown := Desk.shownSearch_showSearch hit.id d
        cases hrender : hit.render with
        | error cause => exact hready
        | ok lines =>
          let ready := ((Desk.showSearch hit.id).run.run d).2.session
          have hready : G ready.tickets ready.queryPane.lines ready.shownSearch := hready
          rw [hshown] at hready
          have hadded := g.added hready ⟨params, hit, hread, rfl, hrender⟩
          rw [← hshown] at hadded
          exact hadded
      · exact hd

end Gathers

/-! ## Events -/

namespace Console

variable {c : Console} {e : Event} {es : List Event} {j k : Nat} {G : Gist}

/-- A question of a session goes on with an answer, and none has begun after it: so the answer is laid over what is shown. -/
inductive Overlays (c : Console) (k : Nat) : Event → Prop
  | intro {n id ticket : Nat} {errand : Errand} {query : Query} {sequel : Sequel} (hget : Keyed.get? n c.calls = some errand)
      (hseat : errand.seat = k) (hposes : Poses errand id query sequel) (haim : query.aim = .question ticket)
      (hlast : (c.seatAt k).session.tickets.accept questionChannel ticket = true) : Overlays c k (.move (.resume n false))

/-- Nothing is laid over what a session shows in a run. -/
def Uncovered (c : Console) (k : Nat) (es : List Event) : Prop :=
  ∀ before e later, es = before ++ e :: later → ¬ (c.afterAll before).Overlays k e

theorem Uncovered.of_cons (h : c.Uncovered k (e :: es)) : (c.after e).Uncovered k es := fun before e' later hes =>
  h (e :: before) e' later (by rw [hes, List.cons_append])

theorem gathers_after (g : Gathers G) (h : c.Regular) (j : Nat) (e : Event)
    (hcover : c.Overlays j e → ∀ lines {t old shown}, G t old shown → G t lines shown)
    (hc : (c.seatAt j).session.Presents G.onDisplay) : ((c.after e).seatAt j).session.Presents G.onDisplay := by
  refine presents_after g.lasting (Gathers.isApart) h j ?_ ?_ ?_ hc
  · exact fun name args session _ _ _ x t hx => g.wiped hx
  · rintro n late errand id query sequel rfl hget hseat hposes ending hproper d hd
    refine g.finish (fun ticket value haim hvalue haccept => ?_) (hd ▸ hc)
    rw [Line.collect_result] at hvalue
    cases ending with
    | late => cases hvalue
    | failed cause => cases hvalue
    | met =>
      obtain rfl := hproper.timely rfl
      exact hcover (.intro hget hseat hposes haim (hd ▸ haccept))
  · exact fun signal params _ _ hsignal d hd => g.hear hsignal params (hd ▸ hc)

/-- What stays true as hits come is true after a run, unless an answer is laid over it. -/
theorem gathers_afterAll (g : Gathers G) (h : c.Regular) (j : Nat) (es : List Event)
    (hcover : c.Uncovered j es ∨ ∀ lines {t old shown}, G t old shown → G t lines shown)
    (hc : (c.seatAt j).session.Presents G.onDisplay) : ((c.afterAll es).seatAt j).session.Presents G.onDisplay := by
  induction es generalizing c with
  | nil => exact hc
  | cons e es ih =>
    refine ih (regular_after h e) (hcover.imp_left .of_cons) (gathers_after g h j e (fun hoverlays => ?_) hc)
    exact hcover.elim (fun huncovered => absurd hoverlays (huncovered [] e es rfl)) fun hall => hall

end Console

/-! ## Searches -/

/-- If a search is shown, all lines are of its hits. -/
def OwnHits (search : Int) : Gist := fun _ lines shown => shown = some search → AreHits search lines

theorem gathers_ownHits (search : Int) : Gathers (OwnHits search) where
  serve _ h := h
  wiped _ _ := areHits_nil search
  opened _ _ _ := areHits_nil search
  added h hhit hshown := (h hshown).snoc (Option.some.inj hshown ▸ hhit)

/-- The tickets are counted as they are taken. -/
def Counted : Gist := fun t _ _ => ∀ channel, t.latest channel ≤ t.issued

theorem Tickets.counted_serve {t : Tickets String} (h : ∀ channel, t.latest channel ≤ t.issued) (aim : Option Aim)
    (channel : String) :
    t.latest channel ≤ (t.serve aim).latest channel ∧ (t.serve aim).latest channel ≤ (t.serve aim).issued := by
  unfold serve
  split
  · next channel' _ =>
    obtain ⟨hcounted, hgrows⟩ := Tickets.Counted.issue h channel'
    exact ⟨hgrows channel, hcounted channel⟩
  · exact ⟨Nat.le_refl _, h channel⟩

theorem gathers_counted : Gathers Counted where
  serve aim h channel := (Tickets.counted_serve h aim channel).2
  wiped h := h
  opened h _ := h
  added h _ := h

/-- A search has begun. -/
def Reached (ticket : Nat) : Gist := fun t lines shown => Counted t lines shown ∧ ticket ≤ t.latest searchChannel

theorem gathers_reached (ticket : Nat) : Gathers (Reached ticket) where
  serve aim h := ⟨fun channel => (Tickets.counted_serve h.1 aim channel).2,
    Nat.le_trans h.2 (Tickets.counted_serve h.1 aim searchChannel).1⟩
  wiped h := h
  opened h _ := h
  added h _ := h

/-- It is shown or has been, unless one that began later is. -/
def Succeeded (ticket : Nat) : Gist := fun t lines shown => Reached ticket t lines shown ∧
  (ticket < t.latest searchChannel ∨ ∃ s : Int, ticket ≤ s ∧ shown = some s)

theorem gathers_succeeded (ticket : Nat) : Gathers (Succeeded ticket) where
  serve aim h := by
    have hgrows := (Tickets.counted_serve h.1.1 aim searchChannel).1
    exact ⟨(gathers_reached ticket).serve aim h.1, h.2.imp_left fun hlt => Nat.lt_of_lt_of_le hlt hgrows⟩
  wiped h := h
  opened {_ _ _ s} h haccept := by
    refine ⟨h.1, .inr ⟨s, ?_, rfl⟩⟩
    have hle := Tickets.accept_iff.mp haccept
    have hreached := h.1.2
    omega
  added h _ := h

end CoqConsole
