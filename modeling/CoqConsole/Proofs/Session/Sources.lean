import CoqConsole.Proofs.Session.History
import CoqConsole.Proofs.Session.Standing

/-!
# Where the query pane's lines come from

The pane shows an answer or nothing, and then hits of one search. It shows both exactly if hits of a search come
again after an answer was put in their place.

* `standing_sublist` : what stands on the pane are renderings of answers and hits that came;
* `layered` : at most one answer, then hits of the search that is shown;
* `OneSource`, `Overlaid` : the pane shows one thing; an answer was put among the hits of a search;
* `oneSource_iff_not_overlaid` : a run keeps to one source exactly if it is not overlaid.
-/

namespace CoqConsole

/-! ## Layers -/

/-- Nothing or an answer, and then hits of the search that is shown. -/
def Layered (shown : Option Int) (us : List Writing) : Prop :=
  ∃ base hits, us = base ++ hits ∧ (base = [] ∨ ∃ t lines, base = [.answer t lines]) ∧
    ∀ w ∈ hits, ∃ s lines, shown = some s ∧ w = .hit s lines

/-- Everything is from one source: an answer, or hits of one search. -/
def OneSource (us : List Writing) : Prop :=
  (∃ t lines, us = [.answer t lines]) ∨ ∃ s, ∀ w ∈ us, ∃ lines, w = .hit s lines

/-- The standing writings are renderings of what came, in the order in which it came. -/
theorem standing_sublist (ts : List Moment) : (shownAfter ts).Sublist (ts.flatMap Moment.offers) := by
  induction ts using List.reverseRecOn with
  | nil => exact List.Sublist.refl _
  | append_singleton ts u ih =>
    rw [List.flatMap_append, List.flatMap_singleton]
    cases shift ts u with
    | same stale standing shown => rw [standing]; exact ih.trans (List.sublist_append_left _ _)
    | opened told none accepted new standing shown => rw [standing]; exact List.nil_sublist _
    | added told offered accepted standing shown =>
      rw [standing, offered]
      refine List.Sublist.append ?_ (List.Sublist.refl _)
      split
      · exact ih
      · exact List.nil_sublist _
    | @answered t value lines ended rendered accepted standing shown =>
      have hoffers : u.offers = [.answer t lines] := by rw [ended]; simp only [Moment.offers, rendered]
      rw [standing, hoffers]
      exact List.sublist_append_right _ _

theorem layered (ts : List Moment) : Layered (Board.after ts).shown (shownAfter ts) := by
  induction ts using List.reverseRecOn with
  | nil => exact ⟨[], [], rfl, .inl rfl, fun w hw => absurd hw List.not_mem_nil⟩
  | append_singleton ts u ih =>
    cases shift ts u with
    | same stale standing shown => rw [standing, shown]; exact ih
    | opened told none accepted new standing shown =>
      rw [standing]
      exact ⟨[], [], rfl, .inl rfl, fun w hw => absurd hw List.not_mem_nil⟩
    | @added s lines told offered accepted standing shown =>
      rw [standing, shown]
      split
      · next hs =>
        obtain ⟨base, hits, heq, hbase, hhits⟩ := ih
        refine ⟨base, hits ++ [.hit s lines], by rw [heq, List.append_assoc], hbase, fun w hw => ?_⟩
        rcases List.mem_append.mp hw with hw | hw
        · rw [← hs]
          exact hhits w hw
        · exact ⟨s, lines, rfl, List.mem_singleton.mp hw⟩
      · exact ⟨[], [.hit s lines], rfl, .inl rfl, fun w hw => ⟨s, lines, rfl, List.mem_singleton.mp hw⟩⟩
    | answered ended rendered accepted standing shown =>
      rw [standing]
      exact ⟨[.answer _ _], [], rfl, .inr ⟨_, _, rfl⟩, fun w hw => absurd hw List.not_mem_nil⟩

/-- What is not from one source is an answer with hits after it. -/
theorem Layered.mixed {shown : Option Int} {us : List Writing} (h : Layered shown us) (hmixed : ¬ OneSource us) :
    ∃ t lines hits, us = .answer t lines :: hits ∧ hits ≠ [] := by
  obtain ⟨base, hits, rfl, hbase, hhits⟩ := h
  rcases hbase with rfl | ⟨t, lines, rfl⟩
  · refine absurd (.inr ⟨shown.getD 0, fun w hw => ?_⟩) hmixed
    obtain ⟨s, lines, rfl, rfl⟩ := hhits w hw
    exact ⟨lines, rfl⟩
  · refine ⟨t, lines, hits, rfl, ?_⟩
    rintro rfl
    exact hmixed (.inl ⟨t, lines, rfl⟩)

theorem not_oneSource {t : Nat} {lines : List String} {us : List Writing} {w : Writing} :
    ¬ OneSource (.answer t lines :: (us ++ [w])) := by
  rintro (⟨t', lines', h⟩ | ⟨s, h⟩)
  · simp at h
  · obtain ⟨lines', h⟩ := h _ List.mem_cons_self
    cases h

/-! ## Answers among hits -/

/-- An answer is put among the hits of a search: a search was told of, then an answer that was not stale was shown,
then a hit of that search came, still the last one. -/
def Overlaid (ts : List Moment) : Prop :=
  ∃ (before : List Moment) (t : Nat) (value : Json) (lines : List String) (between : List Moment) (u : Moment)
    (after : List Moment) (s : Int) (hit : List String),
    ts = before ++ .ended (.question t) (.ok value) :: (between ++ u :: after) ∧
    (∃ v ∈ before, v.told? = some s) ∧
    renderAnswer value = .ok lines ∧ ¬ Overtaken questionChannel t before ∧
    u.offers = [.hit s hit] ∧ ¬ Overtaken searchChannel s (before ++ between)

theorem Overlaid.append {ts : List Moment} (h : Overlaid ts) (us : List Moment) : Overlaid (ts ++ us) := by
  obtain ⟨before, t, value, lines, between, u, after, s, hit, rfl, h⟩ := h
  exact ⟨before, t, value, lines, between, u, after ++ us, s, hit, by simp, h⟩

/-- A ticket is taken before an answer or after it. -/
theorem overtaken_ended {channel : String} {t : Int} {us vs : List Moment} {aim : Aim} {answer : Except Failure Json} :
    Overtaken channel t (us ++ .ended aim answer :: vs) ↔ Overtaken channel t (us ++ vs) := by
  have htaken : taken (us ++ .ended aim answer :: vs) = taken (us ++ vs) := by
    rw [taken_append, taken_append, ← List.singleton_append, taken_append]
    rfl
  rw [Overtaken, Overtaken, htaken]

/-- Where the answer at the base comes from. -/
structure Based (ts : List Moment) (t : Nat) (lines : List String) (hits : List Writing) : Prop where
  /-- The shown search was told of before the answer came. -/
  origin : ∃ before value after, ts = before ++ .ended (.question t) (.ok value) :: after ∧
    renderAnswer value = .ok lines ∧ ¬ Overtaken questionChannel t before ∧
    ∀ s, (Board.after ts).shown = some s → ∃ v ∈ before, v.told? = some s
  overlaid : hits ≠ [] → Overlaid ts

theorem based {ts : List Moment} (h : Orderly ts) (announced : Announced ts) {t : Nat} {lines : List String}
    {hits : List Writing} (heq : shownAfter ts = .answer t lines :: hits) : Based ts t lines hits := by
  induction h generalizing t lines hits with
  | nil => cases heq
  | @snoc ts u h due ih =>
    cases shift ts u with
    | same stale standing shown =>
      obtain ⟨⟨before, value, after, rfl, hlines, hnot, hshown⟩, hover⟩ :=
        ih announced.of_append (standing.symm.trans heq)
      refine ⟨⟨before, value, after ++ [u], by simp, hlines, hnot, ?_⟩, fun hne => (hover hne).append _⟩
      rw [shown]
      exact hshown
    | opened told none accepted new standing shown =>
      rw [standing] at heq
      cases heq
    | @added s hit told offered accepted standing shown =>
      rw [standing] at heq
      by_cases hs : (Board.after ts).shown = some s
      · rw [if_pos hs] at heq
        obtain ⟨hits', hits_eq, rfl⟩ : ∃ hits', shownAfter ts = .answer t lines :: hits' ∧
            hits = hits' ++ [.hit s hit] := by
          cases hbefore : shownAfter ts with
          | nil =>
            rw [hbefore] at heq
            cases heq
          | cons w ws =>
            rw [hbefore, List.cons_append] at heq
            cases heq
            exact ⟨ws, rfl, rfl⟩
        obtain ⟨⟨before, value, after, rfl, hlines, hnot, hshown⟩, -⟩ := ih announced.of_append hits_eq
        obtain ⟨n, rfl, -⟩ := begun_of_told (h.snoc due) announced told
        have hlast := (h.accept_iff searchChannel n).mp accepted
        rw [overtaken_ended] at hlast
        refine ⟨⟨before, value, after ++ [u], by simp, hlines, hnot, ?_⟩, fun _ => ?_⟩
        · rw [shown]
          rintro s ⟨⟩
          exact hshown _ hs
        · exact ⟨before, t, value, lines, after, u, [], n, hit, by simp, hshown _ hs, hlines, hnot, offered, hlast⟩
      · rw [if_neg hs] at heq
        cases heq
    | @answered t' value lines' ended rendered accepted standing shown =>
      rw [standing] at heq
      cases heq
      have hnot := (h.accept_iff questionChannel t).mp accepted
      refine ⟨⟨ts, value, [], by rw [ended], rendered, hnot, fun s hs => ?_⟩, fun hne => absurd rfl hne⟩
      exact mem_of_shown (shown.symm.trans hs)

/-- An answer stays, and the search that is shown, as long as that search is the last one. -/
theorem based_append {ts us : List Moment} (h : Orderly (ts ++ us)) (announced : Announced (ts ++ us)) {n : Nat}
    (hbegun : .begun (.search n) ∈ ts) (hlast : ¬ Overtaken searchChannel n (ts ++ us))
    (hshown : (Board.after ts).shown = some (n : Int)) (hbase : ∃ t lines hits, shownAfter ts = .answer t lines :: hits) :
    (Board.after (ts ++ us)).shown = some (n : Int) ∧
      ∃ t lines hits, shownAfter (ts ++ us) = .answer t lines :: hits := by
  induction us using List.reverseRecOn with
  | nil =>
    rw [List.append_nil]
    exact ⟨hshown, hbase⟩
  | append_singleton us u ih =>
    rw [← List.append_assoc] at h announced hlast ⊢
    have hprefix := h.of_prefix (List.prefix_append _ _)
    have hlast' : ¬ Overtaken searchChannel n (ts ++ us) := fun hover => hlast (hover.append [u])
    obtain ⟨hs, t, lines, hits, heq⟩ := ih hprefix announced.of_append hlast'
    cases shift (ts ++ us) u with
    | same stale standing shown => exact ⟨shown.trans hs, t, lines, hits, standing.trans heq⟩
    | opened told none accepted new standing shown =>
      rw [eq_of_told h announced told accepted (List.mem_append_left _ hbegun) hlast'] at new
      exact absurd hs new
    | @added s hit told offered accepted standing shown =>
      rw [eq_of_told h announced told accepted (List.mem_append_left _ hbegun) hlast'] at standing shown
      rw [if_pos hs, heq] at standing
      exact ⟨shown, t, lines, _, standing⟩
    | @answered t' value lines' ended rendered accepted standing shown =>
      exact ⟨shown.trans hs, t', lines', [], standing⟩

theorem shownAfter_answered {ts : List Moment} (h : Orderly ts) {t : Nat} {value : Json} {lines : List String}
    (rendered : renderAnswer value = .ok lines) (hnot : ¬ Overtaken questionChannel t ts) :
    (Board.after (ts ++ [.ended (.question t) (.ok value)])).shown = (Board.after ts).shown ∧
      shownAfter (ts ++ [.ended (.question t) (.ok value)]) = [.answer t lines] := by
  have accepted := (h.accept_iff questionChannel t).mpr hnot
  refine ⟨by rw [Board.after_snoc, Board.shown_take]; rfl, ?_⟩
  rw [shownAfter_snoc]
  simp only [Board.writings, accepted, if_true, rendered]
  rfl

theorem shownAfter_added {ts : List Moment} (h : Orderly ts) {n : Nat} {u : Moment} {lines : List String}
    (offered : u.offers = [.hit n lines]) (hnot : ¬ Overtaken searchChannel n ts)
    (hshown : (Board.after ts).shown = some (n : Int)) :
    shownAfter (ts ++ [u]) = shownAfter ts ++ [.hit n lines] := by
  have accepted := (h.accept_iff searchChannel n).mpr hnot
  obtain ⟨params, hit, rfl, hread, hid, hrender⟩ := heard_of_offers offered
  rw [← hid] at accepted hshown ⊢
  rw [shownAfter_snoc]
  simp only [Board.writings, hread, accepted, if_true, hrender, Board.opening, hshown]
  rfl

/-- As soon as an overlaying hit has come, the pane shows an answer and hits. -/
theorem mixed_of_overlaid {before between : List Moment} {u v : Moment} {t : Nat} {value : Json}
    {lines hit : List String} {s : Int}
    (h : Orderly (before ++ .ended (.question t) (.ok value) :: (between ++ [u])))
    (announced : Announced (before ++ .ended (.question t) (.ok value) :: (between ++ [u])))
    (hv : v ∈ before) (told : v.told? = some s) (rendered : renderAnswer value = .ok lines)
    (hnot : ¬ Overtaken questionChannel t before) (offered : u.offers = [.hit s hit])
    (hlast : ¬ Overtaken searchChannel s (before ++ between)) :
    ¬ OneSource (shownAfter (before ++ .ended (.question t) (.ok value) :: (between ++ [u]))) := by
  have hsplit : before ++ .ended (.question t) (.ok value) :: (between ++ [u]) =
      before ++ [.ended (.question t) (.ok value)] ++ between ++ [u] := by simp
  rw [hsplit] at h announced ⊢
  have hmiddle := h.of_prefix (List.prefix_append _ _)
  have hanswer := hmiddle.of_prefix (List.prefix_append _ _)
  have hbefore := hanswer.of_prefix (List.prefix_append _ _)
  have announced' := announced.of_append.of_append.of_append
  obtain ⟨n, rfl, hbegun⟩ := begun_of_mem hbefore announced' hv told
  have hlast' : ¬ Overtaken searchChannel n (before ++ [.ended (.question t) (.ok value)] ++ between) := by
    rw [List.append_assoc, List.singleton_append, overtaken_ended]
    exact hlast
  have hshown := shown_of_told hbefore announced' hv told fun hover => hlast (hover.append _)
  obtain ⟨hshown', hbase⟩ := shownAfter_answered hbefore rendered hnot
  obtain ⟨hshown'', t', lines', hits, heq⟩ := based_append hmiddle announced.of_append
    (List.mem_append_left _ hbegun) hlast' (hshown'.trans hshown) ⟨t, lines, [], hbase⟩
  rw [shownAfter_added hmiddle offered hlast' hshown'', heq]
  exact not_oneSource

/-! ## Runs -/

namespace Exchange

variable {L : Type} (carrier : Carrier L)

/-- The pane of a session shows at most one answer, and after it hits of one search, each as it came. It keeps to
one source in every state of a run exactly if no answer is put among the hits of a search. -/
theorem oneSource_iff_not_overlaid {overrides : Json} {ns : String} {s : Session} (created : Session.create overrides ns = .ok s)
    (buffers : List (Buffer Reaction Mark)) (link : L) (es : List (Event L))
    (announced : Announced ((idle s buffers link).history carrier es)) :
    let x := (idle s buffers link).follow carrier es
    let ts := (idle s buffers link).history carrier es
    x.desk.session.queryPane.lines = (shownAfter ts).flatMap Writing.lines ∧
      (shownAfter ts).Sublist (ts.flatMap Moment.offers) ∧
      Layered x.desk.session.shownSearch (shownAfter ts) ∧
      ((∀ fs, fs <+: es → OneSource (shownAfter ((idle s buffers link).history carrier fs))) ↔ ¬ Overlaid ts) := by
  intro x ts
  have hrecorded (fs : List (Event L)) := recorded_follow carrier (Recorded.idle created buffers link) fs
  simp only [List.nil_append] at hrecorded
  have hpane : x.desk.session.queryPane = (Board.after ts).pane := congrArg Board.pane (hrecorded es).board
  have hshown : x.desk.session.shownSearch = (Board.after ts).shown := congrArg Board.shown (hrecorded es).board
  refine ⟨hpane ▸ lines_after ts, standing_sublist ts, hshown ▸ layered ts, fun hall hover => ?_, fun hnot fs hfs => ?_⟩
  · obtain ⟨before, t, value, lines, between, u, after, s', hit, hts, ⟨v, hv, told⟩, rendered, hnot, offered, hlast⟩ := hover
    obtain ⟨params, -, rfl, -⟩ := heard_of_offers offered
    have hheard : (idle s buffers link).history carrier es =
        (before ++ .ended (.question t) (.ok value) :: between) ++ .heard params :: after := by
      rw [List.append_assoc]
      exact hts
    obtain ⟨fs, hfs, heq⟩ := exists_history_heard carrier (idle s buffers link) es hheard
    have hone := hall fs hfs
    have horderly := (hrecorded fs).orderly
    have hannounced : Announced (before ++ .ended (.question t) (.ok value) :: between ++ [.heard params]) := by
      obtain ⟨gs, rfl⟩ := hfs
      rw [history_append, heq] at announced
      exact announced.of_append
    rw [heq, List.append_assoc] at hone horderly
    rw [List.append_assoc] at hannounced
    exact mixed_of_overlaid horderly hannounced hv told rendered hnot offered hlast hone
  · by_contra hone
    obtain ⟨gs, rfl⟩ := hfs
    have hhistory := history_append carrier (idle s buffers link) fs gs
    rw [hhistory] at announced
    obtain ⟨t, lines, hits, heq, hne⟩ := (layered _).mixed hone
    have hover := (based (hrecorded fs).orderly announced.of_append heq).overlaid hne
    exact hnot (by rw [show ts = _ from hhistory]; exact hover.append _)

/-- A search, a check, and a hit of the search. -/
def checkAmongHits : List (Event Unit) :=
  [.ask 0 .null (.search (.text "plus") .cursor), .answer 0 (.ok .null),
    .ask 0 .null (.question (.text "check") (.text "nat") .cursor), .answer 1 (.ok (.text "nat : Set")), .hit firstHit]

theorem oneSource_checkAmongHits : ∃ s : Session, Session.create (.object []) "" = .ok s ∧
    Announced ((idle s [.ofText "" "" ""] ()).history silent checkAmongHits) ∧
    ((idle s [.ofText "" "" ""] ()).follow silent checkAmongHits).desk.session.queryPane.lines =
      ["nat : Set", "plus_n_O:", "  True", ""] ∧
    ¬ ∀ fs, fs <+: checkAmongHits → OneSource (shownAfter ((idle s [.ofText "" "" ""] ()).history silent fs)) := by
  obtain ⟨s, created⟩ : ∃ s, Session.create (.object []) "" = .ok s := ⟨_, rfl⟩
  have hhistory : (idle s [.ofText "" "" ""] ()).history silent checkAmongHits =
      [.begun (.search 1), .ended (.search 1) (.ok .null), .begun (.question 2)] ++
        .ended (.question 2) (.ok (.text "nat : Set")) :: ([] ++ .heard firstHit :: []) := by
    cases created
    rfl
  have hread : SearchHit.ofJson firstHit = .ok ⟨1, .text "plus_n_O", .text "True"⟩ := rfl
  have announced : Announced ((idle s [.ofText "" "" ""] ()).history silent checkAmongHits) := by
    rw [hhistory]
    intro us params vs h hit hhit
    rcases us with _ | ⟨_, _ | ⟨_, _ | ⟨_, _ | ⟨_, _ | ⟨_, us⟩⟩⟩⟩⟩ <;> simp at h
    obtain ⟨rfl, rfl, rfl, rfl, rfl, rfl⟩ := h
    cases hread.symm.trans hhit
    exact ⟨1, rfl, List.mem_cons_self⟩
  have hsources := oneSource_iff_not_overlaid silent created [.ofText "" "" ""] () checkAmongHits announced
  refine ⟨s, created, announced, by cases created; rfl, fun hall => hsources.2.2.2.mp hall ?_⟩
  rw [hhistory]
  refine ⟨_, 2, _, ["nat : Set"], [], _, [], 1, ["plus_n_O:", "  True", ""], rfl, ?_, rfl, by decide, rfl, by decide⟩
  exact ⟨.ended (.search 1) (.ok .null), by simp, rfl⟩

end Exchange
end CoqConsole
