import CoqConsole.Proofs.Buffer.Scripting
import CoqConsole.Proofs.Buffer.Soundness

/-!
# What an emission calls

* `Buffer.Ordered` : the rolls are right, and in the order of subscription; every deed keeps it so;
* `eq_close_of_event?`, `closed_apply` : only closing sets off `closed`, and what is closed stays so;
* `Scene.turnsOf`, `Scene.turned`, `Scene.calledBy` : the turns of an emission, and those that it called;
* `Scene.Regular` : emissions under way and over have come through their rolls, `regular_play`;
* `Scene.Heard` : whom an emission called that went through all its turns;
* `exists_heard_emission` : the emission that an operation makes is heard if it does not fail;
* `emissions_heard` : in every play, and so with whatever operates on a buffer.
-/

namespace CoqConsole.Buffer

variable {κ μ : Type} {b : Buffer κ μ}

/-! ## Rolls in order -/

/-- The rolls hold the active handles of their events in the order of subscription. -/
structure Ordered (b : Buffer κ μ) : Prop extends Enrolled b where
  ascending : ∀ e, (b.roll e).Pairwise (· < ·)

namespace Ordered

theorem of_eq {b' : Buffer κ μ} (h : b.Ordered) (hsub : b'.subscriptions = b.subscriptions)
    (hrolls : b'.rolls = b.rolls) : b'.Ordered := by
  refine ⟨h.toEnrolled.of_eq hsub hrolls, fun e => ?_⟩
  rw [roll, hrolls]
  exact h.ascending e

theorem lt (h : b.Ordered) {e : BufferEvent} {handle : Nat} (hmem : handle ∈ b.roll e) :
    handle < b.subscriptions.length := by
  obtain ⟨s, hs, -⟩ := (h.active e handle).mp hmem
  exact (List.getElem?_eq_some_iff.mp hs).1

theorem subscribe (h : b.Ordered) (e : BufferEvent) (listener : κ) : (b.subscribe e listener).2.Ordered := by
  refine ⟨h.toEnrolled.subscribe e listener, fun e' => ?_⟩
  have hroll : (b.subscribe e listener).2.roll e' =
      if e = e' then b.roll e' ++ [b.subscriptions.length] else b.roll e' := of_update _ _ _ _
  rw [hroll]
  split
  · refine List.pairwise_append.mpr ⟨h.ascending e', List.pairwise_singleton _ _, fun i hi j hj => ?_⟩
    rw [List.mem_singleton.mp hj]
    exact h.lt hi
  · exact h.ascending e'

theorem cancel (h : b.Ordered) (handle : Nat) : (b.cancel handle).Ordered := by
  refine ⟨h.toEnrolled.cancel handle, fun e => ?_⟩
  cases hactive : b.isActive handle with
  | false =>
    rw [cancel_of_not_active hactive]
    exact h.ascending e
  | true =>
    obtain ⟨s, hs, hon⟩ := isActive_eq_true.mp hactive
    have hroll : (b.cancel handle).roll e = if s.event = e then (b.roll e).erase handle else b.roll e := by
      rw [cancel_of_active hs hon]
      exact of_update _ _ _ _
    rw [hroll]
    split
    · exact (h.ascending e).sublist List.erase_sublist
    · exact h.ascending e

theorem apply (h : b.Ordered) (d : Deed κ μ) : (d.apply b).Ordered := by
  cases d with
  | setCursor p =>
    obtain ⟨cursor, hmoved⟩ := Deed.apply_setCursor b p
    rw [hmoved]
    exact h.of_eq rfl rfl
  | subscribe e listener => exact h.subscribe e listener
  | cancel handle => exact h.cancel handle
  | _ => exact h.of_eq rfl rfl

end Ordered

theorem ordered_ofText (uri text language : String) : (ofText uri text language : Buffer κ μ).Ordered :=
  ⟨enrolled_ofText uri text language, fun e => by cases e <;> exact List.Pairwise.nil⟩

/-! ## Closing -/

/-- What is closed stays closed. -/
theorem closed_apply (d : Deed κ μ) (h : b.closed = true) : (d.apply b).closed = true := by
  cases d with
  | setCursor p =>
    obtain ⟨cursor, hmoved⟩ := Deed.apply_setCursor b p
    rw [hmoved]
    exact h
  | cancel handle =>
    obtain ⟨subscriptions, rolls, hcancel⟩ := Deed.apply_cancel b handle
    rw [hcancel]
    exact h
  | close => rfl
  | _ => exact h

/-- Only closing sets off `closed`, and only the first time. -/
theorem eq_close_of_event? {d : Deed κ μ} (h : d.event? b = some .closed) : d = .close ∧ b.closed = false := by
  cases d with
  | close =>
    refine ⟨rfl, ?_⟩
    simp only [Deed.event?] at h
    split at h
    · cases h
    · next hopen => simpa using hopen
  | setCursor p =>
    simp only [Deed.event?, Option.map_eq_some_iff] at h
    obtain ⟨_, -, h⟩ := h
    cases h
  | _ => cases h

namespace Scene

/-! ## Turns of an emission -/

def turnsOf (s : Scene κ μ) (number : Nat) : List (Turn κ μ) := s.turns.filter fun t => t.emission == number

def turned (s : Scene κ μ) (number : Nat) : List Nat := (s.turnsOf number).map Turn.handle

def calledBy (s : Scene κ μ) (number : Nat) : List Nat :=
  (s.calls.filter fun t => t.emission == number).map Turn.handle

variable {s s' : Scene κ μ}

theorem turned_snoc {number handle : Nat} {b : Buffer κ μ} (h : s'.turns = s.turns ++ [⟨number, handle, b⟩]) (k : Nat) :
    s'.turned k = s.turned k ++ if number = k then [handle] else [] := by
  unfold turned turnsOf
  rw [h, List.filter_append, List.map_append]
  by_cases hk : number = k <;> simp [hk]

/-- Emissions come through the handles that were registered when they began; one that is over has come through all of
them. There is at most one emission of `closed`. -/
structure Regular (s : Scene κ μ) : Prop where
  ordered : s.buffer.Ordered
  began : ∀ p ∈ s.begun, p.2.Ordered
  single : (s.ended ++ s.underWay.map Emission.number).Nodup
  numbered : ∀ n ∈ s.ended ++ s.underWay.map Emission.number, n < s.begun.length
  known : ∀ t ∈ s.turns, t.emission < s.begun.length
  turning : ∀ em ∈ s.underWay, ∀ p, s.begun[em.number]? = some p → s.turned em.number ++ em.rest = p.2.roll p.1
  finished : ∀ n ∈ s.ended, ∀ p, s.begun[n]? = some p → s.turned n = p.2.roll p.1
  called : s.calls = s.turns.filter fun t => t.buffer.isActive t.handle
  closing : s.begun.countP (fun p => decide (p.1 = .closed)) ≤ if s.buffer.closed then 1 else 0

namespace Regular

theorem opening (h : b.Ordered) : Regular (opening b) where
  ordered := h
  began _ hp := by cases hp
  single := List.nodup_nil
  numbered _ hn := by cases hn
  known _ ht := by cases ht
  turning _ hem := by cases hem
  finished _ hn := by cases hn
  called := rfl
  closing := Nat.zero_le _

/-- A deed that sets off nothing. -/
theorem act (h : s.Regular) (d : Deed κ μ) : Regular { s with buffer := d.apply s.buffer } := by
  refine ⟨h.ordered.apply d, h.began, h.single, h.numbered, h.known, h.turning, h.finished, h.called, ?_⟩
  refine h.closing.trans ?_
  show _ ≤ if (d.apply s.buffer).closed then 1 else 0
  cases hclosed : s.buffer.closed with
  | false => exact Nat.zero_le _
  | true => rw [closed_apply d hclosed]

/-- Nobody has had a turn in an emission that has not begun. -/
theorem turned_fresh (h : s.Regular) {number : Nat} (hnumber : s.begun.length ≤ number) : s.turned number = [] := by
  rw [turned, List.map_eq_nil_iff, turnsOf, List.filter_eq_nil_iff]
  intro t ht
  have hknown := h.known t ht
  rw [beq_iff_eq]
  omega

/-- An emission begins with the roll of its event. It has a number of its own. -/
theorem begin (h : s.Regular) {e : BufferEvent}
    (hclosing : e = .closed → s.begun.countP (fun p => decide (p.1 = .closed)) = 0 ∧ s.buffer.closed = true) :
    Regular (s.begin e) := by
  have hbefore {n : Nat} (hn : n < s.begun.length) : (s.begin e).begun[n]? = s.begun[n]? :=
    List.getElem?_append_left hn
  have hmem {em : Emission} (hem : em ∈ s.underWay) : em.number < s.begun.length :=
    h.numbered _ (List.mem_append_right _ (List.mem_map_of_mem hem))
  have hfresh : s.begun.length ∉ s.ended ++ s.underWay.map Emission.number :=
    fun hmem => Nat.lt_irrefl _ (h.numbered _ hmem)
  have hlength : (s.begin e).begun.length = s.begun.length + 1 := by simp [Scene.begin]
  constructor
  case ordered => exact h.ordered
  case began =>
    intro p hp
    rcases List.mem_append.mp hp with hp | hp
    · exact h.began p hp
    · rw [List.mem_singleton.mp hp]
      exact h.ordered
  case single =>
    show (s.ended ++ s.begun.length :: s.underWay.map Emission.number).Nodup
    exact List.nodup_middle.mpr (List.nodup_cons.mpr ⟨hfresh, h.single⟩)
  case numbered =>
    intro n hn
    rw [hlength]
    rcases List.mem_append.mp hn with hn | hn
    · exact Nat.lt_succ_of_lt (h.numbered n (List.mem_append_left _ hn))
    · rcases List.mem_cons.mp hn with rfl | hn
      · exact Nat.lt_succ_self _
      · exact Nat.lt_succ_of_lt (h.numbered n (List.mem_append_right _ hn))
  case known =>
    intro t ht
    rw [hlength]
    exact Nat.lt_succ_of_lt (h.known t ht)
  case turning =>
    intro em hem p hp
    rcases List.mem_cons.mp hem with rfl | hem
    · have hlast : (s.begin e).begun[s.begun.length]? = some (e, s.buffer) := by simp [Scene.begin]
      cases hlast.symm.trans hp
      show s.turned s.begun.length ++ s.buffer.roll e = s.buffer.roll e
      rw [h.turned_fresh (Nat.le_refl _), List.nil_append]
    · exact h.turning em hem p (hbefore (hmem hem) ▸ hp)
  case finished =>
    intro n hn p hp
    exact h.finished n hn p (hbefore (h.numbered n (List.mem_append_left _ hn)) ▸ hp)
  case called => exact h.called
  case closing =>
    show (s.begun ++ [(e, s.buffer)]).countP _ ≤ _
    rw [List.countP_append, List.countP_singleton]
    by_cases he : e = .closed
    · obtain ⟨hnone, hclosed⟩ := hclosing he
      show _ ≤ if s.buffer.closed = true then 1 else 0
      rw [hnone, hclosed]
      split <;> decide
    · rw [if_neg (by simpa using he)]
      exact h.closing

/-- A handle has its turn in the innermost emission, whether it is called or not. -/
theorem turn (h : s.Regular) {number handle : Nat} {rest : List Nat} {outer : List Emission} {calling : Bool}
    (hunder : s.underWay = ⟨number, handle :: rest, false⟩ :: outer)
    (hunder' : s'.underWay = ⟨number, rest, calling⟩ :: outer) (hbuffer : s'.buffer = s.buffer)
    (hbegun : s'.begun = s.begun) (hended : s'.ended = s.ended)
    (hturns : s'.turns = s.turns ++ [⟨number, handle, s.buffer⟩])
    (hcalls : s'.calls = s.calls ++ if s.buffer.isActive handle then [⟨number, handle, s.buffer⟩] else []) :
    s'.Regular := by
  have hnumbers : s'.ended ++ s'.underWay.map Emission.number = s.ended ++ s.underWay.map Emission.number := by
    rw [hended, hunder, hunder']
    rfl
  have hsingle := h.single
  rw [hunder, List.map_cons, List.nodup_middle, List.nodup_cons] at hsingle
  have hother {n : Nat} (hn : n ∈ s.ended ++ outer.map Emission.number) : s'.turned n = s.turned n := by
    rw [turned_snoc hturns, if_neg, List.append_nil]
    rintro rfl
    exact hsingle.1 hn
  constructor
  case ordered =>
    rw [hbuffer]
    exact h.ordered
  case began =>
    rw [hbegun]
    exact h.began
  case single =>
    rw [hnumbers]
    exact h.single
  case numbered =>
    rw [hnumbers, hbegun]
    exact h.numbered
  case known =>
    rw [hturns, hbegun]
    refine List.forall_mem_append.mpr ⟨h.known, List.forall_mem_singleton.mpr ?_⟩
    exact h.numbered number (List.mem_append_right _ (by rw [hunder]; exact List.mem_cons_self))
  case turning =>
    intro em hem p hp
    rw [hbegun] at hp
    rw [hunder'] at hem
    rcases List.mem_cons.mp hem with rfl | hem
    · have hturning := h.turning ⟨number, handle :: rest, false⟩ (by rw [hunder]; exact List.mem_cons_self) p hp
      rw [turned_snoc hturns, if_pos rfl, List.append_assoc]
      exact hturning
    · rw [hother (List.mem_append_right _ (List.mem_map_of_mem hem))]
      exact h.turning em (by rw [hunder]; exact List.mem_cons_of_mem _ hem) p hp
  case finished =>
    intro n hn p hp
    rw [hended] at hn
    rw [hbegun] at hp
    rw [hother (List.mem_append_left _ hn)]
    exact h.finished n hn p hp
  case called =>
    rw [hcalls, hturns, List.filter_append, h.called]
    cases hactive : s.buffer.isActive handle <;> simp [hactive]
  case closing =>
    rw [hbegun, hbuffer]
    exact h.closing

/-- A listener returns to its emission. -/
theorem leave (h : s.Regular) {number : Nat} {rest : List Nat} {outer : List Emission}
    (hunder : s.underWay = ⟨number, rest, true⟩ :: outer) :
    Regular { s with underWay := ⟨number, rest, false⟩ :: outer } := by
  have hsingle := h.single
  have hnumbered := h.numbered
  have hturning := h.turning
  rw [hunder] at hsingle hnumbered hturning
  refine ⟨h.ordered, h.began, hsingle, hnumbered, h.known, fun em hem => ?_, h.finished, h.called, h.closing⟩
  rcases List.mem_cons.mp hem with rfl | hem
  · exact hturning ⟨number, rest, true⟩ List.mem_cons_self
  · exact hturning em (List.mem_cons_of_mem _ hem)

/-- The innermost emission is over, having gone through all its turns or not. -/
theorem close (h : s.Regular) {em : Emission} {outer : List Emission} (hunder : s.underWay = em :: outer)
    {ended : List Nat} (hended : ended = s.ended ∨ ended = s.ended ++ [em.number] ∧ em.rest = []) :
    Regular { s with underWay := outer, ended } := by
  have hnumbers : (ended ++ outer.map Emission.number).Sublist (s.ended ++ s.underWay.map Emission.number) := by
    rw [hunder, List.map_cons]
    rcases hended with rfl | ⟨rfl, -⟩
    · exact (List.sublist_cons_self _ _).append_left _
    · rw [List.append_assoc]
      exact List.Sublist.refl _
  have hturning := h.turning
  rw [hunder] at hturning
  refine ⟨h.ordered, h.began, hnumbers.nodup h.single, fun n hn => h.numbered n (hnumbers.subset hn), h.known,
    fun em' hem => hturning em' (List.mem_cons_of_mem _ hem), fun n hn p hp => ?_, h.called, h.closing⟩
  rcases hended with rfl | ⟨rfl, hrest⟩
  · exact h.finished n hn p hp
  · rcases List.mem_append.mp hn with hn | hn
    · exact h.finished n hn p hp
    · rw [List.mem_singleton.mp hn] at hp ⊢
      have hturned := hturning em List.mem_cons_self p hp
      rw [hrest, List.append_nil] at hturned
      exact hturned

theorem stepped (h : s.Regular) {m : Move κ μ} (hstep : Stepped s m s') : s'.Regular := by
  cases hstep with
  | quiet => exact h.act _
  | @emitting d e hcontrol hevent =>
    refine (h.act d).begin fun he => ?_
    subst he
    obtain ⟨rfl, hopen⟩ := eq_close_of_event? hevent
    have hclosing := h.closing
    rw [hopen] at hclosing
    exact ⟨Nat.le_zero.mp hclosing, rfl⟩
  | calling hunder hactive => exact h.turn hunder rfl rfl rfl rfl rfl (by rw [hactive]; rfl)
  | passing hunder hactive => exact h.turn hunder rfl rfl rfl rfl rfl (by rw [hactive]; exact (List.append_nil _).symm)
  | leaving hunder => exact h.leave hunder
  | failing hunder => exact h.close hunder (.inl rfl)
  | finishing hunder => exact h.close hunder (.inr ⟨rfl, rfl⟩)

end Regular

theorem regular_play (hb : b.Ordered) {ms : List (Move κ μ)} (h : (opening b).play ms = some s) : s.Regular :=
  play_induction (P := fun _ s => s.Regular) (.opening hb) (fun _ _ _ _ h hstep => h.stepped hstep) h

/-! ## Emissions that are over -/

/-- An emission of an event has come through the handles that were registered when it began, in the order of
subscription, and has called those that were active as their turn came, each once and nobody else. -/
structure Heard (s : Scene κ μ) (number : Nat) (e : BufferEvent) (b : Buffer κ μ) : Prop where
  began : s.begun[number]? = some (e, b)
  registered : ∀ handle, handle ∈ b.roll e ↔ ∃ x, b.subscriptions[handle]? = some x ∧ x.active = true ∧ x.event = e
  turned : s.turned number = b.roll e
  called : s.calledBy number =
    ((s.turnsOf number).filter fun t => t.buffer.isActive t.handle).map Turn.handle
  ascending : (s.calledBy number).Pairwise (· < ·)
  later : ∀ handle, b.subscriptions.length ≤ handle → handle ∉ s.calledBy number

/-- What has come through its roll is heard. -/
theorem Regular.heard (h : s.Regular) {number : Nat} {e : BufferEvent} {b : Buffer κ μ} (hended : number ∈ s.ended)
    (hbegun : s.begun[number]? = some (e, b)) : s.Heard number e b := by
  have hordered : b.Ordered := h.began _ (List.mem_of_getElem? hbegun)
  have hturned : s.turned number = b.roll e := h.finished number hended _ hbegun
  have hcalled : s.calledBy number =
      ((s.turnsOf number).filter fun t => t.buffer.isActive t.handle).map Turn.handle := by
    rw [calledBy, h.called, turnsOf, List.filter_filter, List.filter_filter]
    simp only [Bool.and_comm]
  have hsublist : (s.calledBy number).Sublist (b.roll e) := by
    rw [hcalled, ← hturned]
    exact List.filter_sublist.map _
  refine ⟨hbegun, hordered.active e, hturned, hcalled, (hordered.ascending e).sublist hsublist, ?_⟩
  intro handle hlater hmem
  have := hordered.lt (hsublist.subset hmem)
  omega

theorem Regular.exists_heard (h : s.Regular) {number : Nat} (hended : number ∈ s.ended) :
    ∃ e b, s.Heard number e b :=
  have hbegun := List.getElem?_eq_getElem (h.numbered number (List.mem_append_left _ hended))
  ⟨_, _, h.heard hended hbegun⟩

/-- What has begun stays on record. -/
theorem begun_prefix {ms : List (Move κ μ)} (h : s.play ms = some s') : s.begun <+: s'.begun := by
  refine play_induction (P := fun _ s' => s.begun <+: s'.begun) List.prefix_rfl ?_ h
  intro _ s₁ m s₂ hbefore hstep
  cases hstep with
  | emitting => exact hbefore.trans (List.prefix_append _ _)
  | _ => exact hbefore

end Scene

/-- The emission that a deed sets off is a play, with all that its listeners do. It is heard if it does not fail, and it
fails only by a listener. -/
theorem exists_heard_emission (hb : b.Ordered) {σ : Type} {view : σ → Buffer κ μ} {R : σ → Scene κ μ → Prop}
    {call : Nat → ExceptT Failure (StateM σ) Unit} {answer : Nat → Course σ κ μ} (depicts : Depicts view R)
    (answers : Answers view R call answer)
    {ms : List (Move κ μ)} {sc : Scene κ μ} {d : Deed κ μ} {e : BufferEvent} {s : σ}
    (hplay : (Scene.opening b).play ms = some sc) (hcontrol : sc.inControl = true)
    (hevent : d.event? sc.buffer = some e) (hs : R s (sc.act d)) :
    let out := (emission view call ((view s).roll e)).run.run s
    ∃ ns sc', (Scene.opening b).play (ms ++ .act d :: ns) = some sc' ∧ sc'.underWay = sc.underWay ∧ R out.2 sc' ∧
      Turns view answer ((view s).roll e) s ns out.1 out.2 ∧ (out.1 = .ok () → sc'.Heard sc.begun.length e (view s)) ∧
      ∀ cause, out.1 = .error cause → ∃ handle ∈ (view s).roll e, ∃ s',
        (view s').isActive handle = true ∧ ((call handle).run.run s').1 = .error cause := by
  have hact : sc.act d = Scene.begin { sc with buffer := d.apply sc.buffer } e := by
    unfold Scene.act
    rw [hevent]
  have hbuffer : d.apply sc.buffer = view s := by
    rw [← depicts.buffer hs, hact]
    rfl
  have hunder : (sc.act d).underWay = ⟨sc.begun.length, (view s).roll e, false⟩ :: sc.underWay := by
    rw [hact, ← hbuffer]
    rfl
  have hbegun : (sc.act d).begun = sc.begun ++ [(e, view s)] := by
    rw [hact, ← hbuffer]
    rfl
  have hstep : sc.play [.act d] = some (sc.act d) := by
    rw [Scene.play_single, Scene.step?, if_pos hcontrol]
  obtain ⟨ns, sc', hrest, hunder', hsc', hturns, hended⟩ := enacts_emission depicts answers hs hunder
  have hwhole := Scene.play_trans hplay (Scene.play_trans hstep hrest)
  refine ⟨ns, sc', hwhole, hunder', hsc', hturns, fun hok => ?_, fun _ hfails => emission_fails hfails⟩
  refine (Scene.regular_play hb hwhole).heard (hended hok) ?_
  obtain ⟨after, hafter⟩ := Scene.begun_prefix hrest
  rw [← hafter, hbegun, List.append_assoc, List.getElem?_append_right le_rfl, Nat.sub_self]
  rfl

/-- What emissions call, whatever the listeners do. In every play, each emission that went through all its turns was
heard by whom it concerned, and there was at most one of `closed`. The emission that a deed sets off is part of such a
play, with all that the listeners do, and has gone through all its turns unless one of them failed. So it is with
scripts. -/
theorem emissions_heard (uri text language : String) :
    (∀ (ms : List (Move κ μ)) (sc : Scene κ μ), (Scene.opening (ofText uri text language)).play ms = some sc →
      (∀ number ∈ sc.ended, ∃ e b, sc.Heard number e b) ∧
        sc.begun.countP (fun p => decide (p.1 = .closed)) ≤ 1) ∧
    (∀ (σ : Type) (view : σ → Buffer κ μ) (R : σ → Scene κ μ → Prop) (call : Nat → ExceptT Failure (StateM σ) Unit)
      (answer : Nat → Course σ κ μ), Depicts view R → Answers view R call answer →
      ∀ (ms : List (Move κ μ)) (sc : Scene κ μ) (d : Deed κ μ) (e : BufferEvent) (s : σ),
        (Scene.opening (ofText uri text language)).play ms = some sc → sc.inControl = true →
        d.event? sc.buffer = some e → R s (sc.act d) →
        let out := (emission view call ((view s).roll e)).run.run s
        ∃ ns sc', (Scene.opening (ofText uri text language)).play (ms ++ .act d :: ns) = some sc' ∧
          sc'.underWay = sc.underWay ∧ R out.2 sc' ∧ Turns view answer ((view s).roll e) s ns out.1 out.2 ∧
          (out.1 = .ok () → sc'.Heard sc.begun.length e (view s)) ∧
          ∀ cause, out.1 = .error cause → ∃ handle ∈ (view s).roll e, ∃ s',
            (view s').isActive handle = true ∧ ((call handle).run.run s').1 = .error cause) ∧
    ∀ (depth : Nat) (scripts : List (Script μ)),
      let stage := Stage.follow depth (Stage.start (ofText uri text language)) scripts
      ∃ ms sc, (Scene.opening (ofText uri text language)).play ms = some sc ∧ sc.underWay = [] ∧ stage.Shows sc ∧
        Stage.Follows depth scripts (Stage.start (ofText uri text language)) ms stage := by
  have hordered (κ : Type) : (ofText uri text language : Buffer κ μ).Ordered := ordered_ofText uri text language
  refine ⟨fun ms sc h => ?_, ?_, fun depth scripts => Stage.exists_play _ depth scripts⟩
  · have hregular := Scene.regular_play (hordered κ) h
    refine ⟨fun number hended => hregular.exists_heard hended, hregular.closing.trans ?_⟩
    split <;> decide
  · intro σ view R call answer depicts answers ms sc d e s hplay hcontrol hevent hs
    exact exists_heard_emission (hordered κ) depicts answers hplay hcontrol hevent hs

/-- Of three listeners the first cancels the second, registers a fourth and sets a text of its own, which the fourth
hears of. Two listeners that cancel each other: only the first is called. -/
theorem emissions_heard_crossing :
    let three : List (Move Unit Mark) := List.replicate 3 (.act (.subscribe .changed ()))
    let ms := three ++ [.act (.setText "x"), .turn, .act (.cancel 1), .act (.subscribe .changed ()),
      .act (.setText "y"), .turn, .leave, .turn, .leave, .turn, .leave, .finish, .leave, .turn, .turn, .leave, .finish]
    (∃ sc, (Scene.opening (ofText "u" "" "coq")).play ms = some sc ∧ sc.ended = [1, 0] ∧
      (∃ e b, sc.Heard 0 e b) ∧ sc.turned 0 = [0, 1, 2] ∧ sc.calledBy 0 = [0, 2] ∧ sc.calledBy 1 = [0, 2, 3]) ∧
    let call (handle : Nat) : ExceptT Failure (StateM (Buffer Unit Mark)) Unit := modify (·.cancel (1 - handle))
    let both : Buffer Unit Mark := (((ofText "u" "" "coq").subscribe .changed ()).2.subscribe .changed ()).2
    let b := both.replaceText "x"
    ∃ ns sc, (Scene.opening (ofText "u" "" "coq")).play (three.take 2 ++ .act (.setText "x") :: ns) = some sc ∧
      sc.buffer = ((emission id call [0, 1]).run.run b).2 ∧ sc.buffer.roll .changed = [0] ∧ sc.Heard 0 .changed b := by
  intro three ms
  constructor
  · exact ⟨_, rfl, rfl, ((emissions_heard "u" "" "coq").1 ms _ rfl).1 0 (by decide), rfl, rfl, rfl⟩
  · intro call both b
    let answer (handle : Nat) : Course (Buffer Unit Mark) Unit Mark :=
      fun b ms out b' => ms = [.act (.cancel (1 - handle))] ∧ out = .ok () ∧ b' = b.cancel (1 - handle)
    have answers : Answers id (fun b (sc : Scene Unit Mark) => sc.buffer = id b) call answer := by
      intro handle b sc sc' hsc _ hbuffer hcontrol _
      have hact := Scene.play_of_stepped (@Scene.Stepped.quiet _ _ sc' (.cancel (1 - handle)) hcontrol rfl)
      exact ⟨_, _, hact, rfl, congrArg (·.cancel (1 - handle)) (hbuffer.trans hsc), rfl, rfl, rfl⟩
    obtain ⟨ns, sc, hplay, -, hbuffer, -, hheard, -⟩ := (emissions_heard "u" "" "coq").2.1 _ id _ call answer
      (depicts_view id) answers (three.take 2) _ (.setText "x") .changed b rfl rfl rfl rfl
    exact ⟨ns, sc, hplay, hbuffer, by rw [hbuffer]; rfl, hheard rfl⟩

end CoqConsole.Buffer
