import CoqConsole.Buffer.Emission
import CoqConsole.Proofs.Buffer.Scenes
import CoqConsole.Proofs.Operation

/-!
# Emissions as plays

An emission, with all that its listeners do, is a play of a scene if each of the listeners is; it leaves the emissions
around it as they were, whether it fails or not. What it does is said move by move.

* `Depicts` : what a scene shows of a state depends on the buffer and on the calls;
* `Course` : the moves that are made from a state, how they end and the state after them;
* `Turns` : the course of an emission, from those of its listeners;
* `emission`, `emission_fails` : an emission, which fails only by a listener;
* `Answers`, `enacts_emission` : it is a play and takes its course if each of its listeners does.
-/

namespace CoqConsole.Buffer

variable {σ κ μ : Type}

/-- What a scene shows of a state: its buffer, and something of the calls so far. -/
structure Depicts (view : σ → Buffer κ μ) (R : σ → Scene κ μ → Prop) : Prop where
  buffer : ∀ {s sc}, R s sc → sc.buffer = view s
  same : ∀ {s sc sc'}, R s sc → sc'.buffer = sc.buffer → sc'.calls = sc.calls → R s sc'

theorem depicts_view (view : σ → Buffer κ μ) : Depicts view fun s sc => sc.buffer = view s :=
  ⟨id, fun h hbuffer _ => hbuffer.trans h⟩

/-- The moves that are made from a state, how they end and the state after them. -/
abbrev Course (σ κ μ : Type) := σ → List (Move κ μ) → Except Failure Unit → σ → Prop

/-- The course of an emission. Each handle has its turn; one that is active as its turn comes is called, and the first
that fails ends the emission. -/
inductive Turns (view : σ → Buffer κ μ) (answer : Nat → Course σ κ μ) : List Nat → Course σ κ μ
  | over {s : σ} : Turns view answer [] s [.finish] (.ok ()) s
  | passed {handle : Nat} {rest : List Nat} {s s' : σ} {ms : List (Move κ μ)} {out : Except Failure Unit}
    (hactive : (view s).isActive handle = false) (hrest : Turns view answer rest s ms out s') :
    Turns view answer (handle :: rest) s (.turn :: ms) out s'
  | left {handle : Nat} {rest : List Nat} {s s₁ s' : σ} {ms ns : List (Move κ μ)} {out : Except Failure Unit}
    (hactive : (view s).isActive handle = true) (hanswer : answer handle s ms (.ok ()) s₁)
    (hrest : Turns view answer rest s₁ ns out s') :
    Turns view answer (handle :: rest) s (.turn :: ms ++ .leave :: ns) out s'
  | failed {handle : Nat} {rest : List Nat} {s s' : σ} {ms : List (Move κ μ)} {cause : Failure}
    (hactive : (view s).isActive handle = true) (hanswer : answer handle s ms (.error cause) s') :
    Turns view answer (handle :: rest) s (.turn :: ms ++ [.fail]) (.error cause) s'

variable {view : σ → Buffer κ μ} {call : Nat → ExceptT Failure (StateM σ) Unit}

/-- The handles that are active when their turn comes are called. -/
def emission (view : σ → Buffer κ μ) (call : Nat → ExceptT Failure (StateM σ) Unit) (handles : List Nat) :
    ExceptT Failure (StateM σ) Unit :=
  emit (fun handle => return (view (← get)).isActive handle) call handles

theorem run_emission_cons (handle : Nat) (rest : List Nat) (s : σ) :
    (emission view call (handle :: rest)).run.run s =
      if (view s).isActive handle then (call handle >>= fun _ => emission view call rest).run.run s
      else (emission view call rest).run.run s := by
  show ((get >>= fun s => pure ((view s).isActive handle)) >>= fun active =>
    if active = true then call handle >>= fun _ => emission view call rest else emission view call rest).run.run s = _
  rw [run_bind, run_bind, run_get]
  exact run_ite _ _ _ s

/-- An emission fails only by one of its listeners. -/
theorem emission_fails {handles : List Nat} {s : σ} {cause : Failure}
    (h : ((emission view call handles).run.run s).1 = .error cause) :
    ∃ handle ∈ handles, ∃ s', (view s').isActive handle = true ∧ ((call handle).run.run s').1 = .error cause := by
  induction handles generalizing s with
  | nil => cases h
  | cons handle rest ih =>
    rw [run_emission_cons] at h
    cases hactive : (view s).isActive handle with
    | false =>
      rw [hactive, if_neg Bool.false_ne_true] at h
      obtain ⟨other, hmem, hfails⟩ := ih h
      exact ⟨other, List.mem_cons_of_mem _ hmem, hfails⟩
    | true =>
      rw [hactive, if_pos rfl, run_bind] at h
      rcases hrun : (call handle).run.run s with ⟨cause' | _, s'⟩
      · rw [hrun] at h
        cases h
        exact ⟨handle, List.mem_cons_self, s, hactive, by rw [hrun]⟩
      · rw [hrun] at h
        obtain ⟨other, hmem, hfails⟩ := ih h
        exact ⟨other, List.mem_cons_of_mem _ hmem, hfails⟩

/-- A listener that was called takes its course, as a play after which it has control as before. -/
def Answers (view : σ → Buffer κ μ) (R : σ → Scene κ μ → Prop) (call : Nat → ExceptT Failure (StateM σ) Unit)
    (answer : Nat → Course σ κ μ) : Prop :=
  ∀ (handle : Nat) (s : σ) (sc sc' : Scene κ μ), R s sc → (view s).isActive handle = true →
    sc'.buffer = sc.buffer → sc'.inControl = true →
    (∃ number, sc'.calls = sc.calls ++ [⟨number, handle, sc.buffer⟩]) →
    let out := (call handle).run.run s
    ∃ ms sc'', sc'.play ms = some sc'' ∧ sc''.underWay = sc'.underWay ∧ R out.2 sc'' ∧ answer handle s ms out.1 out.2

/-- An emission is a play and takes its course if its listeners do. It ends without a failure only by going through all
its turns. -/
theorem enacts_emission {R : σ → Scene κ μ → Prop} {answer : Nat → Course σ κ μ} (depicts : Depicts view R)
    (answers : Answers view R call answer) {handles : List Nat} {s : σ} {sc : Scene κ μ} {number : Nat}
    {outer : List Emission} (hsc : R s sc) (hunder : sc.underWay = ⟨number, handles, false⟩ :: outer) :
    let out := (emission view call handles).run.run s
    ∃ ms sc', sc.play ms = some sc' ∧ sc'.underWay = outer ∧ R out.2 sc' ∧ Turns view answer handles s ms out.1 out.2 ∧
      (out.1 = .ok () → number ∈ sc'.ended) := by
  intro out
  induction handles generalizing s sc with
  | nil =>
    have hfinish := Scene.play_of_stepped (.finishing hunder)
    refine ⟨[.finish], _, hfinish, rfl, depicts.same hsc rfl rfl, .over, fun _ => ?_⟩
    exact List.mem_append_right _ (List.mem_singleton_self number)
  | cons handle rest ih =>
    simp only [out, run_emission_cons]
    cases hactive : (view s).isActive handle with
    | false =>
      simp only [Bool.false_eq_true, if_false]
      have hpass := Scene.play_of_stepped (.passing hunder (depicts.buffer hsc ▸ hactive))
      have hpassed : R s (sc.pass number handle rest outer) := depicts.same hsc rfl rfl
      obtain ⟨ms, sc', hplay, hunder', hsc', hturns, hended⟩ := ih hpassed rfl
      exact ⟨.turn :: ms, sc', Scene.play_trans hpass hplay, hunder', hsc', .passed hactive hturns, hended⟩
    | true =>
      simp only [if_true, run_bind]
      have hcall := Scene.play_of_stepped (.calling hunder (depicts.buffer hsc ▸ hactive))
      obtain ⟨ms, sc₁, hplay, hunder₁, hsc₁, hanswer⟩ :=
        answers handle s sc (sc.call number handle rest outer) hsc hactive rfl rfl ⟨number, rfl⟩
      have hcalled := Scene.play_trans hcall hplay
      rcases hrun : (call handle).run.run s with ⟨cause | _, s₁⟩
      · -- The failure of the listener is that of the emission.
        rw [hrun] at hsc₁ hanswer
        have hfail := Scene.play_of_stepped (.failing hunder₁)
        exact ⟨_, _, Scene.play_trans hcalled hfail, rfl, depicts.same hsc₁ rfl rfl, .failed hactive hanswer,
          fun h => by cases h⟩
      · rw [hrun] at hsc₁ hanswer
        have hleave := Scene.play_of_stepped (.leaving hunder₁)
        have hleft : R s₁ { sc₁ with underWay := ⟨number, rest, false⟩ :: outer } := depicts.same hsc₁ rfl rfl
        obtain ⟨ns, sc', hplay', hunder', hsc', hturns, hended⟩ := ih hleft rfl
        have hwhole := Scene.play_trans hcalled (Scene.play_trans hleave hplay')
        exact ⟨_, sc', hwhole, hunder', hsc', .left hactive hanswer hturns, hended⟩

end CoqConsole.Buffer
