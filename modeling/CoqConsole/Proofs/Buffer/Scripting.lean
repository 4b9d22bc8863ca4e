import CoqConsole.Proofs.Buffer.Enacting

/-!
# Scripts as plays

What a script does on a stage is said move by move: its deed, if there is one, and then the turns of the emission which
that sets off, where each listener that is called does what it is there for. Every script does so, to whatever depth its
emissions are followed, and what it does is a play.

* `Shows` : the scene has the buffer of the stage and the calls on its record;
* `attempt`, `after` : the deed of a script, and the stage after it;
* `InTurn`, `Answering`, `Carried`, `Does` : the course of a script, to a depth;
* `run_perform` : a script in one equation;
* `Enacts`, `enacts_perform` : it takes its course, as a play;
* `Follows`, `exists_play` : so does every run of scripts.
-/

namespace CoqConsole.Stage

open Buffer

variable {μ : Type}

/-! ## What a scene shows of a stage -/

/-- The record of a turn at which a scripted listener was called. -/
def record? (t : Turn (Actor μ) μ) : Option Call :=
  (t.buffer.listener? t.handle).map fun actor => ⟨actor.id, t.buffer.cursor, t.buffer.version⟩

/-- The scene has the buffer of the stage and the calls on its record. -/
def Shows (s : Stage μ) (sc : Scene (Actor μ) μ) : Prop :=
  sc.buffer = s.buffer ∧ sc.calls.filterMap record? = s.calls

theorem depicts_shows : Depicts (fun s : Stage μ => s.buffer) Shows where
  buffer h := h.1
  same h hbuffer hcalls := ⟨hbuffer.trans h.1, hcalls ▸ h.2⟩

/-! ## The course of a script -/

/-- What a script is about to do to the buffer, if anything, or why it cannot. -/
def attempt (s : Stage μ) : Script μ → Except Failure (Option (Deed (Actor μ) μ))
  | .line row => do
    let row ← row
    (s.buffer.line row).map fun _ => none
  | .setText text => return some (.setText (← text))
  | .setCursor row col => do
    let p : Position := ⟨← row, ← col⟩
    (s.buffer.moveTo p).map fun _ => some (.setCursor p)
  | .close => return if s.buffer.closed then none else some .close
  | .subscribe id event actions => return some (.subscribe (← BufferEvent.named event) ⟨id, actions⟩)
  | .cancel id =>
    match Keyed.get? id s.handles with
    | some handle => return some (.cancel handle)
    | none => throw (.absent id)
  | .setMarks ns marks => return some (.setMarks ns marks)
  | .clearMarks ns => return some (.clearMarks ns)
  | .hash | .describe | .marks _ => return none

/-- The stage after a deed, before anybody hears of it. A name is that of the last listener subscribed under it. -/
def after (s : Stage μ) (d : Deed (Actor μ) μ) : Stage μ where
  buffer := d.apply s.buffer
  calls := s.calls
  handles :=
    match d with
    | .subscribe e actor => Keyed.put actor.id (s.buffer.subscribe e actor).1 s.handles
    | _ => s.handles

def called (s : Stage μ) (actor : Actor μ) : Stage μ :=
  { s with calls := s.calls ++ [⟨actor.id, s.buffer.cursor, s.buffer.version⟩] }

/-- Scripts, one after the other, up to the first that fails. -/
inductive InTurn (does : Script μ → Course (Stage μ) (Actor μ) μ) : List (Script μ) → Course (Stage μ) (Actor μ) μ
  | nil {s : Stage μ} : InTurn does [] s [] (.ok ()) s
  | next {a : Script μ} {rest : List (Script μ)} {s s₁ s' : Stage μ} {ms ns : List (Move (Actor μ) μ)}
    {out : Except Failure Unit} (hfirst : does a s ms (.ok ()) s₁) (hrest : InTurn does rest s₁ ns out s') :
    InTurn does (a :: rest) s (ms ++ ns) out s'
  | failed {a : Script μ} {rest : List (Script μ)} {s s' : Stage μ} {ms : List (Move (Actor μ) μ)} {cause : Failure}
    (hfirst : does a s ms (.error cause) s') : InTurn does (a :: rest) s ms (.error cause) s'

/-- A listener that is called goes on record, and does what it is there for. -/
def Answering (acts : List (Script μ) → Course (Stage μ) (Actor μ) μ) (handle : Nat) :
    Course (Stage μ) (Actor μ) μ :=
  fun s ms out s' => ∃ actor, s.buffer.listener? handle = some actor ∧ acts actor.actions (s.called actor) ms out s'

/-- One script: it is refused, it does nothing, or it makes its deed, and then come the turns of the emission which that
sets off. -/
inductive Carried (turns : List Nat → Course (Stage μ) (Actor μ) μ) (a : Script μ) : Course (Stage μ) (Actor μ) μ
  | refused {s : Stage μ} {cause : Failure} (h : s.attempt a = .error cause) : Carried turns a s [] (.error cause) s
  | idle {s : Stage μ} (h : s.attempt a = .ok none) : Carried turns a s [] (.ok ()) s
  | quiet {s : Stage μ} {d : Deed (Actor μ) μ} (h : s.attempt a = .ok (some d)) (hevent : d.event? s.buffer = none) :
    Carried turns a s [.act d] (.ok ()) (s.after d)
  | emitting {s s' : Stage μ} {d : Deed (Actor μ) μ} {e : BufferEvent} {ms : List (Move (Actor μ) μ)}
    {out : Except Failure Unit} (h : s.attempt a = .ok (some d)) (hevent : d.event? s.buffer = some e)
    (hturns : turns ((s.after d).buffer.roll e) (s.after d) ms out s') : Carried turns a s (.act d :: ms) out s'

/-- What a script does, with the scripts of the listeners that it sets off, to a depth at which it is given up. -/
def Does : Nat → Script μ → Course (Stage μ) (Actor μ) μ
  | 0, _ => fun s ms out s' => ms = [] ∧ out = .error .endless ∧ s' = s
  | depth + 1, a => Carried (Turns (fun s => s.buffer) (Answering (InTurn (Does depth)))) a

/-! ## Scripts take their course -/

/-- From every stage, the operation takes that course, as a play of whoever has control. -/
def Enacts (op : Act μ Unit) (course : Course (Stage μ) (Actor μ) μ) : Prop :=
  ∀ (s : Stage μ) (sc : Scene (Actor μ) μ), s.Shows sc → sc.inControl = true →
    let out := op.run.run s
    ∃ ms sc', sc.play ms = some sc' ∧ sc'.underWay = sc.underWay ∧ out.2.Shows sc' ∧ course s ms out.1 out.2

theorem run_discard {α : Type} (op : Act μ α) (s : Stage μ) :
    (discard op).run.run s = ((op.run.run s).1.map fun _ => (), (op.run.run s).2) := by
  show (op >>= fun _ => pure ()).run.run s = _
  rw [run_bind]
  rcases op.run.run s with ⟨_ | _, _⟩ <;> rfl

theorem discard_return {α : Type} (op : Act μ Unit) (a : α) (s : Stage μ) :
    (discard (op >>= fun _ => pure a)).run.run s = op.run.run s := by
  rw [run_discard, run_bind]
  rcases op.run.run s with ⟨_ | _, _⟩ <;> rfl

/-- A scripted listener goes on record as it is called, and then it acts. -/
def calling (run : List (Script μ) → Act μ Unit) (handle : Nat) : Act μ Unit := do
  match (← get).buffer.listener? handle with
  | none => pure ()
  | some actor =>
    modify fun s => { s with calls := s.calls ++ [⟨actor.id, s.buffer.cursor, s.buffer.version⟩] }
    run actor.actions

theorem answers_calling {run : List (Script μ) → Act μ Unit} {acts : List (Script μ) → Course (Stage μ) (Actor μ) μ}
    (h : ∀ actions, Enacts (run actions) (acts actions)) :
    Answers (fun s : Stage μ => s.buffer) Shows (calling run) (Answering acts) := by
  intro handle s sc sc' hsc hactive hbuffer hcontrol hcalls
  obtain ⟨number, hcalls⟩ := hcalls
  obtain ⟨subscription, hsubscription, -⟩ := isActive_eq_true.mp hactive
  have hlistener : s.buffer.listener? handle = some subscription.listener := by
    rw [listener?, hsubscription, Option.map_some]
  have hcalled : (s.called subscription.listener).Shows sc' := by
    refine ⟨hbuffer.trans hsc.1, ?_⟩
    rw [hcalls, List.filterMap_append, hsc.2]
    simp [record?, called, hsc.1, hlistener]
  have hcall : (calling run handle).run.run s =
      (run subscription.listener.actions).run.run (s.called subscription.listener) := by
    unfold calling
    simp only [run_bind, run_get, hlistener, run_modify]
    rfl
  obtain ⟨ms, sc'', hplay, hunder, hsc'', hacts⟩ := h _ _ sc' hcalled hcontrol
  rw [hcall]
  exact ⟨ms, sc'', hplay, hunder, hsc'', subscription.listener, hlistener, hacts⟩

theorem enacts_inTurn {f : Script μ → Act μ Unit} {does : Script μ → Course (Stage μ) (Actor μ) μ}
    (h : ∀ a, Enacts (f a) (does a)) (actions : List (Script μ)) : Enacts (actions.forM f) (InTurn does actions) := by
  induction actions with
  | nil => exact fun s sc hsc _ => ⟨[], sc, rfl, rfl, hsc, .nil⟩
  | cons a actions ih =>
    intro s sc hsc hcontrol
    obtain ⟨ms, sc₁, hplay, hunder, hsc₁, hfirst⟩ := h a s sc hsc hcontrol
    rw [show (a :: actions).forM f = (f a >>= fun _ => actions.forM f) from rfl, run_bind]
    rcases hrun : (f a).run.run s with ⟨cause | _, s₁⟩
    · rw [hrun] at hsc₁ hfirst
      exact ⟨ms, sc₁, hplay, hunder, hsc₁, .failed hfirst⟩
    · rw [hrun] at hsc₁ hfirst
      obtain ⟨ns, sc₂, hplay', hunder', hsc₂, hrest⟩ :=
        ih s₁ sc₁ hsc₁ (by rw [Scene.inControl_congr hunder, hcontrol])
      exact ⟨ms ++ ns, sc₂, Scene.play_trans hplay hplay', hunder'.trans hunder, hsc₂, .next hfirst hrest⟩

/-- The scripts of a listener, each followed to the given depth. -/
def acting (depth : Nat) (actions : List (Script μ)) : Act μ Unit := actions.forM fun a => discard (perform depth a)

theorem run_moveTo (p : Position) (s : Stage μ) :
    (moveTo p).run.run s =
      match s.buffer.moveTo p with
      | .ok buffer => (.ok (), { s with buffer })
      | .error cause => (.error cause, s) := by
  unfold moveTo
  simp only [run_bind, run_get, run_lift]
  cases s.buffer.moveTo p <;> rfl

/-- What comes of an attempt: the deed, and the emission which that sets off. -/
def outcome (depth : Nat) (s : Stage μ) : Except Failure (Option (Deed (Actor μ) μ)) → Except Failure Unit × Stage μ
  | .error cause => (.error cause, s)
  | .ok none => (.ok (), s)
  | .ok (some d) =>
    match d.event? s.buffer with
    | none => (.ok (), s.after d)
    | some e => (emission (fun s => s.buffer) (calling (acting depth)) ((s.after d).buffer.roll e)).run.run (s.after d)

theorem outcome_of_event {depth : Nat} {s : Stage μ} {d : Deed (Actor μ) μ} {e : BufferEvent}
    (hevent : d.event? s.buffer = some e) :
    s.outcome depth (.ok (some d)) =
      (emission (fun s => s.buffer) (calling (acting depth)) ((s.after d).buffer.roll e)).run.run (s.after d) := by
  simp only [outcome, hevent]

theorem run_setCursor (depth : Nat) (p : Position) (s : Stage μ) :
    (discard (do moveTo p; emit (acting depth) .cursorMoved; return (.done : Reply μ))).run.run s =
      s.outcome depth ((s.buffer.moveTo p).map fun _ => some (.setCursor p)) := by
  cases hmove : s.buffer.moveTo p with
  | error cause =>
    rw [run_discard, run_bind, run_moveTo, hmove]
    rfl
  | ok b =>
    have hafter : s.after (.setCursor p) = { s with buffer := b } := by
      show Stage.mk ((s.buffer.moveTo p).toOption.getD s.buffer) _ _ = _
      rw [hmove]
      rfl
    have hevent : (Deed.setCursor p).event? s.buffer = some .cursorMoved := by
      show (s.buffer.moveTo p).toOption.map _ = _
      rw [hmove]
      rfl
    have hmoved : (discard (do moveTo p; emit (acting depth) .cursorMoved; return (.done : Reply μ))).run.run s =
        (discard (do emit (acting depth) .cursorMoved; return (.done : Reply μ))).run.run { s with buffer := b } := by
      rw [run_discard, run_bind, run_moveTo, hmove, run_discard]
    rw [hmoved, discard_return]
    show _ = s.outcome depth (.ok (some (.setCursor p)))
    rw [outcome_of_event hevent, hafter]
    rfl

theorem run_close (depth : Nat) (s : Stage μ) :
    (discard (perform (depth + 1) .close)).run.run s = s.outcome depth (s.attempt .close) := by
  have hattempt : s.attempt .close = .ok (if s.buffer.closed then none else some .close) := rfl
  rw [hattempt]
  cases hclosed : s.buffer.closed with
  | true =>
    rw [run_discard]
    simp only [perform, run_bind, run_get, hclosed]
    rfl
  | false =>
    have hevent : (Deed.close : Deed (Actor μ) μ).event? s.buffer = some .closed := by
      simp only [Deed.event?, hclosed, Bool.false_eq_true, if_false]
    have hopen : (perform (depth + 1) .close).run.run s = (do
        edit fun b => { b with closed := true }
        emit (acting depth) .closed
        return (.done : Reply μ)).run.run s := by
      rw [perform, run_bind, run_get]
      dsimp only
      rw [hclosed, if_neg Bool.false_ne_true]
      rfl
    rw [if_neg Bool.false_ne_true, outcome_of_event hevent, run_discard, hopen, ← run_discard]
    exact discard_return _ _ _

/-- Every script comes to what it attempts. -/
theorem run_perform (depth : Nat) (a : Script μ) (s : Stage μ) :
    (discard (perform (depth + 1) a)).run.run s = s.outcome depth (s.attempt a) := by
  cases a with
  | line row =>
    cases row with
    | error cause => rfl
    | ok row =>
      have hattempt : s.attempt (.line (.ok row)) = (s.buffer.line row).map fun _ => none := rfl
      rw [hattempt, run_discard]
      simp only [perform, run_bind, run_lift, run_get]
      cases s.buffer.line row <;> rfl
  | setText text =>
    cases text with
    | error cause => rfl
    | ok text => exact discard_return _ _ _
  | setCursor row col =>
    cases row with
    | error cause => rfl
    | ok row =>
      cases col with
      | error cause => rfl
      | ok col => exact run_setCursor depth ⟨row, col⟩ s
  | close => exact run_close depth s
  | subscribe id event actions =>
    rw [run_discard]
    simp only [perform, subscribe, run_bind, run_lift, run_modify, attempt]
    cases BufferEvent.named event <;> rfl
  | cancel id =>
    rw [run_discard]
    simp only [perform, cancel, run_bind, run_get, attempt]
    cases Keyed.get? id s.handles <;> rfl
  | hash => rfl
  | describe => rfl
  | setMarks ns marks => rfl
  | clearMarks ns => rfl
  | marks ns => rfl

/-- Every script takes its course, as a play. -/
theorem enacts_perform (depth : Nat) (a : Script μ) : Enacts (discard (perform depth a)) (Does depth a) := by
  induction depth generalizing a with
  | zero => exact fun s sc hsc _ => ⟨[], sc, rfl, rfl, hsc, rfl, rfl, rfl⟩
  | succ depth ih =>
    intro s sc hsc hcontrol
    rw [run_perform]
    cases hattempt : s.attempt a with
    | error cause => exact ⟨[], sc, rfl, rfl, hsc, .refused hattempt⟩
    | ok d? =>
      cases d? with
      | none => exact ⟨[], sc, rfl, rfl, hsc, .idle hattempt⟩
      | some d =>
        have hafter : (s.after d).Shows { sc with buffer := d.apply sc.buffer } := ⟨by rw [hsc.1]; rfl, hsc.2⟩
        cases hevent : d.event? s.buffer with
        | none =>
          have hact := Scene.play_of_stepped (.quiet hcontrol (hsc.1 ▸ hevent))
          simp only [outcome, hevent]
          exact ⟨[.act d], _, hact, rfl, hafter, .quiet hattempt hevent⟩
        | some e =>
          have hact := Scene.play_of_stepped (.emitting hcontrol (hsc.1 ▸ hevent))
          have hbegun : (s.after d).Shows (Scene.begin { sc with buffer := d.apply sc.buffer } e) := hafter
          obtain ⟨ms, sc', hplay, hunder, hsc', hturns, -⟩ :=
            enacts_emission depicts_shows (answers_calling (enacts_inTurn ih)) hbegun rfl
          have hroll : (d.apply sc.buffer).roll e = (s.after d).buffer.roll e := congrArg (·.roll e) hafter.1
          rw [outcome_of_event hevent]
          rw [hroll] at hsc' hturns
          exact ⟨.act d :: ms, sc', Scene.play_trans hact hplay, hunder, hsc', .emitting hattempt hevent hturns⟩

/-! ## Runs -/

def start (b : Buffer (Actor μ) μ) : Stage μ := ⟨b, [], []⟩

/-- The stage after some scripts, each of which is followed to the given depth; a failure keeps what was done before
it. -/
def follow (depth : Nat) (s : Stage μ) (scripts : List (Script μ)) : Stage μ :=
  scripts.foldl (fun s a => ((perform depth a).run.run s).2) s

/-- The scripts of the owner take their course one after the other, whether the one before failed or not. -/
inductive Follows (depth : Nat) : List (Script μ) → Stage μ → List (Move (Actor μ) μ) → Stage μ → Prop
  | nil {s : Stage μ} : Follows depth [] s [] s
  | cons {a : Script μ} {scripts : List (Script μ)} {s s₁ s' : Stage μ} {ms ns : List (Move (Actor μ) μ)}
    {out : Except Failure Unit} (hfirst : Does depth a s ms out s₁) (hrest : Follows depth scripts s₁ ns s') :
    Follows depth (a :: scripts) s (ms ++ ns) s'

theorem enacts_follow (depth : Nat) (scripts : List (Script μ)) {s : Stage μ} {sc : Scene (Actor μ) μ}
    (hsc : s.Shows sc) (hcontrol : sc.inControl = true) :
    ∃ ms sc', sc.play ms = some sc' ∧ sc'.underWay = sc.underWay ∧ (follow depth s scripts).Shows sc' ∧
      Follows depth scripts s ms (follow depth s scripts) := by
  induction scripts generalizing s sc with
  | nil => exact ⟨[], sc, rfl, rfl, hsc, .nil⟩
  | cons a scripts ih =>
    obtain ⟨ms, sc₁, hplay, hunder, hsc₁, hfirst⟩ := enacts_perform depth a s sc hsc hcontrol
    rw [run_discard] at hsc₁ hfirst
    obtain ⟨ns, sc₂, hplay', hunder', hsc₂, hrest⟩ := ih hsc₁ (by rw [Scene.inControl_congr hunder, hcontrol])
    exact ⟨ms ++ ns, sc₂, Scene.play_trans hplay hplay', hunder'.trans hunder, hsc₂, .cons hfirst hrest⟩

/-- Every run of scripts on a buffer takes its course, as a play with the calls on record. -/
theorem exists_play (b : Buffer (Actor μ) μ) (depth : Nat) (scripts : List (Script μ)) :
    let stage := follow depth (start b) scripts
    ∃ ms sc, (Scene.opening b).play ms = some sc ∧ sc.underWay = [] ∧ stage.Shows sc ∧
      Follows depth scripts (start b) ms stage :=
  have hshows : (start b).Shows (.opening b) := ⟨rfl, rfl⟩
  enacts_follow depth scripts hshows rfl

end CoqConsole.Stage
