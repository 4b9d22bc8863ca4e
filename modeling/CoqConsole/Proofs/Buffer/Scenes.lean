import CoqConsole.Proofs.Buffer.Subscribing
import Mathlib.Data.List.Induction

/-!
# The life of a buffer

Whoever has control of a buffer does one thing to it after the other. Some of these set off an emission, and then each
listener that is called has control, to any depth. What a listener does is up to it: a scene goes on by any deed of
whoever has control.

* `Deed`, `Deed.apply`, `Deed.event?` : what can be done, what it changes at once and what it sets off;
* `Deed.apply_setCursor`, `Deed.apply_cancel` : what two of them leave alone;
* `Emission`, `Turn`, `Scene` : a buffer with the emissions under way, and what has happened so far;
* `Move`, `Scene.step?`, `Scene.play` : how a scene goes on;
* `Stepped`, `stepped_of_step?` : all that a step can be;
* `play_induction` : what each step keeps, a play keeps.
-/

namespace CoqConsole.Buffer

variable {κ μ : Type}

/-! ## What is done to a buffer -/

/-- What can be done to a buffer by whoever has control of it. -/
inductive Deed (κ μ : Type)
  | setText (text : String)
  | setCursor (p : Position)
  | setMarks (ns : String) (marks : List μ)
  | clearMarks (ns : String)
  | subscribe (e : BufferEvent) (listener : κ)
  | cancel (handle : Nat)
  | close

namespace Deed

def isEdit : Deed κ μ → Bool
  | setText _ => true
  | _ => false

/-- What a deed changes before anybody hears of it. A place that is refused changes nothing. -/
def apply (b : Buffer κ μ) : Deed κ μ → Buffer κ μ
  | setText text => b.replaceText text
  | setCursor p => (b.moveTo p).toOption.getD b
  | setMarks ns marks => b.setMarks ns marks
  | clearMarks ns => b.clearMarks ns
  | subscribe e listener => (b.subscribe e listener).2
  | cancel handle => b.cancel handle
  | close => { b with closed := true }

def event? (b : Buffer κ μ) : Deed κ μ → Option BufferEvent
  | setText _ => some .changed
  | setCursor p => (b.moveTo p).toOption.map fun _ => .cursorMoved
  | close => if b.closed then none else some .closed
  | _ => none

/-- Moving touches nothing but the cursor. -/
theorem apply_setCursor (b : Buffer κ μ) (p : Position) : ∃ cursor, (setCursor p).apply b = { b with cursor } := by
  show ∃ cursor, (b.moveTo p).toOption.getD b = { b with cursor }
  unfold moveTo
  simp only
  split
  · exact ⟨_, rfl⟩
  · exact ⟨b.cursor, rfl⟩

/-- Cancelling touches nothing but the subscriptions. -/
theorem apply_cancel (b : Buffer κ μ) (handle : Nat) :
    ∃ subscriptions rolls, (cancel handle).apply b = { b with subscriptions, rolls } := by
  show ∃ subscriptions rolls, b.cancel handle = { b with subscriptions, rolls }
  unfold Buffer.cancel
  split
  · split
    · exact ⟨_, _, rfl⟩
    · exact ⟨_, _, rfl⟩
  · exact ⟨_, _, rfl⟩

end Deed

/-! ## Scenes -/

/-- An emission under way: the handles whose turn is still to come, and whether a listener that it called has not
returned yet. Emissions are numbered in the order in which they began. -/
structure Emission where
  number : Nat
  rest : List Nat
  calling : Bool

/-- A turn of a handle in an emission, and the buffer as the turn came. -/
structure Turn (κ μ : Type) where
  emission : Nat
  handle : Nat
  buffer : Buffer κ μ

/-- A buffer with the emissions under way, and what happened before. -/
structure Scene (κ μ : Type) where
  buffer : Buffer κ μ
  /-- The innermost first. -/
  underWay : List Emission
  /-- The event of each emission so far, and the buffer as it began. -/
  begun : List (BufferEvent × Buffer κ μ)
  turns : List (Turn κ μ)
  /-- The turns at which a listener was called. -/
  calls : List (Turn κ μ)
  /-- The emissions that went through all their turns. -/
  ended : List Nat

/-- One step: something is done by whoever has control, the innermost emission comes to its next turn or ends, or the
listener that it called returns or fails. -/
inductive Move (κ μ : Type)
  | act (d : Deed κ μ)
  | turn
  | leave
  | fail
  | finish

def Move.isEdit : Move κ μ → Bool
  | act d => d.isEdit
  | _ => false

namespace Scene

def opening (b : Buffer κ μ) : Scene κ μ := ⟨b, [], [], [], [], []⟩

/-- Somebody has control: the owner of the buffer, or the listener that was called last. -/
def inControl (s : Scene κ μ) : Bool :=
  match s.underWay with
  | [] => true
  | em :: _ => em.calling

def begin (s : Scene κ μ) (e : BufferEvent) : Scene κ μ :=
  { s with
    underWay := ⟨s.begun.length, s.buffer.roll e, false⟩ :: s.underWay
    begun := s.begun ++ [(e, s.buffer)] }

def act (s : Scene κ μ) (d : Deed κ μ) : Scene κ μ :=
  let s' := { s with buffer := d.apply s.buffer }
  match d.event? s.buffer with
  | some e => s'.begin e
  | none => s'

/-- A handle has its turn in an emission, and its listener is called. -/
def call (s : Scene κ μ) (number handle : Nat) (rest : List Nat) (outer : List Emission) : Scene κ μ :=
  { s with
    underWay := ⟨number, rest, true⟩ :: outer
    turns := s.turns ++ [⟨number, handle, s.buffer⟩]
    calls := s.calls ++ [⟨number, handle, s.buffer⟩] }

/-- A handle has its turn in an emission, and is passed over. -/
def pass (s : Scene κ μ) (number handle : Nat) (rest : List Nat) (outer : List Emission) : Scene κ μ :=
  { s with
    underWay := ⟨number, rest, false⟩ :: outer
    turns := s.turns ++ [⟨number, handle, s.buffer⟩] }

/-- The scene after a move that is possible there. A handle that is still active is called as its turn comes, and a
listener that fails ends the emission. -/
def step? (s : Scene κ μ) : Move κ μ → Option (Scene κ μ)
  | .act d => if s.inControl then some (s.act d) else none
  | .turn =>
    match s.underWay with
    | ⟨number, handle :: rest, false⟩ :: outer =>
      some (if s.buffer.isActive handle then s.call number handle rest outer else s.pass number handle rest outer)
    | _ => none
  | .leave =>
    match s.underWay with
    | ⟨number, rest, true⟩ :: outer => some { s with underWay := ⟨number, rest, false⟩ :: outer }
    | _ => none
  | .fail =>
    match s.underWay with
    | ⟨_, _, true⟩ :: outer => some { s with underWay := outer }
    | _ => none
  | .finish =>
    match s.underWay with
    | ⟨number, [], false⟩ :: outer => some { s with underWay := outer, ended := s.ended ++ [number] }
    | _ => none

/-- The scene after some moves, each of which is possible where it comes. -/
def play (s : Scene κ μ) (ms : List (Move κ μ)) : Option (Scene κ μ) := ms.foldlM step? s

variable {s s' : Scene κ μ}

theorem play_append (ms ns : List (Move κ μ)) : s.play (ms ++ ns) = (s.play ms).bind (·.play ns) :=
  List.foldlM_append

theorem play_single (m : Move κ μ) : s.play [m] = s.step? m := by
  show (s.step? m).bind some = s.step? m
  cases s.step? m <;> rfl

/-- Two plays, one after the other. -/
theorem play_trans {s₁ s₂ s₃ : Scene κ μ} {ms ns : List (Move κ μ)} (hms : s₁.play ms = some s₂)
    (hns : s₂.play ns = some s₃) : s₁.play (ms ++ ns) = some s₃ := by
  rw [play_append, hms]
  exact hns

theorem inControl_congr (h : s'.underWay = s.underWay) : s'.inControl = s.inControl := by
  unfold inControl
  rw [h]

/-! ## What a step can be -/

/-- All that a step can be. -/
inductive Stepped (s : Scene κ μ) : Move κ μ → Scene κ μ → Prop
  | quiet {d : Deed κ μ} (hcontrol : s.inControl = true) (hevent : d.event? s.buffer = none) :
    Stepped s (.act d) { s with buffer := d.apply s.buffer }
  | emitting {d : Deed κ μ} {e : BufferEvent} (hcontrol : s.inControl = true) (hevent : d.event? s.buffer = some e) :
    Stepped s (.act d) (begin { s with buffer := d.apply s.buffer } e)
  | calling {number handle : Nat} {rest : List Nat} {outer : List Emission}
    (hunder : s.underWay = ⟨number, handle :: rest, false⟩ :: outer) (hactive : s.buffer.isActive handle = true) :
    Stepped s .turn (s.call number handle rest outer)
  | passing {number handle : Nat} {rest : List Nat} {outer : List Emission}
    (hunder : s.underWay = ⟨number, handle :: rest, false⟩ :: outer) (hactive : s.buffer.isActive handle = false) :
    Stepped s .turn (s.pass number handle rest outer)
  | leaving {number : Nat} {rest : List Nat} {outer : List Emission}
    (hunder : s.underWay = ⟨number, rest, true⟩ :: outer) :
    Stepped s .leave { s with underWay := ⟨number, rest, false⟩ :: outer }
  | failing {number : Nat} {rest : List Nat} {outer : List Emission}
    (hunder : s.underWay = ⟨number, rest, true⟩ :: outer) :
    Stepped s .fail { s with underWay := outer }
  | finishing {number : Nat} {outer : List Emission} (hunder : s.underWay = ⟨number, [], false⟩ :: outer) :
    Stepped s .finish { s with underWay := outer, ended := s.ended ++ [number] }

theorem step?_of_stepped {m : Move κ μ} (h : Stepped s m s') : s.step? m = some s' := by
  cases h with
  | quiet hcontrol hevent => simp only [step?, hcontrol, if_true, act, hevent]
  | emitting hcontrol hevent => simp only [step?, hcontrol, if_true, act, hevent]
  | calling hunder hactive => simp only [step?, hunder, hactive, if_true]
  | passing hunder hactive => simp only [step?, hunder, hactive, Bool.false_eq_true, if_false]
  | leaving hunder => simp only [step?, hunder]
  | failing hunder => simp only [step?, hunder]
  | finishing hunder => simp only [step?, hunder]

theorem play_of_stepped {m : Move κ μ} (h : Stepped s m s') : s.play [m] = some s' :=
  (play_single m).trans (step?_of_stepped h)

theorem stepped_of_step? {m : Move κ μ} (h : s.step? m = some s') : Stepped s m s' := by
  cases m with
  | act d =>
    simp only [step?] at h
    split at h
    · next hcontrol =>
      obtain rfl := Option.some.inj h
      unfold act
      cases hevent : d.event? s.buffer with
      | none => exact .quiet hcontrol hevent
      | some e => exact .emitting hcontrol hevent
    · cases h
  | turn =>
    simp only [step?] at h
    split at h
    · next number handle rest outer hunder =>
      cases hactive : s.buffer.isActive handle with
      | true =>
        rw [hactive] at h
        obtain rfl := Option.some.inj h
        exact .calling hunder hactive
      | false =>
        rw [hactive] at h
        obtain rfl := Option.some.inj h
        exact .passing hunder hactive
    · cases h
  | leave =>
    simp only [step?] at h
    split at h
    · next hunder =>
      obtain rfl := Option.some.inj h
      exact .leaving hunder
    · cases h
  | fail =>
    simp only [step?] at h
    split at h
    · next hunder =>
      obtain rfl := Option.some.inj h
      exact .failing hunder
    · cases h
  | finish =>
    simp only [step?] at h
    split at h
    · next hunder =>
      obtain rfl := Option.some.inj h
      exact .finishing hunder
    · cases h

/-- What holds at the start, and is kept by each step, holds after every play. -/
theorem play_induction {P : List (Move κ μ) → Scene κ μ → Prop} {start : Scene κ μ} (hstart : P [] start)
    (hstep : ∀ ms s m s', P ms s → Stepped s m s' → P (ms ++ [m]) s') {ms : List (Move κ μ)} {s : Scene κ μ}
    (h : start.play ms = some s) : P ms s := by
  induction ms using List.reverseRecOn generalizing s with
  | nil =>
    obtain rfl := Option.some.inj h
    exact hstart
  | append_singleton ms m ih =>
    rw [play_append] at h
    obtain ⟨s₁, hms, hm⟩ := Option.bind_eq_some_iff.mp h
    rw [play_single] at hm
    exact hstep ms s₁ m s (ih hms) (stepped_of_step? hm)

end Scene
end CoqConsole.Buffer
