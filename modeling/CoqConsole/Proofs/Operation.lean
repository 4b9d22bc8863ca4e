import CoqConsole.Failure

/-!
# Running operations

An operation may fail and keeps what it did before. These are the rules by which one runs:

* `run_bind` : what follows goes on from the state that was reached, unless there was a failure;
* `run_pure`, `run_throw`, `run_get`, `run_modify`, `run_lift`, `run_tryCatch`, `run_ite` : the steps;
* `fails_bind_iff`, `run_mapM_cases` : when some of them fail;
* `Ensures` : what holds before an operation and after it, whether it fails or not, with a rule for each step;
* `Looks` : an operation that changes nothing;
* `Whole` : an operation that has changed nothing if it fails;
* `Heedless` : an operation that takes no heed of a change made before it.
-/

namespace CoqConsole

variable {σ α β : Type}

theorem run_bind (op : ExceptT Failure (StateM σ) α) (next : α → ExceptT Failure (StateM σ) β)
    (s : σ) :
    (op >>= next).run.run s =
      match op.run.run s with
      | (.ok a, s) => (next a).run.run s
      | (.error cause, s) => (.error cause, s) := by
  rw [ExceptT.run_bind, StateT.run_bind]
  rcases h : op.run.run s with ⟨_ | _, _⟩ <;> rfl

theorem run_pure (a : α) (s : σ) :
    (pure a : ExceptT Failure (StateM σ) α).run.run s = (.ok a, s) := rfl

theorem run_throw (cause : Failure) (s : σ) :
    (throw cause : ExceptT Failure (StateM σ) α).run.run s = (.error cause, s) := rfl

theorem run_get (s : σ) :
    (get : ExceptT Failure (StateM σ) σ).run.run s = (.ok s, s) := rfl

theorem run_modify (f : σ → σ) (s : σ) :
    (modify f : ExceptT Failure (StateM σ) PUnit).run.run s = (.ok ⟨⟩, f s) := rfl

theorem run_lift (r : Except Failure α) (s : σ) :
    (liftM r : ExceptT Failure (StateM σ) α).run.run s = (r, s) := by
  cases r <;> rfl

theorem run_tryCatch (op : ExceptT Failure (StateM σ) α) (handle : Failure → ExceptT Failure (StateM σ) α) (s : σ) :
    (tryCatch op handle).run.run s =
      match op.run.run s with
      | (.ok a, s) => (.ok a, s)
      | (.error cause, s) => (handle cause).run.run s := by
  rw [ExceptT.run_tryCatch, StateT.run_bind]
  rcases op.run.run s with ⟨_ | _, _⟩ <;> rfl

theorem run_ite (p : Prop) [Decidable p] (a b : ExceptT Failure (StateM σ) α) (s : σ) :
    (if p then a else b).run.run s = if p then a.run.run s else b.run.run s := by
  split <;> rfl

/-- With what cannot fail at the end, an operation fails as it would without. -/
theorem fails_bind_iff {op : ExceptT Failure (StateM σ) α} {next : α → ExceptT Failure (StateM σ) β}
    (hnext : ∀ a s, ∃ b, ((next a).run.run s).1 = .ok b) (s : σ) :
    (∃ cause, ((op >>= next).run.run s).1 = .error cause) ↔ ∃ cause, (op.run.run s).1 = .error cause := by
  rw [run_bind]
  rcases op.run.run s with ⟨cause | a, s'⟩
  · exact ⟨fun _ => ⟨cause, rfl⟩, fun _ => ⟨cause, rfl⟩⟩
  · obtain ⟨b, hb⟩ := hnext a s'
    refine ⟨fun ⟨cause, he⟩ => ?_, fun ⟨_, he⟩ => (by cases he)⟩
    rw [hb] at he
    cases he

/-- What only looks at each of some things succeeds with all of them, or fails with one. -/
theorem run_mapM_cases {f : α → ExceptT Failure (StateM σ) β} {g : α → Except Failure β} {s : σ} (as : List α)
    (hf : ∀ a ∈ as, (f a).run.run s = (g a, s)) :
    (∃ bs, (as.mapM f).run.run s = (.ok bs, s) ∧ ∀ a ∈ as, ∃ b, g a = .ok b) ∨
      ∃ cause, (as.mapM f).run.run s = (.error cause, s) ∧ ∃ a ∈ as, g a = .error cause := by
  induction as with
  | nil =>
    rw [List.mapM_nil]
    exact .inl ⟨[], rfl, List.forall_mem_nil _⟩
  | cons a as ih =>
    rw [List.mapM_cons, run_bind, hf a List.mem_cons_self]
    cases hg : g a with
    | error cause => exact .inr ⟨cause, rfl, a, List.mem_cons_self, hg⟩
    | ok b =>
      simp only [run_bind]
      rcases ih fun a' ha => hf a' (List.mem_cons_of_mem _ ha) with ⟨bs, hrun, hall⟩ | ⟨cause, hrun, a', ha, hcause⟩
      · rw [hrun]
        exact .inl ⟨b :: bs, rfl, List.forall_mem_cons.mpr ⟨⟨b, hg⟩, hall⟩⟩
      · rw [hrun]
        exact .inr ⟨cause, rfl, a', List.mem_cons_of_mem _ ha, hcause⟩

/-! ## Before and after -/

/-- If `P` holds before an operation, `Q` holds after it of the result and the state. -/
def Ensures (P : σ → Prop) (op : ExceptT Failure (StateM σ) α) (Q : Except Failure α → σ → Prop) : Prop :=
  ∀ s, P s → Q (op.run.run s).1 (op.run.run s).2

namespace Ensures

variable {P : σ → Prop} {op : ExceptT Failure (StateM σ) α} {Q : Except Failure α → σ → Prop}

theorem bind {next : α → ExceptT Failure (StateM σ) β} {R : Except Failure β → σ → Prop} (h : Ensures P op Q)
    (hok : ∀ a, Ensures (Q (.ok a)) (next a) R) (herror : ∀ cause s, Q (.error cause) s → R (.error cause) s) :
    Ensures P (op >>= next) R := by
  intro s hs
  have hop := h s hs
  rw [run_bind]
  rcases hrun : op.run.run s with ⟨r, s'⟩
  rw [hrun] at hop
  cases r with
  | ok a => exact hok a s' hop
  | error cause => exact herror cause s' hop

/-- An invariant is kept by each step until the last. -/
theorem step {next : α → ExceptT Failure (StateM σ) β} {R : Except Failure β → σ → Prop} (h : Ensures P op fun _ => P)
    (hok : ∀ a, Ensures P (next a) R) (herror : ∀ cause s, P s → R (.error cause) s) : Ensures P (op >>= next) R :=
  h.bind hok herror

theorem pure {a : α} (h : ∀ s, P s → Q (.ok a) s) : Ensures P (Pure.pure a) Q := fun s hs => h s hs

theorem throw {cause : Failure} (h : ∀ s, P s → Q (.error cause) s) : Ensures P (throw cause) Q :=
  fun s hs => h s hs

theorem get {Q : Except Failure σ → σ → Prop} (h : ∀ s, P s → Q (.ok s) s) :
    Ensures P (get : ExceptT Failure (StateM σ) σ) Q := fun s hs => h s hs

theorem modify {f : σ → σ} {Q : Except Failure PUnit → σ → Prop} (h : ∀ s, P s → Q (.ok ⟨⟩) (f s)) :
    Ensures P (modify f : ExceptT Failure (StateM σ) PUnit) Q := fun s hs => h s hs

theorem lift {r : Except Failure α} (h : ∀ s, P s → Q r s) :
    Ensures P (liftM r : ExceptT Failure (StateM σ) α) Q := by
  intro s hs
  rw [run_lift]
  exact h s hs

/-- What succeeds in any case is not followed by a failure. -/
theorem lift_ok {r : Except Failure α} {a : α} {next : α → ExceptT Failure (StateM σ) β} {R : Except Failure β → σ → Prop}
    (hr : r = .ok a) (hnext : Ensures P (next a) R) : Ensures P (liftM r >>= next) R := by
  intro s hs
  rw [run_bind, run_lift, hr]
  exact hnext s hs

/-- What fails in any case ends there. -/
theorem lift_error {r : Except Failure α} {cause : Failure} {next : α → ExceptT Failure (StateM σ) β}
    {R : Except Failure β → σ → Prop} (hr : r = .error cause) (h : ∀ s, P s → R (.error cause) s) :
    Ensures P (liftM r >>= next) R := by
  intro s hs
  rw [run_bind, run_lift, hr]
  exact h s hs

theorem ite {p : Prop} [Decidable p] {other : ExceptT Failure (StateM σ) α} (h : p → Ensures P op Q)
    (hnot : ¬ p → Ensures P other Q) : Ensures P (if p then op else other) Q := by
  by_cases hp : p
  · rw [if_pos hp]
    exact h hp
  · rw [if_neg hp]
    exact hnot hp

/-- An invariant is kept by what is done for each of some things. -/
theorem mapM {f : α → ExceptT Failure (StateM σ) β} (h : ∀ a, Ensures P (f a) fun _ => P) (as : List α) :
    Ensures P (as.mapM f) fun _ => P := by
  induction as with
  | nil =>
    rw [List.mapM_nil]
    exact .pure fun _ hs => hs
  | cons a as ih =>
    rw [List.mapM_cons]
    exact .step (h a) (fun _ => .step ih (fun _ => .pure fun _ hs => hs) fun _ _ h => h) fun _ _ h => h

theorem imp {P' : σ → Prop} {Q' : Except Failure α → σ → Prop} (h : Ensures P op Q) (hbefore : ∀ s, P' s → P s)
    (hafter : ∀ r s, Q r s → Q' r s) : Ensures P' op Q' := fun s hs => hafter _ _ (h s (hbefore s hs))

end Ensures

/-- From a state that is known, what follows goes on with what is known. -/
theorem ensures_ok {s s' : σ} {op : ExceptT Failure (StateM σ) α} {a : α} {next : α → ExceptT Failure (StateM σ) β}
    {R : Except Failure β → σ → Prop} (hrun : op.run.run s = (.ok a, s')) (h : Ensures (· = s') (next a) R) :
    Ensures (· = s) (op >>= next) R := by
  rintro _ rfl
  rw [run_bind, hrun]
  exact h _ rfl

/-- From a state that is known, what follows goes on from it, or the failure is known. -/
theorem ensures_lift {s : σ} {r : Except Failure α} {next : α → ExceptT Failure (StateM σ) β}
    {R : Except Failure β → σ → Prop} (hok : ∀ a, r = .ok a → Ensures (· = s) (next a) R)
    (herror : ∀ cause, r = .error cause → R (.error cause) s) : Ensures (· = s) (liftM r >>= next) R := by
  cases r with
  | ok a => exact .lift_ok rfl (hok a rfl)
  | error cause => exact .lift_error rfl fun _ hs => hs ▸ herror cause rfl

/-! ## Operations that look -/

/-- The operation changes nothing. -/
def Looks (op : ExceptT Failure (StateM σ) α) : Prop := ∀ s, (op.run.run s).2 = s

namespace Looks

variable {op : ExceptT Failure (StateM σ) α}

theorem bind {next : α → ExceptT Failure (StateM σ) β} (h : Looks op) (hnext : ∀ a, Looks (next a)) :
    Looks (op >>= next) := by
  intro s
  have hs := h s
  rw [run_bind]
  rcases hrun : op.run.run s with ⟨r, s'⟩
  rw [hrun] at hs
  obtain rfl : s' = s := hs
  cases r with
  | ok a => exact hnext a s'
  | error cause => rfl

theorem pure (a : α) : Looks (Pure.pure a : ExceptT Failure (StateM σ) α) := fun _ => rfl

theorem get : Looks (get : ExceptT Failure (StateM σ) σ) := fun _ => rfl

theorem lift (r : Except Failure α) : Looks (liftM r : ExceptT Failure (StateM σ) α) := fun s => by rw [run_lift]

theorem ite {p : Prop} [Decidable p] {other : ExceptT Failure (StateM σ) α} (h : Looks op) (hother : Looks other) :
    Looks (if p then op else other) := by
  split
  · exact h
  · exact hother

theorem ensures (h : Looks op) {P : σ → Prop} : Ensures P op fun _ => P := fun s hs => (h s).symm ▸ hs

/-- What follows goes on from the same state. -/
theorem run_bind_eq (h : Looks op) (next : α → ExceptT Failure (StateM σ) β) (s : σ) :
    (op >>= next).run.run s =
      match (op.run.run s).1 with
      | .ok a => (next a).run.run s
      | .error cause => (.error cause, s) := by
  have hs := h s
  rw [run_bind]
  rcases hrun : op.run.run s with ⟨_ | _, s'⟩
  all_goals
    rw [hrun] at hs
    obtain rfl : s' = s := hs
    rfl

/-- Something comes of both if it comes of what follows, for what the first looked at. -/
theorem bind_eq_ok (h : Looks op) {next : α → ExceptT Failure (StateM σ) β} {s : σ} {b : β} :
    ((op >>= next).run.run s).1 = .ok b ↔
      ∃ a, (op.run.run s).1 = .ok a ∧ ((next a).run.run s).1 = .ok b := by
  rw [h.run_bind_eq]
  cases (op.run.run s).1 with
  | ok a => simp
  | error cause => simp

/-- What is so already, and is so after whatever follows, is so in the end. -/
theorem after (h : Looks op) {next : α → ExceptT Failure (StateM σ) β} {s : σ} {P : σ → Prop} (hs : P s)
    (hnext : ∀ a, (op.run.run s).1 = .ok a → P ((next a).run.run s).2) : P ((op >>= next).run.run s).2 := by
  rw [h.run_bind_eq]
  cases hop : (op.run.run s).1 with
  | ok a => exact hnext a hop
  | error cause => exact hs

/-- What goes on in the same way comes to the same. -/
theorem congr (h : Looks op) {next next' : α → ExceptT Failure (StateM σ) β} {s : σ}
    (hnext : ∀ a, (op.run.run s).1 = .ok a → (next' a).run.run s = (next a).run.run s) :
    (op >>= next').run.run s = (op >>= next).run.run s := by
  rw [h.run_bind_eq, h.run_bind_eq]
  cases hop : (op.run.run s).1 with
  | ok a => exact hnext a hop
  | error cause => rfl

end Looks

/-! ## All or nothing -/

/-- If the operation fails in that state, it changes nothing. -/
def Whole (op : ExceptT Failure (StateM σ) α) (s : σ) : Prop :=
  ∀ cause, (op.run.run s).1 = .error cause → (op.run.run s).2 = s

namespace Whole

variable {op : ExceptT Failure (StateM σ) α} {s : σ}

/-- What was looked at before is known and does not matter. -/
theorem bind {next : α → ExceptT Failure (StateM σ) β} (h : Looks op)
    (hnext : ∀ a, (op.run.run s).1 = .ok a → Whole (next a) s) : Whole (op >>= next) s := by
  intro cause
  rw [h.run_bind_eq]
  cases ha : (op.run.run s).1 with
  | ok a => exact hnext a ha cause
  | error cause => exact fun _ => rfl

theorem pure (a : α) : Whole (Pure.pure a : ExceptT Failure (StateM σ) α) s := fun _ h => by cases h

theorem modify (f : σ → σ) : Whole (modify f : ExceptT Failure (StateM σ) PUnit) s := fun _ h => by cases h

end Whole

/-! ## Operations that take no heed -/

/-- The operation does and returns the same whether that change of the state is made before or after it. -/
def Heedless (change : σ → σ) (op : ExceptT Failure (StateM σ) α) : Prop :=
  ∀ s, op.run.run (change s) = ((op.run.run s).1, change (op.run.run s).2)

namespace Heedless

variable {change : σ → σ} {op : ExceptT Failure (StateM σ) α}

theorem bind {next : α → ExceptT Failure (StateM σ) β} (h : Heedless change op)
    (hnext : ∀ a, Heedless change (next a)) : Heedless change (op >>= next) := by
  intro s
  rw [run_bind, run_bind, h s]
  rcases op.run.run s with ⟨cause | a, s'⟩
  · rfl
  · exact hnext a s'

/-- What is read of the state is not touched by the change. -/
theorem reading {next : σ → ExceptT Failure (StateM σ) β} (hsame : ∀ s, next (change s) = next s)
    (hnext : ∀ s, Heedless change (next s)) : Heedless change (get >>= next) := by
  intro s
  rw [run_bind, run_bind, run_get, run_get]
  simp only [hsame s]
  exact hnext s s

theorem pure (a : α) : Heedless change (Pure.pure a : ExceptT Failure (StateM σ) α) := fun _ => rfl

theorem throw (cause : Failure) : Heedless change (throw cause : ExceptT Failure (StateM σ) α) := fun _ => rfl

theorem lift (r : Except Failure α) : Heedless change (liftM r : ExceptT Failure (StateM σ) α) := by
  intro s
  rw [run_lift, run_lift]

theorem modify {f : σ → σ} (hf : ∀ s, f (change s) = change (f s)) :
    Heedless change (modify f : ExceptT Failure (StateM σ) PUnit) := by
  intro s
  rw [run_modify, run_modify, hf s]

theorem ite {p : Prop} [Decidable p] {other : ExceptT Failure (StateM σ) α} (h : Heedless change op)
    (hother : Heedless change other) : Heedless change (if p then op else other) := by
  split
  · exact h
  · exact hother

end Heedless
end CoqConsole
