import CoqConsole.Line.Lifecycle
import CoqConsole.Proofs.Keyed

/-!
# The books of a line

What a line knows of its requests: the next number, those that are pending, the answers that wait to be collected,
and the requests that were written. Everything that operations do to them comes down to a few entries.

* `Books`, `Wired.books` : the books; `requestId?` : the number under which a message asks for an answer;
* `Books.issue`, `Books.ask`, `Books.drop`, `Books.forget`, `Books.settle`, `Books.fail` : the entries;
* `Fit` : the books of a line on which calls wait for answers; each entry keeps them so;
* `Calm` : entries that bring no answer.
-/

namespace CoqConsole

/-- The number under which a message asks for an answer. Answers have no method, notifications no number. -/
def requestId? (message : Json) : Option Nat :=
  match message.get? "method", message.get? "id" with
  | some _, some (.int n) => some n.toNat
  | _, _ => none

def Failure.isRefusal : Failure → Bool
  | .refused .. => true
  | _ => false

/-- What a line knows of its requests. -/
structure Books where
  nextId : Nat
  pending : List Nat
  settled : List (Nat × Except Failure Json)
  /-- The requests that were written, in order. -/
  asked : List Nat

def Wired.books (w : Wired) : Books :=
  ⟨w.line.nextId, w.line.pending, w.line.settled, w.host.wire.filterMap fun m => requestId? m.2⟩

namespace Books

def issue (b : Books) : Books := { b with nextId := b.nextId + 1, pending := b.pending ++ [b.nextId] }

def ask (id : Nat) (b : Books) : Books := { b with asked := b.asked ++ [id] }

def drop (id : Nat) (b : Books) : Books := { b with pending := b.pending.erase id }

/-- A request is pending no more, and its answer is not kept. -/
def forget (id : Nat) (b : Books) : Books :=
  { b with pending := b.pending.erase id, settled := Keyed.erase id b.settled }

def settle (id : Nat) (answer : Except Failure Json) (b : Books) : Books :=
  if b.pending.contains id && !Keyed.has id b.settled then { b with settled := b.settled ++ [(id, answer)] } else b

def fail (cause : Failure) (b : Books) : Books :=
  { b.pending.foldl (fun b id => b.settle id (.error cause)) b with pending := [] }

/-- A request that waits for its first answer. -/
def IsOpen (b : Books) (id : Nat) : Prop := id ∈ b.pending ∧ id ∉ Keyed.keys b.settled

theorem settle_of_open {b : Books} {id : Nat} (h : b.IsOpen id) (answer : Except Failure Json) :
    b.settle id answer = { b with settled := b.settled ++ [(id, answer)] } := by
  have hhas : Keyed.has id b.settled = false := by
    rw [← Bool.not_eq_true, Keyed.has_eq_true]
    exact h.2
  rw [settle, if_pos (by simp [h.1, hhas])]

theorem settle_of_not_open {b : Books} {id : Nat} (h : ¬ b.IsOpen id) (answer : Except Failure Json) :
    b.settle id answer = b := by
  rw [settle, if_neg]
  intro hsettle
  rw [Bool.and_eq_true, List.contains_iff_mem, Bool.not_eq_true', ← Bool.not_eq_true, Keyed.has_eq_true] at hsettle
  exact h hsettle

/-- An answer changes only the answers that are kept. -/
theorem settle_cases (b : Books) (id : Nat) (answer : Except Failure Json) :
    (b.IsOpen id ∧ b.settle id answer = { b with settled := b.settled ++ [(id, answer)] }) ∨
      (¬ b.IsOpen id ∧ b.settle id answer = b) := by
  by_cases h : b.IsOpen id
  · exact .inl ⟨h, settle_of_open h answer⟩
  · exact .inr ⟨h, settle_of_not_open h answer⟩

theorem nextId_settle (b : Books) (id : Nat) (answer : Except Failure Json) :
    (b.settle id answer).nextId = b.nextId := by
  unfold settle
  split <;> rfl

end Books

/-! ## Books of a line on which calls wait -/

/-- The books of a line, where calls wait for the answers to `waited`. -/
structure Fit (waited : List Nat) (b : Books) : Prop where
  single : waited.Nodup
  below : ∀ i ∈ waited, i < b.nextId
  pending_single : b.pending.Nodup
  pending_waited : ∀ i ∈ b.pending, i ∈ waited
  settled_single : (Keyed.keys b.settled).Nodup
  settled_waited : ∀ i ∈ Keyed.keys b.settled, i ∈ waited
  /-- Answers that did not come from the server are no refusals. -/
  transport : ∀ i cause, (i, .error cause) ∈ b.settled → cause.isRefusal = false
  asked_below : ∀ i ∈ b.asked, i < b.nextId
  asked_ascending : b.asked.Pairwise (· < ·)

namespace Fit

variable {waited : List Nat} {b : Books} (h : Fit waited b)
include h

theorem perm {others : List Nat} (hperm : others.Perm waited) : Fit others b :=
  { h with
    single := hperm.nodup_iff.mpr h.single
    below := fun i hi => h.below i (hperm.mem_iff.mp hi)
    pending_waited := fun i hi => hperm.mem_iff.mpr (h.pending_waited i hi)
    settled_waited := fun i hi => hperm.mem_iff.mpr (h.settled_waited i hi) }

theorem nextId_notMem_pending : b.nextId ∉ b.pending := fun hmem => by
  have := h.below _ (h.pending_waited _ hmem)
  omega

theorem issue : Fit (waited ++ [b.nextId]) b.issue :=
  { h with
    single := by
      refine List.nodup_append.mpr ⟨h.single, List.nodup_singleton _, fun i hi j hj => ?_⟩
      have := h.below i hi
      rw [List.mem_singleton.mp hj]
      omega
    below := by
      have hbelow : ∀ i ∈ waited, i < b.nextId + 1 := fun i hi => Nat.lt_succ_of_lt (h.below i hi)
      exact List.forall_mem_append.mpr ⟨hbelow, List.forall_mem_singleton.mpr (Nat.lt_succ_self _)⟩
    pending_single := by
      refine List.nodup_append.mpr ⟨h.pending_single, List.nodup_singleton _, fun i hi j hj => ?_⟩
      rintro rfl
      exact h.nextId_notMem_pending (List.mem_singleton.mp hj ▸ hi)
    pending_waited := fun i hi => by
      rcases List.mem_append.mp hi with hi | hi
      · exact List.mem_append_left _ (h.pending_waited i hi)
      · exact List.mem_append_right _ hi
    settled_waited := fun i hi => List.mem_append_left _ (h.settled_waited i hi)
    asked_below := fun i hi => Nat.lt_succ_of_lt (h.asked_below i hi) }

theorem ask {id : Nat} (hid : id < b.nextId) (hasked : ∀ i ∈ b.asked, i < id) : Fit waited (b.ask id) :=
  { h with
    asked_below := List.forall_mem_append.mpr ⟨h.asked_below, List.forall_mem_singleton.mpr hid⟩
    asked_ascending := by
      refine List.pairwise_append.mpr ⟨h.asked_ascending, List.pairwise_singleton _ _, fun i hi j hj => ?_⟩
      rw [List.mem_singleton.mp hj]
      exact hasked i hi }

theorem drop (id : Nat) : Fit waited (b.drop id) :=
  { h with
    pending_single := h.pending_single.erase id
    pending_waited := fun i hi => h.pending_waited i (List.mem_of_mem_erase hi) }

omit h in
/-- A request that is forgotten is waited for no more. -/
theorem forget {id : Nat} (h : Fit (id :: waited) b) : Fit waited (b.forget id) :=
  { h with
    single := (List.nodup_cons.mp h.single).2
    below := fun i hi => h.below i (List.mem_cons_of_mem _ hi)
    pending_single := h.pending_single.erase id
    pending_waited := fun i hi => by
      obtain ⟨hne, hmem⟩ := (List.Nodup.mem_erase_iff h.pending_single).mp hi
      exact (List.mem_cons.mp (h.pending_waited i hmem)).resolve_left hne
    settled_single := Keyed.nodup_erase h.settled_single
    settled_waited := fun i hi => by
      obtain ⟨hmem, hne⟩ := Keyed.mem_keys_erase.mp hi
      exact (List.mem_cons.mp (h.settled_waited i hmem)).resolve_left hne
    transport := fun i cause hmem => h.transport i cause (Keyed.mem_erase.mp hmem).1 }

theorem settle (id : Nat) {answer : Except Failure Json}
    (hanswer : ∀ cause, answer = .error cause → cause.isRefusal = false) : Fit waited (b.settle id answer) := by
  rcases b.settle_cases id answer with ⟨hopen, heq⟩ | ⟨-, heq⟩
  · rw [heq]
    exact
      { h with
        settled_single := Keyed.nodup_append_single h.settled_single hopen.2
        settled_waited := Keyed.forall_keys_append_single h.settled_waited (h.pending_waited id hopen.1)
        transport := fun i cause hmem => by
          rcases List.mem_append.mp hmem with hmem | hmem
          · exact h.transport i cause hmem
          · exact hanswer cause (Prod.mk.inj (List.mem_singleton.mp hmem)).2.symm }
  · rw [heq]
    exact h

theorem fail {cause : Failure} (hcause : cause.isRefusal = false) : Fit waited (b.fail cause) := by
  have hfold (ids : List Nat) :
      ∀ b, Fit waited b → Fit waited (ids.foldl (fun b id => b.settle id (.error cause)) b) := by
    induction ids with
    | nil => exact fun b h => h
    | cons id ids ih =>
      refine fun b h => ih _ (h.settle id fun cause' he => ?_)
      cases he
      exact hcause
  have hall := hfold b.pending b h
  exact
    { hall with
      pending_single := List.nodup_nil
      pending_waited := fun i hi => absurd hi List.not_mem_nil }

end Fit

/-! ## Entries that bring no answer -/

/-- From one state of the books to another no answer of the server came in, and none is awaited again. -/
structure Calm (b b' : Books) : Prop where
  nextId_le : b.nextId ≤ b'.nextId
  settled : ∀ i message, (i, .ok message) ∈ b'.settled → (i, .ok message) ∈ b.settled
  isOpen : ∀ i, b'.IsOpen i → b.IsOpen i ∨ b.nextId ≤ i

namespace Calm

theorem refl (b : Books) : Calm b b := ⟨Nat.le_refl _, fun _ _ h => h, fun _ h => .inl h⟩

theorem trans {b b' b'' : Books} (h : Calm b b') (h' : Calm b' b'') : Calm b b'' where
  nextId_le := Nat.le_trans h.nextId_le h'.nextId_le
  settled := fun i message hmem => h.settled i message (h'.settled i message hmem)
  isOpen := fun i hopen => by
    rcases h'.isOpen i hopen with hopen | hle
    · exact h.isOpen i hopen
    · exact .inr (Nat.le_trans h.nextId_le hle)

theorem issue (b : Books) : Calm b b.issue where
  nextId_le := Nat.le_succ _
  settled := fun _ _ h => h
  isOpen := fun i ⟨hmem, hsettled⟩ => by
    rcases List.mem_append.mp hmem with hmem | hmem
    · exact .inl ⟨hmem, hsettled⟩
    · exact .inr (Nat.le_of_eq (List.mem_singleton.mp hmem).symm)

theorem ask (id : Nat) (b : Books) : Calm b (b.ask id) := ⟨Nat.le_refl _, fun _ _ h => h, fun _ h => .inl h⟩

theorem drop (id : Nat) (b : Books) : Calm b (b.drop id) :=
  ⟨Nat.le_refl _, fun _ _ h => h, fun _ ⟨hmem, hsettled⟩ => .inl ⟨List.mem_of_mem_erase hmem, hsettled⟩⟩

theorem forget (id : Nat) {b : Books} (single : b.pending.Nodup) : Calm b (b.forget id) where
  nextId_le := Nat.le_refl _
  settled := fun i message hmem => (Keyed.mem_erase.mp hmem).1
  isOpen := fun i ⟨hmem, hsettled⟩ => by
    obtain ⟨hne, hmem⟩ := (List.Nodup.mem_erase_iff single).mp hmem
    exact .inl ⟨hmem, fun h => hsettled (Keyed.mem_keys_erase.mpr ⟨h, hne⟩)⟩

theorem fail (cause : Failure) (b : Books) : Calm b (b.fail cause) := by
  have hfold (ids : List Nat) : ∀ b : Books,
      (ids.foldl (fun b id => b.settle id (.error cause)) b).nextId = b.nextId ∧
        ∀ i message, (i, .ok message) ∈ (ids.foldl (fun b id => b.settle id (.error cause)) b).settled →
          (i, .ok message) ∈ b.settled := by
    induction ids with
    | nil => exact fun b => ⟨rfl, fun _ _ h => h⟩
    | cons id ids ih =>
      intro b
      obtain ⟨hnext, hsettled⟩ := ih (b.settle id (.error cause))
      rw [List.foldl_cons]
      rcases b.settle_cases id (.error cause) with ⟨-, heq⟩ | ⟨-, heq⟩
      · rw [heq] at hnext hsettled ⊢
        refine ⟨hnext, fun i message hmem => ?_⟩
        rcases List.mem_append.mp (hsettled i message hmem) with hmem | hmem
        · exact hmem
        · cases List.mem_singleton.mp hmem
      · rw [heq] at hnext hsettled ⊢
        exact ⟨hnext, hsettled⟩
  obtain ⟨hnext, hsettled⟩ := hfold b.pending b
  exact ⟨Nat.le_of_eq hnext.symm, hsettled, fun i ⟨hmem, _⟩ => absurd hmem List.not_mem_nil⟩

end Calm
end CoqConsole
