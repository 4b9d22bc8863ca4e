import CoqConsole.Buffer.Basic
import Mathlib.Data.List.Nodup

/-!
# Subscriptions of a buffer

* `Buffer.heardBy` : the listeners that hear of an event;
* `heardBy_subscribe`, `isActive_subscribe`, `isActive_cancel` : what registering and cancelling change;
* `Buffer.Enrolled` : each roll holds the active handles of its event, each once; both operations keep it so;
* `Buffer.Deaf` : nothing is active, and nobody hears of anything.
-/

namespace CoqConsole.Buffer

variable {κ μ : Type}

/-- The listeners that hear of an event, in the order of subscription. -/
def heardBy (b : Buffer κ μ) (e : BufferEvent) : List κ :=
  (b.subscriptions.filter fun s => s.active && decide (s.event = e)).map Subscription.listener

theorem isActive_eq_true {b : Buffer κ μ} {h : Nat} :
    b.isActive h = true ↔ ∃ s, b.subscriptions[h]? = some s ∧ s.active = true := by
  unfold isActive
  cases b.subscriptions[h]? <;> simp

/-! ## Registering -/

theorem heardBy_subscribe (b : Buffer κ μ) (e e' : BufferEvent) (listener : κ) :
    (b.subscribe e listener).2.heardBy e' = b.heardBy e' ++ if e = e' then [listener] else [] := by
  unfold heardBy subscribe
  rw [List.filter_append, List.map_append]
  by_cases h : e = e' <;> simp [h]

theorem isActive_subscribe (b : Buffer κ μ) (e : BufferEvent) (listener : κ) (h : Nat) :
    (b.subscribe e listener).2.isActive h = true ↔ b.isActive h = true ∨ h = b.subscriptions.length := by
  have hget : (b.subscribe e listener).2.subscriptions[h]? =
      if h = b.subscriptions.length then some ⟨e, listener, true⟩ else b.subscriptions[h]? := by
    show (b.subscriptions ++ [⟨e, listener, true⟩])[h]? = _
    rw [List.getElem?_append]
    by_cases hlt : h < b.subscriptions.length
    · rw [if_pos hlt, if_neg (by omega)]
    · rw [if_neg hlt, List.getElem?_singleton]
      by_cases heq : h = b.subscriptions.length
      · rw [if_pos heq, if_pos (by omega)]
      · rw [if_neg heq, if_neg (by omega), List.getElem?_eq_none (by omega)]
  rw [isActive_eq_true, isActive_eq_true, hget]
  by_cases heq : h = b.subscriptions.length
  · simp [heq]
  · simp [heq]

/-! ## Cancelling -/

theorem cancel_of_not_active {b : Buffer κ μ} {h : Nat} (hactive : b.isActive h = false) : b.cancel h = b := by
  unfold cancel
  cases hs : b.subscriptions[h]? with
  | none => rfl
  | some s =>
    have hoff : s.active = false := by
      simpa [isActive, hs] using hactive
    simp [hoff]

theorem cancel_of_active {b : Buffer κ μ} {h : Nat} {s : Subscription κ} (hs : b.subscriptions[h]? = some s)
    (hon : s.active = true) :
    b.cancel h = { b with
      subscriptions := b.subscriptions.set h { s with active := false }
      rolls := b.rolls.update s.event (·.erase h) } := by
  simp [cancel, hs, hon]

theorem isActive_cancel (b : Buffer κ μ) (h k : Nat) :
    (b.cancel h).isActive k = true ↔ b.isActive k = true ∧ k ≠ h := by
  cases hactive : b.isActive h with
  | false =>
    rw [cancel_of_not_active hactive]
    constructor
    · intro hk
      refine ⟨hk, ?_⟩
      rintro rfl
      rw [hactive] at hk
      cases hk
    · exact And.left
  | true =>
    obtain ⟨s, hs, hon⟩ := isActive_eq_true.mp hactive
    rw [cancel_of_active hs hon, isActive_eq_true, isActive_eq_true]
    have hlt : h < b.subscriptions.length := (List.getElem?_eq_some_iff.mp hs).1
    simp only [List.getElem?_set]
    by_cases hk : k = h
    · subst hk
      simp [hlt]
    · rw [if_neg (Ne.symm hk)]
      simp [hk]

/-! ## Many handles -/

theorem isActive_cancelAll (b : Buffer κ μ) (handles : List Nat) (k : Nat) :
    (handles.foldl cancel b).isActive k = true ↔ b.isActive k = true ∧ k ∉ handles := by
  induction handles generalizing b with
  | nil => simp
  | cons h handles ih =>
    rw [List.foldl_cons, ih, isActive_cancel, List.mem_cons, not_or, and_assoc]

/-- An operation on handles that leaves a part of the buffer alone does so for all of them. -/
theorem foldl_cancel {α : Type} (part : Buffer κ μ → α) (hpart : ∀ b h, part (cancel b h) = part b)
    (b : Buffer κ μ) (handles : List Nat) : part (handles.foldl cancel b) = part b := by
  induction handles generalizing b with
  | nil => rfl
  | cons h handles ih => rw [List.foldl_cons, ih, hpart]

theorem uri_cancel (b : Buffer κ μ) (h : Nat) : (b.cancel h).uri = b.uri := by
  unfold cancel
  split
  · split <;> rfl
  · rfl

theorem marks_cancel (b : Buffer κ μ) (h : Nat) : (b.cancel h).marks = b.marks := by
  unfold cancel
  split
  · split <;> rfl
  · rfl

/-! ## Nobody hears -/

/-- No subscription is active. -/
def Deaf (b : Buffer κ μ) : Prop := ∀ h, b.isActive h = false

theorem Deaf.heardBy {b : Buffer κ μ} (hb : b.Deaf) (e : BufferEvent) : b.heardBy e = [] := by
  have hnone : b.subscriptions.filter (fun s => s.active && decide (s.event = e)) = [] := by
    rw [List.filter_eq_nil_iff]
    intro s hs
    obtain ⟨h, hlt, rfl⟩ := List.mem_iff_getElem.mp hs
    have hoff := hb h
    rw [isActive, List.getElem?_eq_getElem hlt] at hoff
    have hfalse : b.subscriptions[h].active = false := hoff
    simp [hfalse]
  rw [Buffer.heardBy, hnone, List.map_nil]

/-! ## Rolls -/

/-- Each roll holds the active handles of its event, each once. -/
structure Enrolled (b : Buffer κ μ) : Prop where
  single : ∀ e, (b.roll e).Nodup
  active : ∀ e h, h ∈ b.roll e ↔ ∃ s, b.subscriptions[h]? = some s ∧ s.active = true ∧ s.event = e

theorem of_update (r : Rolls) (e e' : BufferEvent) (f : List Nat → List Nat) :
    (r.update e f).of e' = if e = e' then f (r.of e') else r.of e' := by
  cases e <;> cases e' <;> rfl

theorem Enrolled.of_eq {b b' : Buffer κ μ} (h : b.Enrolled) (hsub : b'.subscriptions = b.subscriptions)
    (hrolls : b'.rolls = b.rolls) : b'.Enrolled := by
  obtain ⟨uri, language, version, lines, cursor, marks, subscriptions, rolls, closed⟩ := b'
  subst hsub hrolls
  exact ⟨h.single, h.active⟩

theorem enrolled_ofText (uri text language : String) : (ofText uri text language : Buffer κ μ).Enrolled := by
  constructor
  · intro e
    cases e <;> exact List.nodup_nil
  · intro e h
    cases e <;> simp [ofText, roll, Rolls.of]

theorem Enrolled.subscribe {b : Buffer κ μ} (hb : b.Enrolled) (e : BufferEvent) (listener : κ) :
    (b.subscribe e listener).2.Enrolled := by
  have hroll (e' : BufferEvent) : (b.subscribe e listener).2.roll e' =
      if e = e' then b.roll e' ++ [b.subscriptions.length] else b.roll e' := of_update _ _ _ _
  have hfresh (e' : BufferEvent) : b.subscriptions.length ∉ b.roll e' := by
    intro hmem
    obtain ⟨s, hs, -⟩ := (hb.active e' _).mp hmem
    have := (List.getElem?_eq_some_iff.mp hs).1
    omega
  constructor
  · intro e'
    rw [hroll]
    split
    · refine List.nodup_append.mpr ⟨hb.single e', List.nodup_singleton _, ?_⟩
      intro h hh k hk
      rw [List.mem_singleton.mp hk]
      rintro rfl
      exact hfresh e' hh
    · exact hb.single e'
  · intro e' h
    have hget : (b.subscribe e listener).2.subscriptions = b.subscriptions ++ [⟨e, listener, true⟩] := rfl
    rw [hroll, hget, List.getElem?_append]
    by_cases hlt : h < b.subscriptions.length
    · rw [if_pos hlt, ← hb.active e' h]
      have hne : h ≠ b.subscriptions.length := by omega
      split <;> simp [hne]
    · rw [if_neg hlt, List.getElem?_singleton]
      have hout : h ∉ b.roll e' := by
        intro hmem
        obtain ⟨s, hs, -⟩ := (hb.active e' h).mp hmem
        exact hlt (List.getElem?_eq_some_iff.mp hs).1
      by_cases heq : h = b.subscriptions.length
      · subst heq
        by_cases he : e = e' <;> simp [he, hout]
      · have hpast : h - b.subscriptions.length ≠ 0 := by omega
        by_cases he : e = e' <;> simp [he, hout, heq, hpast]

theorem Enrolled.cancel {b : Buffer κ μ} (hb : b.Enrolled) (h : Nat) : (b.cancel h).Enrolled := by
  cases hactive : b.isActive h with
  | false =>
    rw [cancel_of_not_active hactive]
    exact hb
  | true =>
    obtain ⟨s, hs, hon⟩ := isActive_eq_true.mp hactive
    have hlt : h < b.subscriptions.length := (List.getElem?_eq_some_iff.mp hs).1
    rw [cancel_of_active hs hon]
    have hroll (e : BufferEvent) : (b.rolls.update s.event (·.erase h)).of e =
        if s.event = e then (b.roll e).erase h else b.roll e := of_update _ _ _ _
    constructor
    · intro e
      show ((b.rolls.update s.event (·.erase h)).of e).Nodup
      rw [hroll]
      split
      · exact (hb.single e).erase h
      · exact hb.single e
    · intro e k
      show k ∈ (b.rolls.update s.event (·.erase h)).of e ↔ _
      rw [hroll]
      simp only [List.getElem?_set]
      by_cases hk : h = k
      · subst hk
        have hother : h ∈ b.roll e → s.event = e := by
          intro hmem
          obtain ⟨s', hs', -, he⟩ := (hb.active e h).mp hmem
          rw [hs] at hs'
          cases hs'
          exact he
        by_cases he : s.event = e
        · simp [he, hlt, (hb.single e).mem_erase_iff]
        · have hout : h ∉ b.roll e := fun hmem => he (hother hmem)
          simp [he, hlt, hout]
      · rw [if_neg hk, ← hb.active e k]
        split
        · rw [(hb.single e).mem_erase_iff]
          exact ⟨And.right, fun hmem => ⟨Ne.symm hk, hmem⟩⟩
        · rfl

theorem Enrolled.cancelAll {b : Buffer κ μ} (hb : b.Enrolled) (handles : List Nat) :
    (handles.foldl Buffer.cancel b).Enrolled := by
  induction handles generalizing b with
  | nil => exact hb
  | cons h handles ih => exact ih (hb.cancel h)

end CoqConsole.Buffer
