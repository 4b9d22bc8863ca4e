import CoqConsole.Proofs.Line.Winding

/-!
# The requests that a line knows

A line can bring an answer to a request only while it knows it: while the request is pending or its answer is kept.
Whatever an operation does, it spares the requests of others, and where nothing is read any more nothing is pending.

* `Books.Knows` : the request is pending, or its answer is kept;
* `Books.Spares` : from one state of the books to another all are known that were, but for some requests and newer ones;
* `Wired.IsDead` : nothing is read any more, or the server was stopped;
* `Line.Spared` : so far all others were spared, and nothing is pending on a dead line; `spared_post`, `spared_cancel`,
  `spared_collect`, `Spared.read` : it stays so;
* `Line.Awaits`, `Line.Closes`, `awaits_start`, `closes_stop`, `awaits_conclude` : a call that waits is known, and one that
  has stopped the server leaves a dead line.
-/

namespace CoqConsole

namespace Books

/-- The request is pending, or its answer is kept. -/
def Knows (b : Books) (i : Nat) : Prop := i ∈ b.pending ∨ i ∈ Keyed.keys b.settled

variable {own : List Nat} {b b' : Books}

theorem knows_issue {i : Nat} : b.issue.Knows i ↔ b.Knows i ∨ i = b.nextId := by
  simp only [Knows, issue, List.mem_append, List.mem_singleton]
  tauto

theorem knows_drop {i id : Nat} (hne : i ≠ id) : (b.drop id).Knows i ↔ b.Knows i := by
  simp only [Knows, drop, List.mem_erase_of_ne hne]

theorem knows_forget {i id : Nat} (hne : i ≠ id) : (b.forget id).Knows i ↔ b.Knows i := by
  simp only [Knows, forget, List.mem_erase_of_ne hne, Keyed.mem_keys_erase, hne, ne_eq, not_false_iff, and_true]

theorem knows_of_drop {i id : Nat} (h : (b.drop id).Knows i) : b.Knows i := h.imp_left List.mem_of_mem_erase

theorem knows_of_forget {i id : Nat} (h : (b.forget id).Knows i) : b.Knows i :=
  h.imp List.mem_of_mem_erase fun hmem => (Keyed.mem_keys_erase.mp hmem).1

/-- An answer that is kept was awaited. -/
theorem knows_settle (id : Nat) (answer : Except Failure Json) {i : Nat} : (b.settle id answer).Knows i ↔ b.Knows i := by
  rcases b.settle_cases id answer with ⟨hopen, heq⟩ | ⟨-, heq⟩
  · rw [heq, Knows, Knows, Keyed.keys_append_single, List.mem_append, List.mem_singleton]
    refine ⟨?_, fun h => h.imp_right .inl⟩
    rintro (hmem | hmem | rfl)
    · exact .inl hmem
    · exact .inr hmem
    · exact .inl hopen.1
  · rw [heq]

theorem pending_settle (id : Nat) (answer : Except Failure Json) : (b.settle id answer).pending = b.pending := by
  unfold settle
  split <;> rfl

/-- A request that is pending has its answer, the first that came. -/
theorem keys_settle {id : Nat} (hid : id ∈ b.pending) (answer : Except Failure Json) {i : Nat} :
    i ∈ Keyed.keys (b.settle id answer).settled ↔ i = id ∨ i ∈ Keyed.keys b.settled := by
  rcases b.settle_cases id answer with ⟨-, heq⟩ | ⟨hopen, heq⟩
  · rw [heq, Keyed.keys_append_single, List.mem_append, List.mem_singleton, or_comm]
  · have hkept : id ∈ Keyed.keys b.settled := by
      by_contra hnot
      exact hopen ⟨hid, hnot⟩
    rw [heq]
    refine ⟨.inr, ?_⟩
    rintro (rfl | hmem)
    · exact hkept
    · exact hmem

theorem mem_settled_settle {id : Nat} {answer : Except Failure Json} {entry : Nat × Except Failure Json}
    (h : entry ∈ (b.settle id answer).settled) : entry ∈ b.settled ∨ entry.2 = answer := by
  rcases b.settle_cases id answer with ⟨-, heq⟩ | ⟨-, heq⟩
  · rw [heq] at h
    rcases List.mem_append.mp h with hmem | hmem
    · exact .inl hmem
    · rw [List.mem_singleton.mp hmem]
      exact .inr rfl
  · rw [heq] at h
    exact .inl h

/-- What was pending when nothing can come any more has its answer. -/
theorem keys_fail (cause : Failure) {i : Nat} : i ∈ Keyed.keys (b.fail cause).settled ↔ b.Knows i := by
  have hfold (ids : List Nat) : ∀ b : Books, (∀ i ∈ ids, i ∈ b.pending) →
      (i ∈ Keyed.keys (ids.foldl (fun b id => b.settle id (.error cause)) b).settled ↔
        i ∈ ids ∨ i ∈ Keyed.keys b.settled) := by
    induction ids with
    | nil => simp
    | cons id ids ih =>
      intro b hids
      have hrest : ∀ i ∈ ids, i ∈ (b.settle id (.error cause)).pending := fun i hi => by
        rw [pending_settle]
        exact hids i (List.mem_cons_of_mem _ hi)
      rw [List.foldl_cons, ih _ hrest, keys_settle (hids id List.mem_cons_self), List.mem_cons]
      tauto
  exact hfold b.pending b fun i hi => hi

theorem knows_fail (cause : Failure) {i : Nat} : (b.fail cause).Knows i ↔ b.Knows i := by
  have hnone : i ∉ (b.fail cause).pending := List.not_mem_nil
  rw [Knows, or_iff_right hnone, keys_fail]

theorem mem_settled_fail {cause : Failure} {entry : Nat × Except Failure Json} (h : entry ∈ (b.fail cause).settled) :
    entry ∈ b.settled ∨ entry.2 = .error cause := by
  have hfold (ids : List Nat) : ∀ b : Books,
      entry ∈ (ids.foldl (fun b id => b.settle id (.error cause)) b).settled →
        entry ∈ b.settled ∨ entry.2 = .error cause := by
    induction ids with
    | nil => exact fun _ => .inl
    | cons id ids ih => exact fun b hmem => (ih _ hmem).elim mem_settled_settle .inr
  exact hfold b.pending b h

/-- From one state of the books to another no old request has come back, and all are known that were, but for some. -/
structure Spares (own : List Nat) (b b' : Books) : Prop where
  nextId_le : b.nextId ≤ b'.nextId
  known : ∀ i ∉ own, i < b.nextId → b.Knows i → b'.Knows i
  gone : ∀ i < b.nextId, b'.Knows i → b.Knows i
  truthful : ∀ i cause, (i, .error cause) ∈ b'.settled →
    (i, .error cause) ∈ b.settled ∨ cause = .lostConnection ∨ cause = .stopped

namespace Spares

theorem refl (own : List Nat) (b : Books) : Spares own b b :=
  ⟨Nat.le_refl _, fun _ _ _ h => h, fun _ _ h => h, fun _ _ h => .inl h⟩

variable (h : Spares own b b')
include h

theorem issue : Spares own b b'.issue where
  nextId_le := Nat.le_succ_of_le h.nextId_le
  known i hout hi hknown := knows_issue.mpr (.inl (h.known i hout hi hknown))
  gone i hi hknown := by
    rcases knows_issue.mp hknown with hknown | rfl
    · exact h.gone i hi hknown
    · exact absurd h.nextId_le (Nat.not_le.mpr hi)
  truthful := h.truthful

theorem ask (id : Nat) : Spares own b (b'.ask id) := ⟨h.nextId_le, h.known, h.gone, h.truthful⟩

omit h in
theorem ne_of_own {own : List Nat} {b : Books} {i id : Nat} (hid : id ∈ own ∨ b.nextId ≤ id) (hout : i ∉ own)
    (hi : i < b.nextId) : i ≠ id := by
  rintro rfl
  exact hid.elim hout (Nat.not_le.mpr hi)

theorem drop {id : Nat} (hid : id ∈ own ∨ b.nextId ≤ id) : Spares own b (b'.drop id) where
  nextId_le := h.nextId_le
  known i hout hi hknown := (knows_drop (ne_of_own hid hout hi)).mpr (h.known i hout hi hknown)
  gone i hi hknown := h.gone i hi (knows_of_drop hknown)
  truthful := h.truthful

theorem forget {id : Nat} (hid : id ∈ own ∨ b.nextId ≤ id) : Spares own b (b'.forget id) where
  nextId_le := h.nextId_le
  known i hout hi hknown := (knows_forget (ne_of_own hid hout hi)).mpr (h.known i hout hi hknown)
  gone i hi hknown := h.gone i hi (knows_of_forget hknown)
  truthful i cause hmem := h.truthful i cause (Keyed.mem_erase.mp hmem).1

theorem settle (id : Nat) (message : Json) : Spares own b (b'.settle id (.ok message)) where
  nextId_le := by
    rw [nextId_settle]
    exact h.nextId_le
  known i hout hi hknown := (knows_settle id _).mpr (h.known i hout hi hknown)
  gone i hi hknown := h.gone i hi ((knows_settle id _).mp hknown)
  truthful i cause hmem := by
    rcases mem_settled_settle hmem with hmem | hanswer
    · exact h.truthful i cause hmem
    · cases hanswer

theorem fail {cause : Failure} (hcause : cause = .lostConnection ∨ cause = .stopped) : Spares own b (b'.fail cause) where
  nextId_le := Nat.le_trans h.nextId_le (Calm.fail cause b').nextId_le
  known i hout hi hknown := (knows_fail cause).mpr (h.known i hout hi hknown)
  gone i hi hknown := h.gone i hi ((knows_fail cause).mp hknown)
  truthful i cause' hmem := by
    rcases mem_settled_fail hmem with hmem | herror
    · exact h.truthful i cause' hmem
    · cases herror
      exact .inr hcause

end Spares
end Books

/-! ## Dead lines -/

namespace Wired

/-- Nothing is read any more, or the server was stopped. -/
def IsDead (w : Wired) : Prop := w.line.reading = false ∨ w.line.process = none

instance (w : Wired) : Decidable w.IsDead := inferInstanceAs (Decidable (_ ∨ _))

theorem IsDead.not_running {w : Wired} (h : w.IsDead) : w.running? = none := by
  unfold running?
  rcases h with hreading | hprocess
  · rw [hreading]
    cases w.line.process with
    | none => rfl
    | some p => simp
  · rw [hprocess]

end Wired

namespace Line

/-- Since the books were `b` all requests were spared but for some and newer ones. Nothing is pending on a dead line, and
a dead line stays so, if it has to. -/
structure Spared (own : List Nat) (b : Books) (dead : Prop) (w : Wired) : Prop where
  spares : b.Spares own w.books
  below : ∀ i ∈ w.books.pending, i < w.books.nextId
  quiet : w.IsDead → w.line.pending = []
  dead : dead → w.IsDead

namespace Spared

variable {own : List Nat} {b : Books} {dead : Prop} {w w' : Wired}

/-- Beside what is entered in the books, the line has the same process and reads as before. -/
theorem of_books (h : Spared own b dead w) (hspares : b.Spares own w'.books) (hnextId : w.books.nextId ≤ w'.books.nextId)
    (hpending : w'.books.pending ⊆ w.books.pending) (hprocess : w'.line.process = w.line.process)
    (hreading : w'.line.reading = w.line.reading) : Spared own b dead w' where
  spares := hspares
  below i hi := Nat.lt_of_lt_of_le (h.below i (hpending hi)) hnextId
  quiet hdead := by
    have hquiet : w.books.pending = [] := h.quiet (by rwa [Wired.IsDead, hprocess, hreading] at hdead)
    have hnil : w'.books.pending = [] := List.subset_nil.mp (hquiet ▸ hpending)
    exact hnil
  dead hdead := by
    rw [Wired.IsDead, hprocess, hreading]
    exact h.dead hdead

theorem of_eq (h : Spared own b dead w) (hbooks : w'.books = w.books) (hprocess : w'.line.process = w.line.process)
    (hreading : w'.line.reading = w.line.reading) : Spared own b dead w' :=
  h.of_books (hbooks ▸ h.spares) (hbooks ▸ Nat.le_refl _) (hbooks ▸ List.Subset.refl _) hprocess hreading

theorem forget (h : Spared own b dead w) {id : Nat} (hid : id ∈ own ∨ b.nextId ≤ id) :
    Spared own b dead ((Line.forget id).run.run w).2 :=
  h.of_books (h.spares.forget hid) (Nat.le_refl _) List.erase_subset rfl rfl

/-- Nothing can come any more. -/
theorem fail (h : Spared own b dead w) {cause : Failure} (hcause : cause = .lostConnection ∨ cause = .stopped)
    (hbooks : w'.books = w.books.fail cause) (hdead : w'.IsDead) : Spared own b dead w' where
  spares := hbooks ▸ h.spares.fail hcause
  below i hi := by
    rw [hbooks] at hi
    cases hi
  quiet _ := by
    have hnil : w'.books.pending = [] := hbooks ▸ rfl
    exact hnil
  dead _ := hdead

end Spared

/-! ## Reading -/

namespace Spared

variable {own : List Nat} {b : Books} {dead : Prop} {w w' : Wired}

theorem endReading (h : Spared own b dead w) (r : Option Record) : Spared own b dead (w.endReading r) := by
  obtain ⟨settled, hfail, -⟩ := eq_of_failPending .lostConnection { w.line with reading := false }
  have hreading : (w.endReading r).line.reading = false := by
    show w.line.endReading.reading = false
    rw [Line.endReading, hfail]
  exact h.fail (.inl rfl) (w.books_endReading r) (.inl hreading)

theorem consumed (h : Spared own b dead w) (p : Nat) (rest : List UInt8) : Spared own b dead (w.consumed p rest) :=
  h.of_eq rfl rfl rfl

theorem heeds {handles : String → Bool} {message : Json} {handed : Option (String × Json)} (h : Spared own b dead w)
    (hheeds : Heeds handles w message w' handed) : Spared own b dead w' := by
  have honward := hheeds.onward
  cases hheeds with
  | @answer id _ =>
    have hbooks := books_settle w id (.ok message)
    refine h.of_books (hbooks ▸ h.spares.settle id message) ?_ ?_ honward.process honward.reading
    · exact Nat.le_of_eq (by rw [hbooks, Books.nextId_settle])
    · rw [hbooks, Books.pending_settle]
      exact List.Subset.refl _
  | @request method id value key p _ _ hanswer _ =>
    have hplain : requestId? (.object [("jsonrpc", .text "2.0"), ("id", id), (key, value)]) = none := by
      rcases key_answerFor hanswer with rfl | rfl <;> rfl
    refine h.of_eq ?_ honward.process honward.reading
    simp [Wired.books, Host.deliver, Host.edit, hplain]
  | _ => exact h

theorem read {handles : String → Bool} {handed : Option (String × Json)} (h : Spared own b dead w)
    (hread : w.read handles = some (w', handed)) : Spared own b dead w' := by
  rcases Wired.read_ends_or_heeds hread with ⟨v, r, rfl | ⟨p, rest, rfl⟩, rfl⟩ | ⟨p, message, rest, hheeds⟩
  · exact h.endReading r
  · exact (h.consumed p rest).endReading r
  · exact (h.consumed p rest).heeds hheeds

end Spared

/-! ## Requests -/

section Operations

variable {own : List Nat} {b : Books} {dead : Prop}

theorem spared_notify (method params : Json) :
    Ensures (Spared own b dead) (notify method params) fun _ => Spared own b dead := fun w h =>
  have honward := (Wired.Onward.traffic w).notify method params w (.refl w)
  h.of_eq (Keeps.notify method params w) honward.process honward.reading

theorem spared_learn (answer : Json) : Ensures (Spared own b dead) (learn answer) fun _ => Spared own b dead :=
  fun w h =>
    have honward := (Wired.Onward.traffic w).learn answer w (.refl w)
    h.of_eq (Keeps.learn answer w) honward.process honward.reading

theorem spared_editHost {f : Host → Host} (h : ∀ w : Wired, ({ w with host := f w.host } : Wired).books = w.books) :
    Ensures (Spared own b dead) (editHost f) fun _ => Spared own b dead :=
  .modify fun w hw => hw.of_eq (h w) rfl rfl

/-- A request that was written is pending, and the line is not dead. -/
theorem Spared.written {w w' : Wired} (h : Spared own b dead w) (hbooks : w'.books = w.books.issue.ask w.line.nextId)
    (halive : ¬ w'.IsDead) (hprocess : w'.line.process = w.line.process) (hreading : w'.line.reading = w.line.reading) :
    Spared own b dead w' where
  spares := by
    rw [hbooks]
    exact h.spares.issue.ask _
  below i hi := by
    rw [hbooks] at hi ⊢
    rcases List.mem_append.mp hi with hi | hi
    · exact Nat.lt_succ_of_lt (h.below i hi)
    · rw [List.mem_singleton.mp hi]
      exact Nat.lt_succ_self _
  quiet hdead := absurd hdead halive
  dead hdead := by
    rw [Wired.IsDead, hprocess, hreading]
    exact h.dead hdead

/-- A request that could not be written has taken its number, and nothing else is left of it. -/
theorem Spared.unwritten {w w' : Wired} (h : Spared own b dead w)
    (hbooks : w'.books = w.books.issue ∨ w'.books = w.books.issue.ask w.line.nextId)
    (hprocess : w'.line.process = w.line.process) (hreading : w'.line.reading = w.line.reading) :
    Spared own b dead ((Line.forget w.line.nextId).run.run w').2 := by
  obtain ⟨hspares, hnextId, hpending⟩ : b.Spares own w'.books ∧ w'.books.nextId = w.books.nextId + 1 ∧
      w'.books.pending = w.books.pending ++ [w.line.nextId] := by
    rcases hbooks with hbooks | hbooks
    · rw [hbooks]
      exact ⟨h.spares.issue, rfl, rfl⟩
    · rw [hbooks]
      exact ⟨h.spares.issue.ask _, rfl, rfl⟩
  have hfresh : w.line.nextId ∉ w.books.pending := fun hmem => Nat.lt_irrefl _ (h.below _ hmem)
  have hsame : (((Line.forget w.line.nextId).run.run w').2).books.pending = w.books.pending := by
    show w'.books.pending.erase w.line.nextId = _
    rw [hpending, List.erase_append_right _ hfresh, List.erase_cons_head, List.append_nil]
  have hnext : (((Line.forget w.line.nextId).run.run w').2).books.nextId = w.books.nextId + 1 := hnextId
  exact h.of_books (hspares.forget (.inr h.spares.nextId_le)) (hnext ▸ Nat.le_succ _) (hsame ▸ List.Subset.refl _)
    hprocess hreading

/-- A request that was written is pending; one that was not leaves nothing. -/
theorem spared_post (method params timeout : Json) :
    Ensures (Spared own b dead) (post method params timeout) fun r w => Spared own b dead w ∧
      ∀ posted, r = .ok posted → posted.1 ∈ w.books.pending ∧ posted.2.ids = [posted.1] := by
  intro w h
  let id := w.line.nextId
  have htransmitted := transmitted id method params timeout (issued w)
  have honward := (Wired.Onward.traffic (issued w)).transmit id method params timeout _ (.refl _)
  have hunwritten (hdead : w.IsDead) := transmit_of_not_running id method params timeout (w := issued w) hdead.not_running
  rw [run_post]
  generalize (transmit w.line.nextId method params timeout).run.run (issued w) = out at htransmitted honward hunwritten
  obtain ⟨r, w'⟩ := out
  have hprocess : w'.line.process = w.line.process := honward.process
  have hreading : w'.line.reading = w.line.reading := honward.reading
  cases r with
  | ok wait =>
    obtain ⟨hbooks, hids⟩ := htransmitted
    have hbooks : w'.books = w.books.issue.ask id := hbooks
    have halive : ¬ w'.IsDead := fun hdead => by
      rw [Wired.IsDead, hprocess, hreading] at hdead
      cases hunwritten hdead
    refine ⟨h.written hbooks halive hprocess hreading, ?_⟩
    intro posted hposted
    cases hposted
    refine ⟨?_, hids⟩
    rw [hbooks]
    exact List.mem_append_right _ (List.mem_singleton.mpr rfl)
  | error cause => exact ⟨h.unwritten htransmitted.1 hprocess hreading, fun _ he => by cases he⟩

/-- The number of the request that is given up, if it can be one. -/
def cancelled? (id : Json) : Option Nat :=
  match keyOf id with
  | .ok n => n
  | .error _ => none

/-- Giving up a request makes it pending no more, and enters nothing else. -/
theorem books_cancel (id : Json) (w : Wired) :
    ((cancel id).run.run w).2.books = (cancelled? id).elim w.books (Books.drop · w.books) := by
  have htell (w : Wired) : (if w.isRunning = true then (notify "$/cancelRequest" (.object [("id", id)])).run.run w
      else (.ok (), w)).2.books = w.books := by
    split
    · exact Keeps.notify _ _ w
    · rfl
  simp only [cancel, run_bind, run_get, run_ite, run_lift, run_pure]
  by_cases hempty : w.line.pending.isEmpty = true
  · have herase (n : Nat) : w.books.pending.erase n = w.books.pending := by
      rw [show w.books.pending = [] from List.isEmpty_iff.mp hempty, List.erase_nil]
    rw [if_pos hempty]
    refine (htell w).trans ?_
    cases cancelled? id with
    | none => rfl
    | some n => rw [Option.elim, Books.drop, herase]
  · rw [if_neg hempty, cancelled?]
    cases keyOf id with
    | error cause => rfl
    | ok key =>
      cases key with
      | none =>
        simp only [run_bind, run_get, run_ite, run_pure]
        exact htell w
      | some n =>
        simp only [run_bind, run_get, run_ite, run_pure, edit, run_modify]
        exact htell { w with line := { w.line with pending := w.line.pending.erase n } }

/-- Giving up a request touches no other. -/
theorem spared_cancel {id : Json} (hid : ∀ n, cancelled? id = some n → n ∈ own ∨ b.nextId ≤ n) :
    Ensures (Spared own b dead) (cancel id) fun _ => Spared own b dead := by
  intro w h
  have hbooks := books_cancel id w
  have honward := (Wired.Onward.traffic w).cancel id w (.refl w)
  cases hkey : cancelled? id with
  | none =>
    rw [hkey] at hbooks
    exact h.of_eq hbooks honward.process honward.reading
  | some n =>
    rw [hkey] at hbooks
    have hbooks : ((cancel id).run.run w).2.books = w.books.drop n := hbooks
    refine h.of_books (hbooks ▸ h.spares.drop (hid n hkey)) (hbooks ▸ Nat.le_refl _) ?_ honward.process honward.reading
    rw [hbooks]
    exact List.erase_subset

theorem spared_forget {id : Nat} (hid : id ∈ own ∨ b.nextId ≤ id) :
    Ensures (Spared own b dead) (Line.forget id) fun _ => Spared own b dead := fun _ h => h.forget hid

theorem spared_collect {id : Nat} (hid : id ∈ own ∨ b.nextId ≤ id) (method params : Json) (ending : Ending) :
    Ensures (Spared own b dead) (collect id method params ending) fun _ => Spared own b dead := by
  have hkey (n : Nat) (h : cancelled? (.int id) = some n) : n ∈ own ∨ b.nextId ≤ n := by
    have hsame : cancelled? (.int id) = some id := by simp [cancelled?, keyOf, Json.key, Except.map]
    rw [hsame] at h
    cases h
    exact hid
  have hfailed (cause : Failure) : Ensures (Spared own b dead) (do Line.forget id; throw cause : Op Json)
      fun _ => Spared own b dead := .step (spared_forget hid) (fun _ => .throw fun _ hw => hw) fun _ _ h => h
  cases ending with
  | late => exact .step (spared_cancel hkey) (fun _ => hfailed .timedOut) fun _ _ h => h
  | failed cause => exact hfailed cause
  | met =>
    refine .step (.get fun _ hw => hw) (fun w => ?_) fun _ _ h => h
    refine .step (spared_forget hid) (fun _ => ?_) fun _ _ h => h
    cases Keyed.get? id w.line.settled with
    | none => exact .throw fun _ hw => hw
    | some answer =>
      cases answer with
      | ok message => exact .lift fun _ hw => hw
      | error cause => exact .throw fun _ hw => hw

end Operations

/-! ## Calls -/

/-- What a call comes to: others are spared, and if it waits for an answer, the request is pending. -/
structure Awaits (own : List Nat) (b : Books) (dead : Prop) (r : Except Failure Standing) (w : Wired) : Prop where
  spared : Spared own b dead w
  waits : ∀ s, r = .ok (.waiting s) → ∀ i ∈ s.ids, i ∈ w.books.pending

/-- The same of a call that stops a server: it goes on to do so, or has left the line without a process. -/
structure Closes (own : List Nat) (b : Books) (dead : Prop) (result : Json) (r : Except Failure Standing) (w : Wired) :
    Prop extends Awaits own b dead r w where
  goes : ∀ s, r = .ok (.waiting s) → s.plan.result? = some result
  ends : ∀ v, r = .ok (.finished v) → w.line.process = none

section Calls

variable {own : List Nat} {b : Books} {dead : Prop}

theorem Spared.awaits_ended {w : Wired} (h : Spared own b dead w) {r : Except Failure Standing}
    (hr : ∀ s, r ≠ .ok (.waiting s)) : Awaits own b dead r w := ⟨h, fun s hs => absurd hs (hr s)⟩

/-- A call that stops a server and waits for no answer. -/
theorem Spared.closes_waiting {w : Wired} (h : Spared own b dead w) {s : Suspended} {result : Json} (hids : s.ids = [])
    (hresult : s.plan.result? = some result) : Closes own b dead result (.ok (.waiting s)) w where
  spared := h
  waits s' hs i hi := by
    cases hs
    rw [hids] at hi
    cases hi
  goes s' hs := by
    cases hs
    exact hresult
  ends v hv := by cases hv

theorem Spared.closes_failed {w : Wired} (h : Spared own b dead w) (cause : Failure) (result : Json) :
    Closes own b dead result (.error cause) w :=
  ⟨⟨h, nofun⟩, nofun, nofun⟩

variable (result : Json)

theorem closes_clear : Ensures (Spared own b dead) (clear result) (Closes own b dead result) := by
  intro w h
  have hdead : Wired.IsDead ((clear result).run.run w).2 := .inr rfl
  have hspared : Spared own b dead ((clear result).run.run w).2 :=
    h.fail (.inr rfl) (books_failPending w .stopped) hdead
  exact ⟨⟨hspared, nofun⟩, nofun, fun _ _ => rfl⟩

theorem closes_close : Ensures (Spared own b dead) (close result) (Closes own b dead result) := by
  refine .step (.get fun w hw => hw) (fun w => ?_) fun cause _ h => h.closes_failed cause result
  cases w.line.process with
  | none => exact closes_clear result
  | some p =>
    refine .step (.modify fun w hw => hw.of_eq rfl rfl rfl) (fun _ => ?_) fun cause _ h => h.closes_failed cause result
    exact .pure fun w hw => hw.closes_waiting rfl rfl

theorem closes_terminate : Ensures (Spared own b dead) (terminate result) (Closes own b dead result) := by
  refine .step (.get fun w hw => hw) (fun w => ?_) fun cause _ h => h.closes_failed cause result
  cases w.line.process with
  | none => exact closes_close result
  | some p =>
    refine .ite (fun _ => ?_) fun _ => closes_close result
    refine .step (spared_editHost fun _ => rfl) (fun _ => ?_) fun cause _ h => h.closes_failed cause result
    exact .pure fun w hw => hw.closes_waiting rfl rfl

theorem closes_stop : Ensures (Spared own b dead) (stop result) (Closes own b dead result) := by
  refine .step (.get fun w hw => hw) (fun w => ?_) fun cause _ h => h.closes_failed cause result
  refine .ite (fun _ => ?_) fun _ => closes_terminate result
  refine .bind (ensures_attempt (spared_post _ _ _)) (fun r => ?_) fun _ _ hend => by cases hend.choose_spec.1
  cases r with
  | ok posted =>
    refine .pure fun w hend => ?_
    obtain ⟨_, he, hw, hposted⟩ := hend
    cases he
    obtain ⟨hpending, hids⟩ := hposted posted rfl
    refine ⟨⟨hw, fun s hs i hi => ?_⟩, fun s hs => ?_, fun _ hv => by cases hv⟩
    · cases hs
      rw [Suspended.ids, hids, List.mem_singleton] at hi
      exact hi ▸ hpending
    · cases hs
      rfl
  | error cause =>
    refine .ite (fun _ => ?_) fun _ => .throw fun w hend => ?_
    · refine (closes_terminate result).imp (fun w hend => ?_) fun _ _ h => h
      obtain ⟨_, _, hw, _⟩ := hend
      exact hw
    · obtain ⟨_, _, hw, _⟩ := hend
      exact hw.closes_failed cause result

theorem closes_leave : Ensures (Spared own b dead) (leave result) (Closes own b dead result) := by
  refine .step (spared_notify _ _) (fun _ => ?_) fun cause _ h => h.closes_failed cause result
  refine .step (.get fun w hw => hw) (fun w => ?_) fun cause _ h => h.closes_failed cause result
  cases w.line.process with
  | none => exact .throw fun w hw => hw.closes_failed _ result
  | some p => exact .pure fun w hw => hw.closes_waiting rfl rfl

theorem closes_kill : Ensures (Spared own b dead) (kill result) (Closes own b dead result) := by
  refine .step (.get fun w hw => hw) (fun w => ?_) fun cause _ h => h.closes_failed cause result
  cases w.line.process with
  | none => exact .throw fun w hw => hw.closes_failed _ result
  | some p =>
    refine .step (spared_editHost fun _ => rfl) (fun _ => ?_) fun cause _ h => h.closes_failed cause result
    refine .ite (fun _ => ?_) fun _ => closes_close result
    exact .step (.throw fun w hw => hw) (fun _ => closes_close result) fun cause _ h => h.closes_failed cause result

/-- A call that goes on stopping a server. -/
theorem closes_conclude {plan : Plan} (hresult : plan.result? = some result) (hown : ∀ i ∈ plan.ids, i ∈ own)
    (ending : Ending) : Ensures (Spared own b dead) (conclude ending plan) (Closes own b dead result) := by
  cases plan with
  | request id method params => cases hresult
  | greeting id params brief => cases hresult
  | parting id result' =>
    cases hresult
    have hid : id ∈ own ∨ b.nextId ≤ id := .inl (hown id (List.mem_singleton.mpr rfl))
    have hleave : Ensures (Spared own b dead) (collect id "shutdown" .null ending >>= fun _ => leave result)
        (Closes own b dead result) :=
      .step (spared_collect hid _ _ ending) (fun _ => closes_leave result) fun cause _ h => h.closes_failed cause result
    refine .bind (ensures_attempt hleave) (fun r => ?_) fun _ _ ⟨_, h, _⟩ => by cases h
    cases r with
    | ok standing =>
      refine .pure fun w ⟨_, he, hw⟩ => ?_
      cases he
      exact hw
    | error cause =>
      refine .ite (fun _ => ?_) fun _ => .throw fun w ⟨_, _, hw⟩ => hw.spared.closes_failed cause result
      exact (closes_terminate result).imp (fun w ⟨_, _, hw⟩ => hw.spared) fun _ _ h => h
  | leaving result' =>
    cases hresult
    exact closes_terminate result
  | terminating result' =>
    cases hresult
    cases ending with
    | late => exact closes_kill result
    | met | failed cause => exact closes_close result
  | closing result' =>
    cases hresult
    exact closes_clear result

theorem awaits_greeted (label : String) (brief : Bool) :
    Ensures (Spared own b dead) (greeted label brief) (Awaits own b dead) := by
  refine .ite (fun _ => ?_) fun _ => .pure fun w hw => hw.awaits_ended fun _ => by simp
  refine .step (.get fun w hw => hw) (fun w => ?_) fun cause _ h => h.awaits_ended fun _ => by simp
  exact (closes_stop _).imp (fun _ h => h) fun _ _ h => h.toAwaits

theorem awaits_post (method params timeout : Json) (plan : Nat → Plan) :
    Ensures (Spared own b dead) (do
      let posted ← post method params timeout
      return .waiting ⟨posted.2, plan posted.1⟩) (Awaits own b dead) := by
  refine .bind (spared_post _ _ _) (fun posted => ?_) fun cause w h => h.1.awaits_ended fun _ => by simp
  refine .pure fun w ⟨hw, hposted⟩ => ⟨hw, fun s hs i hi => ?_⟩
  cases hs
  obtain ⟨hpending, hids⟩ := hposted posted rfl
  rw [Suspended.ids, hids, List.mem_singleton] at hi
  exact hi ▸ hpending

theorem awaits_ask (method params timeout : Json) :
    Ensures (Spared own b dead) (ask method params timeout) (Awaits own b dead) :=
  awaits_post method params timeout fun id => .request id method params

theorem spared_spawn : Ensures (Spared own b False) spawn fun _ => Spared own b False := by
  intro w h
  have hbooks := Keeps.spawn w
  simp only [spawn, run_bind, run_get, run_lift] at hbooks ⊢
  cases hentries : w.line.entries with
  | error cause => exact h
  | ok entries =>
    simp only [hentries] at hbooks ⊢
    generalize w.host.spawn w.line.command w.line.workdir _ = out at hbooks ⊢
    obtain ⟨_ | p, host⟩ := out
    · exact h.of_eq hbooks rfl rfl
    · have hbelow := h.below
      rw [← hbooks] at hbelow
      exact ⟨hbooks ▸ h.spares, hbelow, fun hdead => (by rcases hdead with h | h <;> cases h), False.elim⟩

theorem awaits_start (options timeout : Json) (brief : Bool) :
    Ensures (Spared own b False) (start options timeout brief) (Awaits own b False) := by
  refine .step (.get fun w hw => hw) (fun w => ?_) fun cause _ h => h.awaits_ended fun _ => by simp
  refine .ite (fun _ => awaits_greeted _ brief) fun _ => ?_
  refine .step spared_spawn (fun _ => ?_) fun cause _ h => h.awaits_ended fun _ => by simp
  refine .step (.get fun w hw => hw) (fun w => ?_) fun cause _ h => h.awaits_ended fun _ => by simp
  exact awaits_post _ _ _ fun id => .greeting id (greetingParams w options) brief

/-- Whatever a call goes on with, only the answer that it waited for is not spared. -/
theorem awaits_conclude {plan : Plan} (hown : ∀ i ∈ plan.ids, i ∈ own) (ending : Ending) :
    Ensures (Spared own b dead) (conclude ending plan) (Awaits own b dead) := by
  cases hresult : plan.result? with
  | some result => exact (closes_conclude result hresult hown ending).imp (fun _ h => h) fun _ _ h => h.toAwaits
  | none =>
    cases plan with
    | request id method params =>
      have hid : id ∈ own ∨ b.nextId ≤ id := .inl (hown id (List.mem_singleton.mpr rfl))
      refine .step (spared_collect hid method params ending) (fun v => ?_) fun cause _ h => h.awaits_ended fun _ => by simp
      exact .pure fun w hw => hw.awaits_ended fun _ => by simp
    | greeting id params brief =>
      have hid : id ∈ own ∨ b.nextId ≤ id := .inl (hown id (List.mem_singleton.mpr rfl))
      refine .step (spared_collect hid _ params ending) (fun answer => ?_) fun cause _ h => h.awaits_ended fun _ => by simp
      refine .step (spared_learn answer) (fun label => ?_) fun cause _ h => h.awaits_ended fun _ => by simp
      exact awaits_greeted label brief
    | _ => cases hresult

end Calls

end Line
end CoqConsole
