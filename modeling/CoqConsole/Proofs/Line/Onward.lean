import CoqConsole.Proofs.Line.Traffic

/-!
# How far the operations of a line reach

* `Wired.Onward` : the processes go on, and the line stays with the same one; messages and requests do no more;
* `Wired.Ahead` : the processes go on, and what is read is read on; so do all operations;
* `Wired.Further` : and a line whose process the host has numbered has none but such;
* `Line.Proceeds` : numbers go up, and answers are kept under their own; `Further` has that, too;
* `eq_of_listen` : what listening to an error stream changes.
-/

namespace CoqConsole

/-- Answers that are not the server's tell that it was lost or stopped. -/
def Line.Truthful (l l' : Line) : Prop :=
  ∀ i cause, (i, .error cause) ∈ l'.settled → (i, .error cause) ∈ l.settled ∨ cause = .lostConnection ∨ cause = .stopped

namespace Line.Truthful

variable {l l' l'' : Line}

theorem of_subset (h : l'.settled ⊆ l.settled) : l.Truthful l' := fun _ _ hmem => .inl (h hmem)

theorem trans (h : l.Truthful l') (h' : l'.Truthful l'') : l.Truthful l'' := fun i cause hmem =>
  (h' i cause hmem).elim (h i cause) .inr

end Line.Truthful

/-- Numbers go up, and each answer that is kept was kept before or names the number under which it is kept. -/
structure Line.Proceeds (l l' : Line) : Prop where
  nextId_le : l.nextId ≤ l'.nextId
  answers : ∀ i message, (i, .ok message) ∈ l'.settled → (i, .ok message) ∈ l.settled ∨ message.IsAnswer (some i)

namespace Line.Proceeds

variable {l l' l'' : Line}

theorem of_subset (hnext : l.nextId ≤ l'.nextId) (h : l'.settled ⊆ l.settled) : l.Proceeds l' :=
  ⟨hnext, fun _ _ hmem => .inl (h hmem)⟩

theorem refl (l : Line) : l.Proceeds l := of_subset (Nat.le_refl _) (List.Subset.refl _)

theorem trans (h : l.Proceeds l') (h' : l'.Proceeds l'') : l.Proceeds l'' where
  nextId_le := Nat.le_trans h.nextId_le h'.nextId_le
  answers i message hmem := (h'.answers i message hmem).elim (h.answers i message) .inr

/-- So it is where only failures are added. -/
theorem of_failures {cause : Failure} (hnext : l'.nextId = l.nextId)
    (h : ∀ entry ∈ l'.settled, entry ∈ l.settled ∨ entry.2 = .error cause) : l.Proceeds l' where
  nextId_le := Nat.le_of_eq hnext.symm
  answers i message hmem := (h _ hmem).elim .inl fun heq => by cases heq

end Line.Proceeds

namespace Wired

/-- The processes go on, and the line reads and hears the same one. -/
structure Onward (w w' : Wired) : Prop where
  grows : w.host.Grows w'.host
  count : w'.host.processes.length = w.host.processes.length
  process : w'.line.process = w.line.process
  reading : w'.line.reading = w.line.reading
  closing : w'.line.closing = w.line.closing
  listening : w'.line.listening = w.line.listening
  truthful : w.line.Truthful w'.line
  proceeds : w.line.Proceeds w'.line

namespace Onward

variable {w w' w'' : Wired}

theorem refl (w : Wired) : w.Onward w :=
  ⟨.refl _, rfl, rfl, rfl, rfl, rfl, .of_subset (List.Subset.refl _), .refl _⟩

theorem trans (h : w.Onward w') (h' : w'.Onward w'') : w.Onward w'' where
  grows := h.grows.trans h'.grows
  count := h'.count.trans h.count
  process := h'.process.trans h.process
  reading := h'.reading.trans h.reading
  closing := h'.closing.trans h.closing
  listening := h'.listening.trans h.listening
  truthful := h.truthful.trans h'.truthful
  proceeds := h.proceeds.trans h'.proceeds

end Onward

/-- The processes go on, and what is read is read on. -/
structure Ahead (w w' : Wired) : Prop where
  grows : w.host.Grows w'.host
  reading : w.line.reading = true → w'.line.reading = true

namespace Ahead

variable {w w' w'' : Wired}

theorem refl (w : Wired) : w.Ahead w := ⟨.refl _, fun h => h⟩

theorem trans (h : w.Ahead w') (h' : w'.Ahead w'') : w.Ahead w'' :=
  ⟨h.grows.trans h'.grows, fun hreading => h'.reading (h.reading hreading)⟩

end Ahead

theorem process?_consumed (w : Wired) (p : Nat) (rest : List UInt8) (n : Nat) :
    (w.consumed p rest).host.process? n =
      (w.host.process? n).map fun q => if p = n then { q with output := rest } else q := by
  show (w.host.processes.modify p _)[n]? = _
  rw [List.getElem?_modify]
  rfl

theorem isAlive_consumed (w : Wired) (p : Nat) (rest : List UInt8) (n : Nat) :
    (w.consumed p rest).host.isAlive n = w.host.isAlive n := by
  unfold Host.isAlive
  rw [process?_consumed, Option.map_map]
  congr 2
  funext q
  rw [Function.comp_apply]
  split <;> rfl

/-- A line that listens to an error stream may cease to listen to it, and that is all. -/
theorem eq_of_listen {w w' : Wired} {p : Nat} (h : w.listen p = some w') :
    ∃ host listening, w' = ⟨host, { w.line with listening }⟩ ∧ w.host.Grows host ∧ host.wire = w.host.wire ∧
      host.processes.length = w.host.processes.length ∧ listening ⊆ w.line.listening := by
  have hdeaf : w.line.listening.erase p ⊆ w.line.listening := List.erase_subset
  unfold listen at h
  extract_lets line deaf heard go at h
  have hgo (q : Server) (hq : go q = some w') :
      ∃ host listening, w' = ⟨host, { w.line with listening }⟩ ∧ w.host.Grows host ∧ host.wire = w.host.wire ∧
        host.processes.length = w.host.processes.length ∧ listening ⊆ w.line.listening := by
    unfold go at hq
    split at hq
    · rw [← Option.some.inj hq]
      exact ⟨_, _, rfl, .refl _, rfl, rfl, hdeaf⟩
    · split at hq
      · cases hq
      · rw [← Option.some.inj hq]
        exact ⟨_, _, rfl, .refl _, rfl, rfl, hdeaf⟩
      · rw [← Option.some.inj hq]
        exact ⟨_, _, rfl, .refl _, rfl, rfl, hdeaf⟩
      · next octets rest _ =>
        have hgrows : w.host.Grows (w.host.edit p fun q => { q with errors := rest }) :=
          Host.Grows.edit _ _ fun q => .of_eq rfl rfl
        rw [← Option.some.inj hq]
        simp only [heard]
        split
        · exact ⟨_, w.line.listening, rfl, hgrows.trans (.record _ _), rfl, List.length_modify _ _ _, fun _ h => h⟩
        · exact ⟨_, _, rfl, hgrows.trans (.record _ _), rfl, List.length_modify _ _ _, hdeaf⟩
  split at h
  · obtain ⟨q, -, hq⟩ := Option.bind_eq_some_iff.mp h
    exact hgo q hq
  · cases h

end Wired

namespace Line

/-- All that is pending fails with one of the two failures that tell so. -/
theorem truthful_failPending {cause : Failure} (hcause : cause = .lostConnection ∨ cause = .stopped) (l : Line) :
    l.Truthful (l.failPending cause) := by
  obtain ⟨settled, hfail, hnew⟩ := eq_of_failPending cause l
  rw [hfail]
  intro i cause' hmem
  rcases hnew _ hmem with hmem | herror
  · exact .inl hmem
  · cases herror
    exact .inr hcause

end Line

namespace Wired

theorem Onward.traffic (w₀ : Wired) : Line.Traffic w₀.Onward where
  deliver {w p message} h _ _ :=
    h.trans ⟨.deliver w.host p message, List.length_modify _ _ _, rfl, rfl, rfl, rfl, .of_subset (List.Subset.refl _), .refl _⟩
  edit h hlearns :=
    h.trans ⟨.refl _, rfl, hlearns.process, hlearns.reading, hlearns.closing, hlearns.listening,
      .of_subset hlearns.settled, .of_subset hlearns.nextId_le hlearns.settled⟩

theorem Ahead.service (w₀ : Wired) : Line.Service w₀.Ahead where
  deliver {w p message} h _ _ := h.trans ⟨.deliver w.host p message, fun h => h⟩
  edit h hlearns := h.trans ⟨.refl _, fun h => hlearns.reading.trans h⟩
  host h hgrows _ := h.trans ⟨hgrows, fun h => h⟩
  spawned h hgrows _ _ := h.trans ⟨hgrows, fun _ => rfl⟩
  released h _ _ := h.trans ⟨.refl _, fun h => h⟩

/-! ## Numbers of processes -/

/-- The line has no process, or one of the host's. -/
def Numbered (w : Wired) : Prop := ∀ p, w.line.process = some p → p < w.host.processes.length

theorem Numbered.of_grows {w w' : Wired} (h : w.Numbered) (hgrows : w.host.Grows w'.host)
    (hprocess : ∀ p, w'.line.process = some p → w.line.process = some p) : w'.Numbered := by
  intro p hp
  obtain ⟨q', hq', -⟩ := hgrows.processes p _ (List.getElem?_eq_getElem (h p (hprocess p hp)))
  exact (List.getElem?_eq_some_iff.mp hq').1

theorem Numbered.service : Line.Service Numbered where
  deliver {w p message} h _ _ := h.of_grows (.deliver w.host p message) fun _ hp => hp
  edit h hlearns := h.of_grows (.refl _) fun _ hp => hlearns.process.symm.trans hp
  host h hgrows _ := h.of_grows hgrows fun _ hp => hp
  spawned _ _ _ hp _ hp' := Option.some.inj hp' ▸ hp
  released h hprocess _ := h.of_grows (.refl _) hprocess

/-- Numbers go up and answers are kept under their own, whatever a line does. -/
theorem proceeds_service (w₀ : Wired) : Line.Service fun w => w₀.line.Proceeds w.line where
  deliver h _ _ := h
  edit h hlearns := h.trans (.of_subset hlearns.nextId_le hlearns.settled)
  host h _ _ := h
  spawned h _ _ _ := h.trans (.of_subset (Nat.le_refl _) (List.Subset.refl _))
  released h _ hnew := h.trans (.of_failures rfl hnew)

/-- The processes go on, what is read is read on, a process that is new has a number, and answers come under their own. -/
structure Further (w w' : Wired) : Prop extends w.Ahead w' where
  numbered : w.Numbered → w'.Numbered
  proceeds : w.line.Proceeds w'.line

theorem Further.refl (w : Wired) : w.Further w := ⟨.refl w, fun h => h, .refl _⟩

theorem Further.service (w₀ : Wired) : Line.Service w₀.Further where
  deliver h hrunning hmethod :=
    ⟨(Ahead.service w₀).deliver h.toAhead hrunning hmethod,
      fun hw => Numbered.service.deliver (h.numbered hw) hrunning hmethod, h.proceeds⟩
  edit h hlearns :=
    ⟨(Ahead.service w₀).edit h.toAhead hlearns, fun hw => Numbered.service.edit (h.numbered hw) hlearns,
      (proceeds_service w₀).edit h.proceeds hlearns⟩
  host h hgrows hwire :=
    ⟨(Ahead.service w₀).host h.toAhead hgrows hwire, fun hw => Numbered.service.host (h.numbered hw) hgrows hwire,
      h.proceeds⟩
  spawned h hgrows hwire hp :=
    ⟨(Ahead.service w₀).spawned h.toAhead hgrows hwire hp,
      fun hw => Numbered.service.spawned (h.numbered hw) hgrows hwire hp,
      (proceeds_service w₀).spawned h.proceeds hgrows hwire hp⟩
  released h hprocess hnew :=
    ⟨(Ahead.service w₀).released h.toAhead hprocess hnew, fun hw => Numbered.service.released (h.numbered hw) hprocess hnew,
      (proceeds_service w₀).released h.proceeds hprocess hnew⟩

end Wired
end CoqConsole
