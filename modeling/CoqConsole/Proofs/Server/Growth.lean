import CoqConsole.Server.Host

/-!
# Processes go on

A process that has ended stays ended, and what it has written stays in front of what it writes later.

* `Server.Grows`, `grows_perform`, `grows_take`, `grows_finish`, `grows_wake` : whatever a process does, and whatever is
  done to it, except that its output is read;
* `Host.Grows` : the same for all processes of a host, which stays in its directory, with one lemma for each thing that
  the host does.
-/

namespace CoqConsole

namespace Server

/-- From one state of a process to a later one, with nothing read in between. -/
structure Grows (q q' : Server) : Prop where
  ended : ∀ code, q.returncode = some code → q'.returncode = some code
  output : ∃ more, q'.output = q.output ++ more

theorem Grows.refl (q : Server) : q.Grows q := ⟨fun _ h => h, [], (List.append_nil _).symm⟩

theorem Grows.trans {q q' q'' : Server} (h : q.Grows q') (h' : q'.Grows q'') : q.Grows q'' := by
  obtain ⟨more, hmore⟩ := h.output
  obtain ⟨more', hmore'⟩ := h'.output
  refine ⟨fun code hcode => h'.ended code (h.ended code hcode), more ++ more', ?_⟩
  rw [hmore', hmore, List.append_assoc]

/-- Only its return code and its output count. -/
theorem Grows.of_eq {q q' : Server} (hcode : q'.returncode = q.returncode) (houtput : q'.output = q.output) :
    q.Grows q' := by
  refine ⟨fun code h => hcode.trans h, [], ?_⟩
  rw [houtput, List.append_nil]

/-- The same from a state that differs in nothing that counts. -/
theorem Grows.of_same {p q q' : Server} (h : q.Grows q') (hcode : q.returncode = p.returncode)
    (houtput : q.output = p.output) : p.Grows q' := Grows.trans (.of_eq hcode houtput) h

theorem Grows.not_alive {q q' : Server} (h : q.Grows q') (hq : q.isAlive = false) : q'.isAlive = false := by
  unfold isAlive at hq ⊢
  obtain ⟨code, hcode⟩ := Option.isSome_iff_exists.mp (Option.isNone_eq_false_iff.mp hq)
  rw [h.ended code hcode]
  rfl

theorem grows_finish (q : Server) (code : Int) : q.Grows (q.finish code) := by
  unfold finish
  split
  · next halive =>
    have hnone : q.returncode = none := Option.isNone_iff_eq_none.mp halive
    refine ⟨fun code' h => ?_, [], (List.append_nil _).symm⟩
    rw [hnone] at h
    cases h
  · exact .refl q

theorem not_alive_finish (q : Server) (code : Int) : (q.finish code).isAlive = false := by
  unfold finish
  split
  · rfl
  · next h => exact Bool.not_eq_true _ |>.mp h

/-- Taking input or not leaves the return code and the output. -/
theorem turn_eq (q : Server) (state : Intake) :
    (q.turn state).returncode = q.returncode ∧ (q.turn state).output = q.output := by
  unfold turn
  split <;> exact ⟨rfl, rfl⟩

theorem grows_perform (now : Int) (acts : List Act) (q : Server) : q.Grows (q.perform now acts) := by
  induction acts generalizing q with
  | nil => exact .refl q
  | cons act acts ih =>
    unfold perform
    split
    · cases act with
      | emit octets =>
        refine Grows.trans ?_ (ih _)
        split
        · exact ⟨fun _ h => h, octets, rfl⟩
        · exact .refl q
      | complain octets =>
        refine Grows.trans ?_ (ih _)
        split
        · exact .of_eq rfl rfl
        · exact .refl q
      | closeOutput => exact (ih { q with outputOpen := false }).of_same rfl rfl
      | exit code => exact grows_finish q code
      | intake state => exact (ih (q.turn state)).of_same (turn_eq q state).1 (turn_eq q state).2
      | pause duration => exact .of_eq rfl rfl
    · exact .refl q

theorem grows_take (now : Int) (message : Json) (q : Server) : q.Grows (q.take now message) := by
  unfold take
  split
  · exact (grows_perform now _ { q with inbox := q.inbox ++ [message] }).of_same rfl rfl
  · exact .refl q

theorem grows_wake (now : Int) (q : Server) : q.Grows (q.wake now) := by
  unfold wake
  split
  · exact .refl q
  · exact (grows_perform now _ _).of_same rfl rfl

end Server

namespace Host

/-- From one state of a host to a later one, with nothing read in between. -/
structure Grows (h h' : Host) : Prop where
  processes : ∀ p q, h.process? p = some q → ∃ q', h'.process? p = some q' ∧ q.Grows q'
  cwd : h'.cwd = h.cwd

variable {h h' h'' : Host}

namespace Grows

theorem refl (h : Host) : h.Grows h := ⟨fun _ q hq => ⟨q, hq, .refl q⟩, rfl⟩

theorem trans (hgrows : h.Grows h') (hgrows' : h'.Grows h'') : h.Grows h'' := by
  refine ⟨fun p q hq => ?_, hgrows'.cwd.trans hgrows.cwd⟩
  obtain ⟨q', hq', hlater⟩ := hgrows.processes p q hq
  obtain ⟨q'', hq'', hlater'⟩ := hgrows'.processes p q' hq'
  exact ⟨q'', hq'', hlater.trans hlater'⟩

/-- Only the processes and the directory count. -/
theorem of_eq (hprocesses : h'.processes = h.processes) (hcwd : h'.cwd = h.cwd) : h.Grows h' := by
  refine ⟨fun p q hq => ⟨q, ?_, .refl q⟩, hcwd⟩
  rw [process?, hprocesses]
  exact hq

theorem edit (h : Host) (p : Nat) {f : Server → Server} (hf : ∀ q : Server, q.Grows (f q)) : h.Grows (h.edit p f) := by
  refine ⟨fun n q hq => ?_, rfl⟩
  have hn : (h.edit p f).process? n = some (if p = n then f q else q) := by
    show (h.processes.modify p f)[n]? = _
    rw [List.getElem?_modify, show h.processes[n]? = some q from hq]
    rfl
  refine ⟨_, hn, ?_⟩
  split
  · exact hf q
  · exact .refl q

theorem deliver (h : Host) (p : Nat) (message : Json) : h.Grows (h.deliver p message) :=
  have hwire : h.Grows { h with wire := h.wire ++ [(p, message)] } := of_eq rfl rfl
  hwire.trans (edit _ p (Server.grows_take h.now message))

theorem command (h : Host) (p : Nat) (acts : List Act) : h.Grows (h.command p acts) :=
  edit h p (Server.grows_perform h.now acts)

theorem wake (h : Host) (p : Nat) : h.Grows (h.wake p) := edit h p (Server.grows_wake h.now)

theorem terminate (h : Host) (p : Nat) : h.Grows (h.terminate p) := by
  have hnote : h.Grows (h.note p .terminated) := of_eq rfl rfl
  refine hnote.trans (edit _ p fun q => ?_)
  split
  · exact Server.grows_finish q _
  · exact .refl q

theorem kill (h : Host) (p : Nat) : h.Grows (h.kill p) := by
  have hnote : h.Grows (h.note p .killed) := of_eq rfl rfl
  refine hnote.trans (edit _ p fun q => ?_)
  split
  · exact .refl q
  · exact Server.grows_finish q _

theorem record (h : Host) (r : Record) : h.Grows (h.record r) := .of_eq rfl rfl

theorem spawn (h : Host) (command : List String) (cwd : String) (environment : List (String × Json)) :
    h.Grows (h.spawn command cwd environment).2 := by
  unfold Host.spawn
  simp only
  split
  all_goals
    refine ⟨fun p q hq => ⟨q, ?_, .refl q⟩, rfl⟩
    exact (List.getElem?_append_left (List.getElem?_eq_some_iff.mp hq).1).trans hq

end Grows

/-- What runs ran before, if what had ended stays so. -/
theorem alive_of_ended {p : Nat} (hended : h.isAlive p = false → h'.isAlive p = false) (halive : h'.isAlive p = true) :
    h.isAlive p = true := by
  rw [← Bool.not_eq_false]
  intro hdead
  rw [hended hdead] at halive
  cases halive

/-- Where no process was spawned, none runs that did not run before. -/
theorem Grows.not_alive (hgrows : h.Grows h') (hcount : h'.processes.length = h.processes.length) {p : Nat}
    (hdead : h.isAlive p = false) : h'.isAlive p = false := by
  cases hq : h.process? p with
  | none =>
    have hlt : ¬ p < h'.processes.length := by
      rw [hcount]
      exact Nat.not_lt.mpr (List.getElem?_eq_none_iff.mp hq)
    rw [isAlive, process?, List.getElem?_eq_none (Nat.not_lt.mp hlt)]
    rfl
  | some q =>
    obtain ⟨q', hq', hlater⟩ := hgrows.processes p q hq
    rw [isAlive, hq, Option.map_some, Option.getD_some] at hdead
    rw [isAlive, hq', Option.map_some, Option.getD_some]
    exact hlater.not_alive hdead

/-- Where one was spawned, only that one runs that did not run before. -/
theorem not_alive_spawn (h : Host) (command : List String) (cwd : String) (environment : List (String × Json)) (p : Nat)
    (hp : (h.spawn command cwd environment).1 ≠ some p) (hdead : h.isAlive p = false) :
    (h.spawn command cwd environment).2.isAlive p = false := by
  have happend (q : Server) (hq : p = h.processes.length → q.isAlive = false) :
      (((h.processes ++ [q])[p]?).map Server.isAlive).getD false = false := by
    by_cases hlt : p < h.processes.length
    · rw [List.getElem?_append_left hlt]
      exact hdead
    · rw [List.getElem?_append_right (Nat.not_lt.mp hlt), List.getElem?_singleton]
      split
      · exact hq (by omega)
      · rfl
  unfold spawn at hp ⊢
  simp only at hp ⊢
  split
  · next hexists =>
    rw [if_pos hexists] at hp
    exact happend _ fun heq => absurd (congrArg some heq.symm) hp
  · exact happend _ fun _ => rfl

/-- A process has the next number, whether it can run or not. -/
theorem count_spawn (h : Host) (command : List String) (cwd : String) (environment : List (String × Json)) :
    (h.spawn command cwd environment).2.processes.length = h.processes.length + 1 ∧
      ∀ p, (h.spawn command cwd environment).1 = some p → p = h.processes.length := by
  unfold spawn
  simp only
  split
  · exact ⟨List.length_append, fun p hp => (Option.some.inj hp).symm⟩
  · exact ⟨List.length_append, fun p hp => by cases hp⟩

/-! ## Signals -/

theorem isAlive_edit (h : Host) (p n : Nat) (f : Server → Server) :
    (h.edit p f).isAlive n = if p = n then ((h.process? n).map fun q => (f q).isAlive).getD false else h.isAlive n := by
  unfold isAlive process? edit
  rw [List.getElem?_modify]
  split <;> simp [Option.map_map, Function.comp_def]

/-- A process has ended once it was killed, unless that is refused. -/
theorem isAlive_kill (h : Host) (p : Nat) : (h.kill p).isAlive p = h.refusesKill p := by
  rw [kill, isAlive_edit, if_pos rfl, refusesKill, show (h.note p .killed).process? p = h.process? p from rfl]
  cases h.process? p with
  | none => rfl
  | some q =>
    simp only [Option.map_some, Option.getD_some]
    split
    · next hwithstands => rw [hwithstands, Bool.and_true]
    · next hwithstands => rw [Server.not_alive_finish, Bool.not_eq_true _ |>.mp hwithstands, Bool.and_false]

theorem not_alive_kill {h : Host} {p : Nat} (hkill : h.refusesKill p = false) : (h.kill p).isAlive p = false :=
  (isAlive_kill h p).trans hkill

end Host
end CoqConsole
