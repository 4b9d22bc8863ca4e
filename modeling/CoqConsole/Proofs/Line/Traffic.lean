import CoqConsole.Proofs.Line.Dispatching
import CoqConsole.Proofs.Server.Growth

/-!
# What the operations of a line change

However long an operation is, it does few things: it writes to the process, it makes entries and learns of the server,
and, where a server is started or stopped, it changes hosts and processes. What each of these keeps, all operations keep.

* `Line.Learns` : entries, and what is learned of the server, beside the same process;
* `Line.Traffic` : the property is kept by messages and entries; so by `Traffic.post`, `Traffic.collect`, `Traffic.learn`;
* `Line.Service` : and by starts and ends; so by `Service.start`, `Service.stop`, `Service.resume`.
-/

namespace CoqConsole.Line

/-! ## Answers -/

/-- An answer changes nothing but the answers that are kept. -/
theorem eq_of_settle (id : Nat) (answer : Except Failure Json) (l : Line) :
    ∃ settled, l.settle id answer = { l with settled } ∧ ∀ entry ∈ settled, entry ∈ l.settled ∨ entry = (id, answer) := by
  unfold settle
  split
  · refine ⟨_, rfl, fun entry hmem => ?_⟩
    exact (List.mem_append.mp hmem).imp_right List.mem_singleton.mp
  · exact ⟨_, rfl, fun entry hmem => .inl hmem⟩

theorem eq_of_failPending (cause : Failure) (l : Line) :
    ∃ settled, l.failPending cause = { l with pending := [], settled } ∧
      ∀ entry ∈ settled, entry ∈ l.settled ∨ entry.2 = .error cause := by
  have hfold (ids : List Nat) (l : Line) :
      ∃ settled, ids.foldl (fun l id => l.settle id (.error cause)) l = { l with settled } ∧
        ∀ entry ∈ settled, entry ∈ l.settled ∨ entry.2 = .error cause := by
    induction ids generalizing l with
    | nil => exact ⟨_, rfl, fun entry hmem => .inl hmem⟩
    | cons id ids ih =>
      obtain ⟨settled, hsettle, hnew⟩ := eq_of_settle id (.error cause) l
      obtain ⟨settled', hfold, hnew'⟩ := ih { l with settled }
      refine ⟨settled', ?_, fun entry hmem => ?_⟩
      · rw [List.foldl_cons, hsettle, hfold]
      · rcases hnew' entry hmem with hmem | herror
        · rcases hnew entry hmem with hmem | rfl
          · exact .inl hmem
          · exact .inr rfl
        · exact .inr herror
  obtain ⟨settled, hsettled, hnew⟩ := hfold l.pending l
  refine ⟨settled, ?_, hnew⟩
  rw [failPending, hsettled]

/-! ## Messages and requests -/

/-- Entries were made and answers dropped, or the line learned of the server. -/
structure Learns (l l' : Line) : Prop where
  process : l'.process = l.process
  reading : l'.reading = l.reading
  closing : l'.closing = l.closing
  listening : l'.listening = l.listening
  settled : l'.settled ⊆ l.settled
  nextId_le : l.nextId ≤ l'.nextId
  encoding : l'.encoding = l.encoding ∨ ∃ e, Encoding.ofJson l'.encoding = .ok e

theorem Learns.of_settled {l l' : Line} (hprocess : l'.process = l.process) (hreading : l'.reading = l.reading)
    (hclosing : l'.closing = l.closing) (hlistening : l'.listening = l.listening) (hencoding : l'.encoding = l.encoding)
    (hsettled : l'.settled ⊆ l.settled) (hnext : l.nextId ≤ l'.nextId) : l.Learns l' :=
  ⟨hprocess, hreading, hclosing, hlistening, hsettled, hnext, .inl hencoding⟩

/-- What messages and requests keep. Whatever a line writes of its own accord names a method. -/
structure Traffic (P : Wired → Prop) : Prop where
  deliver : ∀ {w : Wired} {p : Nat} {message : Json}, P w → w.running? = some p →
    (message.get? "method").isSome = true → P { w with host := w.host.deliver p message }
  edit : ∀ {w : Wired} {line : Line}, P w → w.line.Learns line → P { w with line }

namespace Traffic

variable {P : Wired → Prop} (t : Traffic P)
include t

theorem write {message : Json} (hmethod : (message.get? "method").isSome = true) :
    Ensures P (Line.write message) fun _ => P := by
  intro w hw
  rw [run_write]
  cases hp : w.running? with
  | none => exact hw
  | some p => exact t.deliver hw hp hmethod

theorem notify (method params : Json) : Ensures P (Line.notify method params) fun _ => P := t.write rfl

theorem enter {f : Line → Line} (hf : ∀ l : Line, l.Learns (f l)) : Ensures P (Line.edit f) fun _ => P :=
  .modify fun w hw => t.edit hw (hf w.line)

theorem forget (id : Nat) : Ensures P (Line.forget id) fun _ => P :=
  t.enter fun _ => .of_settled rfl rfl rfl rfl rfl (List.filter_subset_self _) (Nat.le_refl _)

theorem transmit (id : Nat) (method params timeout : Json) :
    Ensures P (Line.transmit id method params timeout) fun _ => P := by
  refine .step (t.write rfl) (fun _ => ?_) fun _ _ h => h
  refine .step (.get fun _ hw => hw) (fun w => ?_) fun _ _ h => h
  extract_lets hold
  have hhold (u : Unit) : Ensures P (hold u) fun _ => P := by
    unfold hold
    cases w.stalled? with
    | some held => exact .pure fun _ hw => hw
    | none => exact .step (.lift fun _ hw => hw) (fun _ => .pure fun _ hw => hw) fun _ _ h => h
  exact .ite (fun _ => .step (.throw fun _ hw => hw) hhold fun _ _ h => h) fun _ => hhold ()

omit t in
theorem attempt {α : Type} {op : Op α} (h : Ensures P op fun _ => P) : Ensures P (Line.attempt op) fun _ => P := by
  intro w hw
  rw [run_attempt]
  exact h w hw

theorem post (method params timeout : Json) : Ensures P (Line.post method params timeout) fun _ => P := by
  intro w hw
  suffices h : Ensures (· = w) (Line.post method params timeout) fun _ => P from h w rfl
  have hentered : P { w with line := { w.line with
      nextId := w.line.nextId + 1, pending := w.line.pending ++ [w.line.nextId] } } :=
    t.edit hw (.of_settled rfl rfl rfl rfl rfl (List.Subset.refl _) (Nat.le_succ _))
  refine ensures_ok (run_get w) (ensures_ok rfl ?_)
  have htransmit (id : Nat) := attempt (t.transmit id method params timeout)
  refine .bind ((htransmit _).imp (fun _ hsame => hsame ▸ hentered) fun _ _ h => h) (fun r => ?_) fun _ _ h => h
  cases r with
  | ok wait => exact .pure fun _ hw => hw
  | error cause => exact .step (t.forget _) (fun _ => .throw fun _ hw => hw) fun _ _ h => h

theorem cancel (id : Json) : Ensures P (Line.cancel id) fun _ => P := by
  have htell : Ensures P (do
      if (← get).isRunning then Line.notify "$/cancelRequest" (.object [("id", id)]) : Op Unit)
      fun _ => P :=
    .step (.get fun _ hw => hw) (fun _ => .ite (fun _ => t.notify _ _) fun _ => .pure fun _ hw => hw) fun _ _ h => h
  refine .step (.get fun _ hw => hw) (fun _ => ?_) fun _ _ h => h
  refine .ite (fun _ => htell) fun _ => ?_
  refine .step (.lift fun _ hw => hw) (fun key => ?_) fun _ _ h => h
  cases key with
  | none => exact htell
  | some n =>
    refine .step (t.enter fun _ => ?_) (fun _ => htell) fun _ _ h => h
    exact .of_settled rfl rfl rfl rfl rfl (List.Subset.refl _) (Nat.le_refl _)

theorem collect (id : Nat) (method params : Json) (ending : Ending) :
    Ensures P (Line.collect id method params ending) fun _ => P := by
  cases ending with
  | late =>
    refine .step (t.cancel _) (fun _ => ?_) fun _ _ h => h
    exact .step (t.forget _) (fun _ => .throw fun _ hw => hw) fun _ _ h => h
  | failed cause => exact .step (t.forget _) (fun _ => .throw fun _ hw => hw) fun _ _ h => h
  | met =>
    refine .step (.get fun _ hw => hw) (fun w => ?_) fun _ _ h => h
    refine .step (t.forget _) (fun _ => ?_) fun _ _ h => h
    cases Keyed.get? id w.line.settled with
    | none => exact .throw fun _ hw => hw
    | some answer =>
      cases answer with
      | ok message => exact .lift fun _ hw => hw
      | error cause => exact .throw fun _ hw => hw

theorem ask (method params timeout : Json) : Ensures P (Line.ask method params timeout) fun _ => P :=
  .step (t.post _ _ _) (fun _ => .pure fun _ hw => hw) fun _ _ h => h

theorem learn (answer : Json) : Ensures P (Line.learn answer) fun _ => P := by
  unfold Line.learn
  extract_lets go
  have hgo (capabilities : Json) : Ensures P (go capabilities) fun _ => P := by
    refine .step (t.enter fun _ => ?_) (fun _ => ?_) fun _ _ h => h
    · exact .of_settled rfl rfl rfl rfl rfl (List.Subset.refl _) (Nat.le_refl _)
    refine .step (.lift fun _ hw => hw) (fun info => ?_) fun _ _ h => h
    refine .step (t.enter fun _ => ?_) (fun _ => ?_) fun _ _ h => h
    · exact .of_settled rfl rfl rfl rfl rfl (List.Subset.refl _) (Nat.le_refl _)
    refine .step (.lift fun _ hw => hw) (fun chosen => ?_) fun _ _ h => h
    extract_lets chosen encoding shown tell
    have htell (u : Unit) : Ensures P (tell u) fun _ => P := by
      refine .step (t.notify _ _) (fun _ => ?_) fun _ _ h => h
      refine .step (.lift fun _ hw => hw) (fun name => ?_) fun _ _ h => h
      refine .step (.lift fun _ hw => hw) (fun version => ?_) fun _ _ h => h
      refine .step (.get fun _ hw => hw) (fun w => ?_) fun _ _ h => h
      cases w.line.process with
      | none => exact .throw fun _ hw => hw
      | some p => exact .pure fun _ hw => hw
    cases hchosen : Encoding.ofJson encoding with
    | error cause => exact .step (.throw fun _ hw => hw) htell fun _ _ h => h
    | ok e =>
      refine .step (t.enter fun _ => ?_) htell fun _ _ h => h
      exact ⟨rfl, rfl, rfl, rfl, List.Subset.refl _, Nat.le_refl _, .inr ⟨e, hchosen⟩⟩
  refine .ite (fun _ => ?_) fun _ => ?_
  · exact .step (.lift fun _ hw => hw) hgo fun _ _ h => h
  · exact .step (.pure fun _ hw => hw) hgo fun _ _ h => h

theorem leave (result : Json) : Ensures P (Line.leave result) fun _ => P := by
  refine .step (t.notify _ _) (fun _ => ?_) fun _ _ h => h
  refine .step (.get fun _ hw => hw) (fun w => ?_) fun _ _ h => h
  cases w.line.process with
  | none => exact .throw fun _ hw => hw
  | some p => exact .pure fun _ hw => hw

end Traffic

/-! ## Starts and ends -/

/-- What starts and ends keep, too. -/
structure Service (P : Wired → Prop) : Prop extends Traffic P where
  host : ∀ {w : Wired} {host : Host}, P w → w.host.Grows host → host.wire = w.host.wire → P { w with host }
  spawned : ∀ {w : Wired} {host : Host} {p : Nat} {listening : List Nat}, P w → w.host.Grows host →
    host.wire = w.host.wire → p < host.processes.length →
      P ⟨host, { w.line with process := some p, reading := true, listening }⟩
  released : ∀ {w : Wired} {process : Option Nat} {closing : Bool} {pending : List Nat}
    {settled : List (Nat × Except Failure Json)}, P w → (∀ p, process = some p → w.line.process = some p) →
      (∀ entry ∈ settled, entry ∈ w.line.settled ∨ entry.2 = .error .stopped) →
        P { w with line := { w.line with process, closing, pending, settled } }

namespace Service

variable {P : Wired → Prop} (s : Service P)
include s

theorem editHost {f : Host → Host} (hf : ∀ h : Host, h.Grows (f h)) (hwire : ∀ h : Host, (f h).wire = h.wire) :
    Ensures P (Line.editHost f) fun _ => P :=
  .modify fun w hw => s.host hw (hf w.host) (hwire w.host)

theorem spawn : Ensures P Line.spawn fun _ => P := by
  intro w hw
  simp only [Line.spawn, run_bind, run_get, run_lift]
  cases w.line.entries with
  | error cause => exact hw
  | ok entries =>
    simp only
    generalize List.foldl _ w.host.environment entries = environment
    have hgrows := Host.Grows.spawn w.host w.line.command w.line.workdir environment
    have hwire := Host.wire_spawn w.host w.line.command w.line.workdir environment
    have hcount := Host.count_spawn w.host w.line.command w.line.workdir environment
    generalize w.host.spawn w.line.command w.line.workdir environment = out at hgrows hwire hcount
    obtain ⟨_ | p, host⟩ := out
    · exact s.host hw hgrows hwire
    · have hp : p < host.processes.length := by
        rw [hcount.1, hcount.2 p rfl]
        exact Nat.lt_succ_self _
      have hspawned : P ⟨host, { w.line with process := some p, reading := true, listening := w.line.listening ++ [p] }⟩ :=
        s.spawned hw hgrows hwire hp
      exact hspawned

theorem clear (result : Json) : Ensures P (Line.clear result) fun _ => P := by
  refine .step (.modify fun w hw => ?_) (fun _ => .pure fun _ hw => hw) fun _ _ h => h
  obtain ⟨settled, hfail, hnew⟩ := eq_of_failPending .stopped w.line
  simp only [hfail]
  exact s.released hw (fun _ hp => by cases hp) hnew

theorem close (result : Json) : Ensures P (Line.close result) fun _ => P := by
  refine .step (.get fun _ hw => hw) (fun w => ?_) fun _ _ h => h
  cases w.line.process with
  | none => exact s.clear result
  | some p =>
    refine .step (.modify fun w hw => s.released hw (fun _ hp => hp) fun _ hmem => .inl hmem) (fun _ => ?_) fun _ _ h => h
    exact .pure fun _ hw => hw

theorem terminate (result : Json) : Ensures P (Line.terminate result) fun _ => P := by
  refine .step (.get fun _ hw => hw) (fun w => ?_) fun _ _ h => h
  cases w.line.process with
  | none => exact s.close result
  | some p =>
    refine .ite (fun _ => ?_) fun _ => s.close result
    exact .step (s.editHost (fun h => .terminate h p) fun _ => rfl) (fun _ => .pure fun _ hw => hw) fun _ _ h => h

theorem stop (result : Json) : Ensures P (Line.stop result) fun _ => P := by
  refine .step (.get fun _ hw => hw) (fun w => ?_) fun _ _ h => h
  refine .ite (fun _ => ?_) fun _ => s.terminate result
  refine .step (Traffic.attempt (s.post _ _ _)) (fun r => ?_) fun _ _ h => h
  cases r with
  | ok r => exact .pure fun _ hw => hw
  | error cause => exact .ite (fun _ => s.terminate result) fun _ => .throw fun _ hw => hw

theorem greeted (label : String) (brief : Bool) : Ensures P (Line.greeted label brief) fun _ => P :=
  .ite (fun _ => .step (.get fun _ hw => hw) (fun _ => s.stop _) fun _ _ h => h) fun _ => .pure fun _ hw => hw

theorem start (options timeout : Json) (brief : Bool) :
    Ensures P (Line.start options timeout brief) fun _ => P := by
  refine .step (.get fun _ hw => hw) (fun w => ?_) fun _ _ h => h
  refine .ite (fun _ => s.greeted _ brief) fun _ => ?_
  refine .step s.spawn (fun _ => ?_) fun _ _ h => h
  refine .step (.get fun _ hw => hw) (fun w => ?_) fun _ _ h => h
  exact .step (s.post _ _ _) (fun _ => .pure fun _ hw => hw) fun _ _ h => h

theorem kill (result : Json) : Ensures P (Line.kill result) fun _ => P := by
  refine .step (.get fun _ hw => hw) (fun w => ?_) fun _ _ h => h
  cases w.line.process with
  | none => exact .throw fun _ hw => hw
  | some p =>
    refine .step (s.editHost (fun h => .kill h p) fun _ => rfl) (fun _ => ?_) fun _ _ h => h
    exact .ite (fun _ => .step (.throw fun _ hw => hw) (fun _ => s.close result) fun _ _ h => h) fun _ => s.close result

theorem conclude (ending : Ending) (plan : Plan) : Ensures P (Line.conclude ending plan) fun _ => P := by
  cases plan with
  | request id method params =>
    exact .step (s.collect _ _ _ _) (fun _ => .pure fun _ hw => hw) fun _ _ h => h
  | greeting id params brief =>
    refine .step (s.collect _ _ _ _) (fun answer => ?_) fun _ _ h => h
    exact .step (s.learn _) (fun label => s.greeted label brief) fun _ _ h => h
  | parting id result =>
    refine .step (Traffic.attempt ?_) (fun r => ?_) fun _ _ h => h
    · exact .step (s.collect _ _ _ _) (fun _ => s.leave _) fun _ _ h => h
    · cases r with
      | ok standing => exact .pure fun _ hw => hw
      | error cause => exact .ite (fun _ => s.terminate result) fun _ => .throw fun _ hw => hw
  | leaving result => exact s.terminate result
  | terminating result =>
    cases ending with
    | late => exact s.kill result
    | met | failed cause => exact s.close result
  | closing result => exact s.clear result

theorem resume (late : Bool) (call : Suspended) : Ensures P (Line.resume late call) fun _ => P := by
  intro w hw
  rcases resume_cases late call w with ⟨ending, -, heq⟩ | ⟨_, _, _, _, _, -, -, -, heq⟩
  · rw [heq]
    exact s.conclude ending call.plan w hw
  · rw [heq]
    exact hw

end Service
end CoqConsole.Line
