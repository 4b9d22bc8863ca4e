import CoqConsole.Line.Lifecycle
import CoqConsole.Proofs.Session.Board
import CoqConsole.Proofs.Session.Upkeep

/-!
# What edits and messages leave alone

The settings of a session, its panes and its notices are changed by few operations. All others concern buffers, what is
attached, and tickets, and send messages that bring no settings.

* `settingsMethods` : the methods of the messages that bring settings;
* `Desk.Aloof` : a property that has nothing to do with buffers and attachments, and that more tickets keep; so it is
  kept by `Aloof.adopt`, `Aloof.moveCursor`, `Aloof.begin`, `Aloof.hearProgress` and so on;
* `Desk.OnSettings` : a property that has to do with the settings alone; so it is kept by `OnSettings.finish`,
  `OnSettings.hear` and `OnSettings.shutdown` too.
-/

namespace CoqConsole

/-- The methods of the messages that bring settings: the greeting, and what tells of a change. -/
def settingsMethods : List String := [Line.greetingMethod, "workspace/didChangeConfiguration"]

theorem Direction.method_notMem (d : Direction) : d.method ∉ settingsMethods := by cases d <;> decide

namespace Desk

variable {L : Type} {carrier : Carrier L}

/-- The property has nothing to do with buffers and attachments. Messages that bring no settings keep it, and so do tickets
that are taken. -/
structure Aloof (carrier : Carrier L) (I : Desk L → Prop) : Prop where
  send : ∀ {d method params link}, I d → method ∉ settingsMethods → carrier.send method params d.link = .ok link →
    I { d with link }
  session : ∀ {d : Desk L} (attachments : List (String × Attachment)) (active : Option String),
    I d → I { d with session := { d.session with attachments, active } }
  serve : ∀ {d : Desk L} (aim : Option Aim), I d → I (d.served aim)
  buffers : ∀ {d : Desk L} (buffers : List (Buffer Reaction Mark)), I d → I { d with buffers }

namespace Aloof

variable {I : Desk L → Prop} (a : Aloof carrier I)
include a

theorem sending {method : String} (hmethod : method ∉ settingsMethods) (params : Json) :
    Ensures I (Desk.send carrier method params) fun _ => I := by
  intro d hd
  rw [run_send]
  split
  · next link hlink => exact a.send hd hmethod hlink
  · exact hd

theorem editBuffer (n : Nat) (f : Buffer Reaction Mark → Buffer Reaction Mark) :
    Ensures I (Desk.editBuffer n f) fun _ => I := .modify fun _ hd => a.buffers _ hd

theorem interpretTo (n : Nat) (p : Place) : Ensures I (Desk.interpretTo carrier n p) fun _ => I := by
  refine .step (looks_wirePlace n p).ensures (fun place => ?_) fun _ _ h => h
  exact .step (looks_buffer n).ensures (fun _ => a.sending (by decide) _) fun _ _ h => h

theorem step (n : Nat) (direction : Direction) : Ensures I (Desk.step carrier n direction) fun _ => I :=
  .step (looks_buffer n).ensures (fun _ => a.sending direction.method_notMem _) fun _ _ h => h

theorem check (n : Nat) : Ensures I (Desk.check carrier n) fun _ => I :=
  .step looks_proofMode.ensures (fun _ => .ite (fun _ => a.interpretTo n .cursor) fun _ => .pure fun _ hd => hd)
    fun _ _ h => h

/-! ## Holding a buffer and letting one go -/

theorem holding {d : Desk L} (hd : I d) (n : Nat) : I (d.holding n) :=
  a.session _ _ (a.buffers (d.withBuffer n (subscribeAll (d.bufferAt n)).2).buffers hd)

theorem releasing {d : Desk L} (hd : I d) (n : Nat) (held : Attachment) : I (d.releasing n held) :=
  a.session _ _ (a.buffers (d.releasing n held).buffers hd)

theorem attach (n : Nat) : Ensures I (Desk.attach carrier n) fun _ => I := by
  intro d hd
  rw [run_attach]
  split
  · exact hd
  · exact a.check n _ (a.holding hd n)

theorem detach (n : Nat) : Ensures I (Desk.detach n) fun _ => I := by
  intro d hd
  rw [run_detach]
  split
  · exact hd
  · exact a.releasing hd n _

theorem detachAll (held : List Nat) : Ensures I (held.forM Desk.detach) fun _ => I := by
  induction held with
  | nil => exact .pure fun _ hd => hd
  | cons n held ih => exact .step (a.detach n) (fun _ => ih) fun _ _ h => h

theorem adopt (n : Nat) : Ensures I (Desk.adopt carrier n) fun _ => I := by
  intro d hd
  rw [run_adopt]
  split
  · exact hd
  · split
    · next link hlink => exact a.check n _ (a.holding (a.send hd (by decide) hlink) n)
    · exact hd

theorem release (n : Nat) : Ensures I (Desk.release carrier n) fun _ => I :=
  .step (looks_buffer n).ensures
    (fun _ => .step (a.detach n) (fun _ => a.sending (by decide) _) fun _ _ h => h) fun _ _ h => h

/-! ## Edits -/

theorem react (n : Nat) (reaction : Reaction) : Ensures I (Desk.react carrier n reaction) fun _ => I := by
  cases reaction with
  | follow =>
    intro d hd
    exact a.check n _ (a.session d.session.attachments (some (d.bufferAt n).uri) hd)
  | report => exact .step (looks_buffer n).ensures (fun _ => a.sending (by decide) _) fun _ _ h => h
  | release => exact a.release n

theorem emit (n : Nat) (e : BufferEvent) : Ensures I (Desk.emit carrier n e) fun _ => I := by
  refine .step (looks_buffer n).ensures (fun b => Upkeep.calls (fun k => ?_) _) fun _ _ h => h
  rintro d ⟨hd, -⟩
  simp only [run_bind, run_buffer]
  cases (d.bufferAt n).listener? k with
  | none => exact hd
  | some reaction => exact a.react n reaction d hd

theorem moveCursor (n : Nat) (p : Position) : Ensures I (Desk.moveCursor carrier n p) fun _ => I := by
  refine .step (looks_buffer n).ensures (fun b => .step (.lift fun _ hd => hd) (fun b => ?_) fun _ _ h => h) fun _ _ h => h
  exact .step (a.editBuffer n _) (fun _ => a.emit n .cursorMoved) fun _ _ h => h

theorem replaceText (n : Nat) (text : String) : Ensures I (Desk.replaceText carrier n text) fun _ => I :=
  .step (a.editBuffer n _) (fun _ => a.emit n .changed) fun _ _ h => h

theorem closeBuffer (n : Nat) : Ensures I (Desk.closeBuffer carrier n) fun _ => I := by
  refine .step (looks_buffer n).ensures (fun b => ?_) fun _ _ h => h
  refine .ite (fun _ => .pure fun _ hd => hd) fun _ => ?_
  exact .step (a.editBuffer n _) (fun _ => a.emit n .closed) fun _ _ h => h

/-! ## Requests and notifications -/

theorem begin (n : Nat) (timeout : Json) (r : Request) : Ensures I (Desk.begin carrier n timeout r) fun _ => I := by
  intro d hd
  obtain ⟨o, hrun, -⟩ := run_begin carrier d n timeout r
  rw [hrun]
  exact a.serve _ hd

theorem hearProgress (params : Json) : Ensures I (Desk.hearProgress carrier params) fun _ => I := by
  refine .step (looks_subject params).ensures (fun found => ?_) fun _ _ h => h
  cases found with
  | none => exact .pure fun _ hd => hd
  | some n =>
    refine .step (.lift fun _ hd => hd) (fun highlights => ?_) fun _ _ h => h
    refine .step looks_encoding.ensures (fun e => ?_) fun _ _ h => h
    refine .step (.get fun _ hd => hd) (fun d => ?_) fun _ _ h => h
    exact .step (.lift fun _ hd => hd) (fun b => a.editBuffer n _) fun _ _ h => h

theorem hearCursor (params : Json) : Ensures I (Desk.hearCursor carrier params) fun _ => I := by
  rw [hearCursor_eq]
  refine .step (looks_meant params).ensures (fun found => ?_) fun _ _ h => h
  cases found with
  | none => exact .pure fun _ hd => hd
  | some target => exact a.moveCursor target.1 target.2

end Aloof

/-! ## What concerns the settings alone -/

/-- The property has to do with the settings, and with the messages that bring some, and with nothing else. -/
structure OnSettings (carrier : Carrier L) (I : Desk L → Prop) : Prop extends Aloof carrier I where
  shows : ∀ {d : Desk L} {s : Session}, I d → s.settings = d.session.settings → I { d with session := s }

namespace OnSettings

variable {I : Desk L → Prop} (o : OnSettings carrier I)
include o

theorem editSession {f : Session → Session} (hf : ∀ s, (f s).settings = s.settings) :
    Ensures I (Desk.editSession f) fun _ => I := .modify fun _ hd => o.shows hd (hf _)

theorem showSearch (ticket : Int) : Ensures I (Desk.showSearch ticket) fun _ => I := by
  refine o.editSession fun s => ?_
  split <;> rfl

theorem finish (q : Query) (answer : Except Failure Json) : Ensures I (Desk.finish q answer) fun _ => I := by
  unfold Desk.finish
  cases answer with
  | ok value =>
    simp only
    cases q.aim with
    | search ticket =>
      refine .step (looks_accepts _ _).ensures (fun _ => .ite (fun _ => ?_) fun _ => .pure fun _ hd => hd) fun _ _ h => h
      exact .step (o.showSearch _) (fun _ => .pure fun _ hd => hd) fun _ _ h => h
    | question ticket =>
      refine .step (looks_accepts _ _).ensures (fun _ => .ite (fun _ => ?_) fun _ => .pure fun _ hd => hd) fun _ _ h => h
      refine .step (.lift fun _ hd => hd) (fun _ => ?_) fun _ _ h => h
      exact .step (o.editSession fun _ => rfl) (fun _ => .pure fun _ hd => hd) fun _ _ h => h
    | reset => exact .pure fun _ hd => hd
  | error cause =>
    simp only
    cases q.notice? cause with
    | none => exact .throw fun _ hd => hd
    | some notice => exact .step (o.editSession fun _ => rfl) (fun _ => .pure fun _ hd => hd) fun _ _ h => h

theorem hearSearchHit (params : Json) : Ensures I (Desk.hearSearchHit params) fun _ => I := by
  refine .step (.lift fun _ hd => hd) (fun hit => ?_) fun _ _ h => h
  refine .step (looks_accepts _ _).ensures (fun _ => .ite (fun _ => ?_) fun _ => .pure fun _ hd => hd) fun _ _ h => h
  refine .step (o.showSearch _) (fun _ => ?_) fun _ _ h => h
  exact .step (.lift fun _ hd => hd) (fun lines => o.editSession fun _ => rfl) fun _ _ h => h

theorem hear (params : Json) (signal : Signal) : Ensures I (Desk.hear carrier params signal) fun _ => I := by
  cases signal with
  | progress => exact o.hearProgress params
  | cursor => exact o.hearCursor params
  | proofView => exact .step (.lift fun _ hd => hd) (fun lines => o.editSession fun _ => rfl) fun _ _ h => h
  | searchHit => exact o.hearSearchHit params

theorem shutdown : Ensures I Desk.shutdown fun _ => I := by
  refine .step (.get fun _ hd => hd) (fun d => ?_) fun _ _ h => h
  exact .step (o.detachAll _) (fun _ => o.editSession fun _ => rfl) fun _ _ h => h

end OnSettings
end Desk
end CoqConsole
