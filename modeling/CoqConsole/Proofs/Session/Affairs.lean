import CoqConsole.Proofs.Session.Attachments
import CoqConsole.Proofs.Session.Binding

/-!
# What befalls a session, requests included

* `Desk.Affair` : an event, or a message that somebody makes the session send, or the end of a request;
* `Desk.undergo`, `Desk.live` : the desk after an affair, and after a run of them, whether they fail or not;
* `Upkeep.undergo` : what everything that a desk does to itself keeps, an affair keeps;
* `Desk.IsUnheard`, `bound_live` : a session that starts with nothing attached stays `Bound`.
-/

namespace CoqConsole.Desk

variable {L : Type}

/-! ## Runs -/

/-- Begin a request and send it; one that cannot be sent ends. -/
def ask (carrier : Carrier L) (n : Nat) (timeout : Json) (request : Request) : Op L Unit := do
  let q ← begin carrier n timeout request
  match carrier.send q.method q.params (← get).link with
  | .ok link => modify fun d => { d with link }
  | .error cause => finish q (.error cause) >>= fun _ => pure ()

/-- What is done with a session, or befalls it. -/
inductive Affair (L : Type)
  | befall (e : Event L)
  | interpret (n : Nat) (p : Place)
  | step (n : Nat) (direction : Direction)
  | ask (n : Nat) (timeout : Json) (request : Request)
  /-- A request ends by an answer, whichever it was. -/
  | finish (q : Query) (answer : Except Failure Json)

def Affair.buffer? : Affair L → Option Nat
  | befall e => e.buffer?
  | interpret n _ | step n _ | ask n _ _ => some n
  | finish .. => none

section Runs

variable (carrier : Carrier L)

/-- The desk after an affair; a failure keeps what was done before it. -/
def undergo (d : Desk L) : Affair L → Desk L
  | .befall e => d.after carrier e
  | .interpret n p => ((interpretTo carrier n p).run.run d).2
  | .step n direction => ((step carrier n direction).run.run d).2
  | .ask n timeout request => ((ask carrier n timeout request).run.run d).2
  | .finish q answer => ((finish q answer).run.run d).2

def live (d : Desk L) (as : List (Affair L)) : Desk L := as.foldl (undergo carrier) d

end Runs

variable {carrier : Carrier L} {d : Desk L}

/-! ## What an affair keeps -/

theorem Upkeep.asking {here : Nat → Prop} {fine : Position → Prop} {I : Desk L → Prop} (u : Upkeep carrier here fine I)
    (n : Nat) (timeout : Json) (request : Request) : Ensures I (ask carrier n timeout request) fun _ => I := by
  refine .step (u.note.begin n timeout request) (fun q => ?_) fun _ _ h => h
  intro d hd
  simp only [run_bind, run_get]
  cases hlink : carrier.send q.method q.params d.link with
  | ok link => exact u.send hd hlink
  | error cause =>
    have hfinish : Ensures I (Desk.finish q (.error cause) >>= fun _ => pure ()) fun _ => I :=
      .step (u.note.finish q _) (fun _ => .pure fun _ hd => hd) fun _ _ h => h
    exact hfinish d hd

theorem Upkeep.undergo {here : Nat → Prop} {I : Desk L → Prop} (u : Upkeep carrier here (fun _ => True) I) {k : Nat}
    (hhold : ∀ (d : Desk L) (n : Nat), I d → n < d.buffers.length →
      (d.bufferAt n).uri ∉ Keyed.keys d.session.attachments → I (d.holding n))
    (h : I d ∧ d.buffers.length = k) (a : Affair L) (ha : ∀ n, a.buffer? = some n → here n ∧ n < k)
    (hlink : ∀ link, a = .befall (.relink link) → I { d with link }) :
    I (d.undergo carrier a) ∧ (d.undergo carrier a).buffers.length = k := by
  have v := u.sized k
  cases a with
  | befall e => exact u.after hhold h e ha fun link he => hlink link (by rw [he])
  | interpret n p => exact (v.speech here).interpretTo (ha n rfl).1 p d h
  | step n direction => exact (v.speech here).step (ha n rfl).1 direction d h
  | ask n timeout request => exact v.asking n timeout request d h
  | finish q answer => exact v.note.finish q answer d h

/-! ## From the start -/

/-- Nothing is attached, and nobody has subscribed to the buffers. -/
structure IsUnheard (d : Desk L) : Prop where
  attachments : d.session.attachments = []
  active : d.session.active = none
  unheard : ∀ b ∈ d.buffers, b.subscriptions = [] ∧ b.rolls = (⟨[], [], []⟩ : Rolls)

theorem IsFresh.isUnheard (h : d.IsFresh) : d.IsUnheard := ⟨h.attachments, h.active, h.unheard⟩

theorem IsUnheard.bound (h : d.IsUnheard) : d.Bound := by
  refine ⟨.of_empty h.attachments, fun uri a hmem => ?_, fun n _ => ?_, fun uri huri => ?_⟩
  · rw [h.attachments] at hmem
    cases hmem
  · have hempty := Buffer.silent_ofText "" "" ""
    unfold bufferAt
    cases hb : d.buffers[n]? with
    | none => exact hempty
    | some b =>
      obtain ⟨hsub, hrolls⟩ := h.unheard b (List.mem_of_getElem? hb)
      exact hempty.of_subscriptions hsub hrolls
  · rw [h.active] at huri
    cases huri

variable (carrier) in
theorem bound_undergo (h : d.Bound) (a : Affair L) (ha : ∀ n, a.buffer? = some n → n < d.buffers.length) :
    (d.undergo carrier a).Bound ∧ (d.undergo carrier a).buffers.length = d.buffers.length :=
  Bound.upkeep.undergo (fun _ _ h hn hout => h.holding hn hout) ⟨h, rfl⟩ a (fun n hn => ⟨trivial, ha n hn⟩)
    fun _ _ => h.of_eq rfl rfl rfl

variable (carrier) in
theorem bound_live (h : d.Bound) (as : List (Affair L)) (has : ∀ a ∈ as, ∀ n, a.buffer? = some n → n < d.buffers.length) :
    (d.live carrier as).Bound := by
  induction as generalizing d with
  | nil => exact h
  | cons a as ih =>
    obtain ⟨h', hlength⟩ := bound_undergo carrier h a (has a List.mem_cons_self)
    exact ih h' fun a' ha' => hlength ▸ has a' (List.mem_cons_of_mem _ ha')

end CoqConsole.Desk
