import CoqConsole.Proofs.Line.Books
import CoqConsole.Proofs.Operation

/-!
# What the operations of a line enter in its books

* `Keeps` : operations that enter nothing, with a rule for each step;
* `Held` : the books fit the calls that wait, and no answer came in;
* `Transmits`, `run_post` : what writing a request comes to; it takes its number (`issued`), and is written or not;
* `Collects`, `collects` : what a request comes to, by the way its wait ended and the answer that is kept;
* `ensures_post`, `ensures_cancel`, `ensures_collect` : requests begin, are given up, and end;
* `Wired.EndsAs`, `resume_cases` : a call concludes its plan, or goes on from the flush of its request to the answer;
* `Stands`, `ensures_start`, `ensures_stop`, `ensures_resume` : whatever a call does, it either waits for the answer
  to a new request or leaves nothing in the books.
-/

namespace CoqConsole

/-! ## Hosts -/

theorem Wired.process_of_running {w : Wired} {p : Nat} (h : w.running? = some p) : w.line.process = some p := by
  unfold running? at h
  split at h
  · next p' hprocess =>
    split at h
    · rw [hprocess, h]
    · cases h
  · cases h

namespace Host

theorem wire_spawn (h : Host) (command : List String) (cwd : String) (environment : List (String × Json)) :
    (h.spawn command cwd environment).2.wire = h.wire := by
  unfold spawn
  simp only
  split <;> rfl

end Host

namespace Line

variable {α β : Type}

theorem run_attempt (op : Op α) (w : Wired) :
    (attempt op).run.run w = (.ok (op.run.run w).1, (op.run.run w).2) := by
  rw [attempt, run_tryCatch, run_bind]
  rcases op.run.run w with ⟨_ | _, _⟩ <;> rfl

/-! ## Operations that enter nothing -/

/-- The operation enters nothing in the books. -/
def Keeps (op : Op α) : Prop := ∀ w, (op.run.run w).2.books = w.books

namespace Keeps

theorem bind {op : Op α} {next : α → Op β} (h : Keeps op) (hnext : ∀ a, Keeps (next a)) : Keeps (op >>= next) := by
  intro w
  have hop := h w
  rw [run_bind]
  rcases hrun : op.run.run w with ⟨r, w'⟩
  rw [hrun] at hop
  cases r with
  | ok a => exact (hnext a w').trans hop
  | error cause => exact hop

theorem pure (a : α) : Keeps (Pure.pure a) := fun _ => rfl

theorem throw (cause : Failure) : Keeps (throw cause : Op α) := fun _ => rfl

theorem get : Keeps (get : Op Wired) := fun _ => rfl

theorem lift (r : Except Failure α) : Keeps (liftM r : Op α) := fun w => by rw [run_lift]

/-- What follows a value that may be missing need not be looked at if it is. -/
theorem lift_bind {r : Except Failure α} {next : α → Op β} (h : ∀ a, r = .ok a → Keeps (next a)) :
    Keeps ((liftM r : Op α) >>= next) := by
  intro w
  rw [run_bind, run_lift]
  cases r with
  | ok a => exact h a rfl w
  | error cause => rfl

theorem ite {p : Prop} [Decidable p] {op other : Op α} (h : p → Keeps op) (h' : ¬ p → Keeps other) :
    Keeps (if p then op else other) := by
  by_cases hp : p
  · rw [if_pos hp]
    exact h hp
  · rw [if_neg hp]
    exact h' hp

theorem edit {f : Line → Line} (h : ∀ w : Wired, ({ w with line := f w.line } : Wired).books = w.books) :
    Keeps (Line.edit f) := h

theorem editHost {f : Host → Host} (h : ∀ w : Wired, ({ w with host := f w.host } : Wired).books = w.books) :
    Keeps (Line.editHost f) := h

theorem write {message : Json} (h : requestId? message = none) : Keeps (Line.write message) := by
  intro w
  simp only [Line.write, run_bind, run_get]
  cases w.running? with
  | none => rfl
  | some p =>
    show Wired.books { w with host := w.host.deliver p message } = _
    simp [Wired.books, Host.deliver, Host.edit, h]

theorem notify (method params : Json) : Keeps (Line.notify method params) := write rfl

theorem learn (answer : Json) : Keeps (Line.learn answer) := by
  unfold Line.learn
  extract_lets go
  have hgo (capabilities : Json) : Keeps (go capabilities) := by
    refine bind (edit fun _ => rfl) fun _ => bind (lift _) fun info => bind (edit fun _ => rfl) fun _ => ?_
    refine bind (lift _) fun chosen => ?_
    extract_lets chosen encoding shown tell
    have htell (u : Unit) : Keeps (tell u) := by
      refine bind (notify _ _) fun _ => bind (lift _) fun name => bind (lift _) fun version => bind get fun w => ?_
      cases w.line.process with
      | none => exact throw _
      | some p => exact pure _
    cases Encoding.ofJson encoding with
    | error cause => exact bind (throw _) htell
    | ok e => exact bind (edit fun _ => rfl) htell
  by_cases h : answer.truthy = true
  · rw [if_pos h]
    exact bind (lift _) hgo
  · rw [if_neg h]
    exact bind (pure _) hgo

theorem spawn : Keeps Line.spawn := by
  intro w
  simp only [Line.spawn, run_bind, run_get, run_lift]
  cases w.line.entries with
  | error cause => rfl
  | ok entries =>
    simp only
    generalize List.foldl _ w.host.environment entries = environment
    have hwire := Host.wire_spawn w.host w.line.command w.line.workdir environment
    have hbooks : (⟨(w.host.spawn w.line.command w.line.workdir environment).2, w.line⟩ : Wired).books = w.books := by
      rw [Wired.books, Wired.books, hwire]
    cases (w.host.spawn w.line.command w.line.workdir environment).1 with
    | none => exact hbooks
    | some p => exact hbooks

end Keeps

/-! ## Requests -/

/-- Since `b` no answer came in, and the books fit the calls that wait. -/
structure Held (b : Books) (waited : List Nat) (w : Wired) : Prop where
  calm : Calm b w.books
  fit : Fit waited w.books

theorem Keeps.ensures {op : Op α} (h : Keeps op) {b : Books} {waited : List Nat} :
    Ensures (Held b waited) op fun _ => Held b waited := fun w hw => by
  have hbooks := h w
  exact ⟨hbooks ▸ hw.calm, hbooks ▸ hw.fit⟩

theorem Held.forget {b : Books} {waited : List Nat} {id : Nat} {w w' : Wired} (h : Held b (id :: waited) w)
    (hbooks : w'.books = w.books.forget id) : Held b waited w' := by
  constructor
  · rw [hbooks]
    exact h.calm.trans (.forget id h.fit.pending_single)
  · rw [hbooks]
    exact h.fit.forget

theorem run_write (message : Json) (w : Wired) :
    (write message).run.run w =
      match w.running? with
      | some p => (.ok (), { w with host := w.host.deliver p message })
      | none => (.error .notRunning, w) := by
  rw [write, run_bind, run_get]
  simp only
  cases w.running? <;> rfl

/-- There is no limit to be had only if it is named by what is no number. -/
theorem eq_wrongKind_of_limit {now : Int} {timeout : Json} {cause : Failure} (h : Limit.after now timeout = .error cause) :
    cause = .wrongKind := by
  have htoScalar (v : Json) {f : Scalar → Limit} (h : v.toScalar.map f = .error cause) : cause = .wrongKind := by
    unfold Json.toScalar at h
    split at h
    · cases h
    · cases h
      rfl
  unfold Limit.after at h
  split at h
  · cases h
  · exact htoScalar _ h

/-- What writing a request comes to. It is written, whatever comes of it, if there is a process to write to. -/
inductive Transmits (w : Wired) (id : Nat) (method params timeout : Json) : Except Failure Wait → Wired → Prop
  | silent (hp : w.running? = none) : Transmits w id method params timeout (.error .notRunning) w
  | broken {p : Nat} {host : Host} (hp : w.running? = some p) (hhost : host = w.host.deliver p (request id method params))
      (hbreaks : host.breaks p (request id method params) = true) :
    Transmits w id method params timeout (.error .brokenPipe) { w with host }
  /-- It is held back. -/
  | held {p q cleared : Nat} {host : Host} (hp : w.running? = some p)
      (hhost : host = w.host.deliver p (request id method params))
      (hwhole : host.breaks p (request id method params) = false) :
    Transmits w id method params timeout (.ok (.flush id q cleared timeout)) { w with host }
  | unlimited {p : Nat} {host : Host} {cause : Failure} (hp : w.running? = some p)
      (hhost : host = w.host.deliver p (request id method params))
      (hwhole : host.breaks p (request id method params) = false) (hlimit : Limit.after host.now timeout = .error cause) :
    Transmits w id method params timeout (.error cause) { w with host }
  | asked {p : Nat} {host : Host} {limit : Limit} (hp : w.running? = some p)
      (hhost : host = w.host.deliver p (request id method params))
      (hwhole : host.breaks p (request id method params) = false) (hlimit : Limit.after host.now timeout = .ok limit) :
    Transmits w id method params timeout (.ok (.answer id limit)) { w with host }

theorem transmits (id : Nat) (method params timeout : Json) (w : Wired) :
    Transmits w id method params timeout ((transmit id method params timeout).run.run w).1
      ((transmit id method params timeout).run.run w).2 := by
  simp only [transmit, run_bind, run_write]
  cases hp : w.running? with
  | none => exact .silent hp
  | some p =>
    have hprocess := Wired.process_of_running hp
    simp only [run_get, run_ite, run_bind, run_throw, hprocess, Option.map_some, Option.getD_some]
    generalize hhost : w.host.deliver p (request id method params) = host
    split
    · next hbreaks => exact .broken hp hhost.symm hbreaks
    · next hwhole =>
      have hwhole := Bool.eq_false_iff.mpr hwhole
      cases Wired.stalled? ⟨host, w.line⟩ with
      | some held => exact .held hp hhost.symm hwhole
      | none =>
        simp only [run_bind, run_lift]
        cases hlimit : Limit.after host.now timeout with
        | ok limit => exact .asked hp hhost.symm hwhole hlimit
        | error cause => exact .unlimited hp hhost.symm hwhole hlimit

/-- No request is written where there is no process to write to. -/
theorem transmit_of_not_running (id : Nat) (method params timeout : Json) {w : Wired} (h : w.running? = none) :
    (transmit id method params timeout).run.run w = (.error .notRunning, w) := by
  simp only [transmit, run_bind, run_write, h]

end Line

/-- The request whose answer is waited for, also while it is flushed. -/
def Wait.ids : Wait → List Nat
  | .flush id .. | .answer id _ => [id]
  | _ => []

namespace Line

/-- What is left of an attempt to write a request. -/
def Transmitted (b : Books) (id : Nat) : Except Failure Wait → Wired → Prop
  | .ok wait, w => w.books = b.ask id ∧ wait.ids = [id]
  | .error cause, w => (w.books = b ∨ w.books = b.ask id) ∧ cause.isRefusal = false

theorem transmitted (id : Nat) (method params timeout : Json) (w : Wired) :
    Transmitted w.books id ((transmit id method params timeout).run.run w).1
      ((transmit id method params timeout).run.run w).2 := by
  have htransmits := transmits id method params timeout w
  generalize (transmit id method params timeout).run.run w = out at htransmits
  obtain ⟨r, w'⟩ := out
  have hask {p : Nat} {host : Host} (hhost : host = w.host.deliver p (request id method params)) :
      ({ w with host } : Wired).books = w.books.ask id := by
    have hid : requestId? (request id method params) = some id := rfl
    subst hhost
    simp [Wired.books, Host.deliver, Host.edit, Books.ask, hid]
  cases htransmits with
  | silent _ => exact ⟨.inl rfl, rfl⟩
  | broken _ hhost _ => exact ⟨.inr (hask hhost), rfl⟩
  | held _ hhost _ => exact ⟨hask hhost, rfl⟩
  | unlimited _ hhost _ hlimit =>
    obtain rfl := eq_wrongKind_of_limit hlimit
    exact ⟨.inr (hask hhost), rfl⟩
  | asked _ hhost _ _ => exact ⟨hask hhost, rfl⟩

def issued (w : Wired) : Wired :=
  { w with line := { w.line with nextId := w.line.nextId + 1, pending := w.line.pending ++ [w.line.nextId] } }

theorem run_post (method params timeout : Json) (w : Wired) :
    (post method params timeout).run.run w =
      match (transmit w.line.nextId method params timeout).run.run (issued w) with
      | (.ok wait, w') => (.ok (w.line.nextId, wait), w')
      | (.error cause, w') => (.error cause, ((forget w.line.nextId).run.run w').2) := by
  simp only [post, run_bind, run_get, edit, run_modify, run_attempt, issued]
  rcases (transmit w.line.nextId method params timeout).run.run _ with ⟨_ | _, _⟩ <;> rfl

/-- What is left of an attempt to make a request. It takes the next number, whatever comes of it. -/
def Posted (b : Books) (waited : List Nat) (r : Except Failure (Nat × Wait)) (w : Wired) : Prop :=
  w.books.nextId = b.nextId + 1 ∧
    match r with
    | .ok (id, wait) => id = b.nextId ∧ Held b (waited ++ [id]) w ∧ wait.ids = [id]
    | .error cause => Held b waited w ∧ cause.isRefusal = false

theorem posted (method params timeout : Json) {waited : List Nat} {w : Wired} (h : Fit waited w.books) :
    Posted w.books waited ((post method params timeout).run.run w).1 ((post method params timeout).run.run w).2 := by
  -- Written or not, the number is taken and the request is waited for.
  have hheld {w' : Wired} (hbooks : w'.books = w.books.issue ∨ w'.books = w.books.issue.ask w.books.nextId) :
      w'.books.nextId = w.books.nextId + 1 ∧ Held w.books (waited ++ [w.books.nextId]) w' := by
    have hask : Fit (waited ++ [w.books.nextId]) (w.books.issue.ask w.books.nextId) :=
      h.issue.ask (Nat.lt_succ_self _) h.asked_below
    rcases hbooks with hbooks | hbooks
    · exact ⟨hbooks ▸ rfl, hbooks ▸ .issue _, hbooks ▸ h.issue⟩
    · exact ⟨hbooks ▸ rfl, hbooks ▸ (Calm.issue _).trans (.ask _ _), hbooks ▸ hask⟩
  have htransmitted := transmitted w.line.nextId method params timeout (issued w)
  rw [run_post]
  generalize (transmit w.line.nextId method params timeout).run.run (issued w) = out at htransmitted
  obtain ⟨r, w'⟩ := out
  cases r with
  | ok wait =>
    obtain ⟨hnext, hwaits⟩ := hheld (.inr htransmitted.1)
    exact ⟨hnext, rfl, hwaits, htransmitted.2⟩
  | error cause =>
    obtain ⟨hnext, hwaits⟩ := hheld htransmitted.1
    have hcons : Held w.books (w.books.nextId :: waited) w' :=
      ⟨hwaits.calm, hwaits.fit.perm (List.perm_append_singleton _ _).symm⟩
    exact ⟨hnext, hcons.forget rfl, htransmitted.2⟩

/-! ## Giving up and collecting -/

theorem ensures_cancel (id : Json) (b : Books) (waited : List Nat) :
    Ensures (Held b waited) (cancel id) fun _ => Held b waited := by
  unfold cancel
  refine .step (.get fun w hw => hw) (fun w => ?_) fun _ _ h => h
  extract_lets tell
  have htell (u : Unit) : Ensures (Held b waited) (tell u) fun _ => Held b waited :=
    .step (.get fun w hw => hw)
      (fun w => .ite (fun _ => (Keeps.notify _ _).ensures) fun _ => .pure fun w hw => hw) fun _ _ h => h
  refine .ite (fun _ => htell ()) fun _ => ?_
  refine .step (.lift fun w hw => hw) (fun key => ?_) fun _ _ h => h
  cases key with
  | none => exact htell ()
  | some n =>
    refine .step (.modify fun w hw => ?_) htell fun _ _ h => h
    exact ⟨hw.calm.trans (.drop n _), hw.fit.drop n⟩

/-- Giving up a request of the line itself does not fail. -/
theorem cancel_ok (id : Nat) (w : Wired) : ∃ w', (cancel (.int id)).run.run w = (.ok (), w') := by
  have hkey : keyOf (.int id) = .ok (some id) := by simp [keyOf, Json.key, Except.map]
  have htell (w : Wired) : ∃ w', (if w.isRunning = true
      then (notify "$/cancelRequest" (.object [("id", .int id)])).run.run w
      else (.ok (), w)) = (.ok (), w') := by
    by_cases h : w.isRunning = true
    · rw [if_pos h, notify, run_write]
      cases hp : w.running? with
      | none => simp [Wired.isRunning, hp] at h
      | some p => exact ⟨_, rfl⟩
    · rw [if_neg h]
      exact ⟨w, rfl⟩
  simp only [cancel, run_bind, run_get, run_ite, run_lift, run_pure, hkey, edit, run_modify]
  split
  · exact htell w
  · exact htell _

-- A call that is late gives its request up first, which may write to the server.
theorem ensures_collect (id : Nat) (method params : Json) (ending : Ending) (b : Books) (waited : List Nat) :
    Ensures (Held b (id :: waited)) (collect id method params ending) fun _ => Held b waited := by
  intro w hw
  have hforget : Held b waited ((forget id).run.run w).2 := hw.forget rfl
  cases ending with
  | late =>
    obtain ⟨w', hcancel⟩ := cancel_ok id w
    have hheld := ensures_cancel (.int id) b (id :: waited) w hw
    rw [hcancel] at hheld
    simp only [collect, run_bind, hcancel]
    exact hheld.forget rfl
  | failed cause => exact hforget
  | met =>
    simp only [collect, run_bind, run_get]
    cases Keyed.get? id w.line.settled with
    | none => exact hforget
    | some answer =>
      cases answer with
      | error cause => exact hforget
      | ok message =>
        simp only [run_lift]
        exact hforget

/-- The result of a request is what its answer says. -/
theorem collect_result (id : Nat) (method params : Json) (ending : Ending) (w : Wired) :
    ((collect id method params ending).run.run w).1 =
      match ending with
      | .late => .error .timedOut
      | .failed cause => .error cause
      | .met =>
        match Keyed.get? id w.line.settled with
        | some (.ok message) => resultOf method params message
        | some (.error cause) => .error cause
        | none => .error .lostConnection := by
  cases ending with
  | late =>
    obtain ⟨w', hcancel⟩ := cancel_ok id w
    simp only [collect, run_bind, hcancel]
    rfl
  | failed cause => rfl
  | met =>
    simp only [collect, run_bind, run_get]
    cases Keyed.get? id w.line.settled with
    | none => rfl
    | some answer =>
      cases answer with
      | error cause => rfl
      | ok message =>
        simp only [run_lift]
        rfl

/-- What a request comes to, by the way its wait ended and the answer that is kept. -/
inductive Collects (w : Wired) (id : Nat) (method params : Json) : Ending → Except Failure Json → Prop
  | late : Collects w id method params .late (.error .timedOut)
  | unsent (cause : Failure) : Collects w id method params (.failed cause) (.error cause)
  | unanswered : Collects w id method params .met (.error .lostConnection)
  | failed {cause : Failure} (hkept : (id, .error cause) ∈ w.line.settled) :
    Collects w id method params .met (.error cause)
  | answered {message : Json} {r : Except Failure Json} (hkept : Keyed.get? id w.line.settled = some (.ok message))
      (hresult : resultOf method params message = r) : Collects w id method params .met r

theorem collects (id : Nat) (method params : Json) (ending : Ending) (w : Wired) :
    Collects w id method params ending ((collect id method params ending).run.run w).1 := by
  rw [collect_result]
  cases ending with
  | late => exact .late
  | failed cause => exact .unsent cause
  | met =>
    cases hkept : Keyed.get? id w.line.settled with
    | none => exact .unanswered
    | some answer =>
      cases answer with
      | error cause => exact .failed (Keyed.mem_of_get? hkept)
      | ok message => exact .answered hkept rfl

/-! ## Answers and their end -/

theorem books_settle (w : Wired) (id : Nat) (answer : Except Failure Json) :
    ({ w with line := w.line.settle id answer } : Wired).books = w.books.settle id answer := by
  rw [settle, Books.settle, show w.books.pending = w.line.pending from rfl,
    show w.books.settled = w.line.settled from rfl]
  split <;> rfl

theorem books_failPending (w : Wired) (cause : Failure) :
    ({ w with line := w.line.failPending cause } : Wired).books = w.books.fail cause := by
  have hfold (ids : List Nat) : ∀ w : Wired,
      ({ w with line := ids.foldl (fun l id => l.settle id (.error cause)) w.line } : Wired).books =
        ids.foldl (fun b id => b.settle id (.error cause)) w.books := by
    induction ids with
    | nil => exact fun _ => rfl
    | cons id ids ih =>
      intro w
      rw [List.foldl_cons, List.foldl_cons, ← books_settle]
      exact ih { w with line := w.line.settle id (.error cause) }
  have hbooks := congrArg (fun b : Books => { b with pending := [] }) (hfold w.line.pending w)
  exact hbooks

theorem Held.fail {b : Books} {waited : List Nat} {w w' : Wired} (h : Held b waited w) {cause : Failure}
    (hcause : cause.isRefusal = false) (hbooks : w'.books = w.books.fail cause) : Held b waited w' := by
  constructor
  · rw [hbooks]
    exact h.calm.trans (.fail cause _)
  · rw [hbooks]
    exact h.fit.fail hcause

/-! ## Calls -/

end Line

/-- The request that a call waits with, if it does. -/
def Suspended.ids (s : Suspended) : List Nat := s.wait.ids

theorem Suspended.ids_eq_of_mem {s : Suspended} {i : Nat} (h : i ∈ s.ids) : s.ids = [i] := by
  unfold ids Wait.ids at h ⊢
  split at h
  · rw [List.mem_singleton.mp h]
  · rw [List.mem_singleton.mp h]
  · cases h

/-- The answer that a plan goes on with, if it does. -/
def Plan.ids : Plan → List Nat
  | .request id .. | .greeting id .. | .parting id _ => [id]
  | _ => []

/-- How a wait ends that is over. A request is not sent, or its answer not waited for, if the pipe breaks or there is no
limit to be had; and an answer may be there once it is sent. -/
inductive Wired.EndsAs (w : Wired) (late : Bool) : Wait → Ending → Prop
  | plain {wait : Wait} (h : ∀ id p cleared timeout, wait ≠ .flush id p cleared timeout) : EndsAs w late wait (.ofLate late)
  | broken {id p cleared : Nat} {timeout : Json} (h : late = true) :
    EndsAs w late (.flush id p cleared timeout) (.failed .brokenPipe)
  | unlimited {id p cleared : Nat} {timeout : Json} {cause : Failure} (h : Limit.after w.host.now timeout = .error cause) :
    EndsAs w late (.flush id p cleared timeout) (.failed cause)
  | there {id p cleared : Nat} {timeout : Json} (h : late = false) (hthere : Keyed.has id w.line.settled = true) :
    EndsAs w late (.flush id p cleared timeout) .met

/-- What is waited for comes in time. If the wait failed, the pipe broke, or there was no limit to the next. -/
structure Ending.IsProper (late : Bool) (ending : Ending) : Prop where
  timely : ending = .met → late = false
  failure : ∀ cause, ending = .failed cause → cause = .brokenPipe ∨ cause = .wrongKind

theorem Wired.EndsAs.isProper {w : Wired} {late : Bool} {wait : Wait} {ending : Ending} (h : w.EndsAs late wait ending) :
    ending.IsProper late := by
  cases h with
  | plain _ =>
    cases late with
    | true => exact ⟨nofun, nofun⟩
    | false => exact ⟨fun _ => rfl, nofun⟩
  | broken _ =>
    refine ⟨nofun, fun cause hcause => ?_⟩
    cases hcause
    exact .inl rfl
  | unlimited hlimit =>
    refine ⟨nofun, fun cause hcause => ?_⟩
    cases hcause
    exact .inr (Line.eq_wrongKind_of_limit hlimit)
  | there hlate _ => exact ⟨fun _ => hlate, nofun⟩

namespace Line

/-- A call whose wait is over concludes its plan, or its request got through and it waits for the answer. -/
theorem resume_cases (late : Bool) (s : Suspended) (w : Wired) :
    (∃ ending, w.EndsAs late s.wait ending ∧ (resume late s).run.run w = (conclude ending s.plan).run.run w) ∨
      ∃ id p cleared timeout limit, s.wait = .flush id p cleared timeout ∧ late = false ∧
        Limit.after w.host.now timeout = .ok limit ∧
        (resume late s).run.run w = (.ok (.waiting ⟨.answer id limit, s.plan⟩), w) := by
  obtain ⟨wait, plan⟩ := s
  cases wait with
  | flush id p cleared timeout =>
    cases late with
    | true => exact .inl ⟨_, .broken rfl, by simp only [resume, flushed, if_true]⟩
    | false =>
      cases hlimit : Limit.after w.host.now timeout with
      | error cause =>
        refine .inl ⟨_, .unlimited hlimit, ?_⟩
        simp only [resume, flushed, Bool.false_eq_true, if_false, run_bind, run_get, hlimit]
      | ok limit =>
        by_cases hthere : (Keyed.has id w.line.settled && limit.due?.isNone) = true
        · have hrun : (resume false ⟨.flush id p cleared timeout, plan⟩).run.run w = (conclude .met plan).run.run w := by
            simp only [resume, flushed, Bool.false_eq_true, if_false, run_bind, run_get, hlimit, if_pos hthere]
          exact .inl ⟨_, .there rfl (Bool.and_eq_true _ _ ▸ hthere).1, hrun⟩
        · have hrun : (resume false ⟨.flush id p cleared timeout, plan⟩).run.run w =
              (.ok (.waiting ⟨.answer id limit, plan⟩), w) := by
            simp only [resume, flushed, Bool.false_eq_true, if_false, run_bind, run_get, hlimit, if_neg hthere, run_pure]
          exact .inr ⟨_, _, _, _, limit, rfl, rfl, hlimit, hrun⟩
  | answer id limit => exact .inl ⟨_, .plain (fun _ _ _ _ h => by cases h), rfl⟩
  | exit p limit => exact .inl ⟨_, .plain (fun _ _ _ _ h => by cases h), rfl⟩
  | quiet p => exact .inl ⟨_, .plain (fun _ _ _ _ h => by cases h), rfl⟩

/-- How a call leaves the books: one that waits for an answer waits for its own or a new one, the one that its plan
goes on with; all others leave nothing. -/
def Stands (b : Books) (own waited : List Nat) : Except Failure Standing → Wired → Prop
  | .ok (.waiting s), w => Held b (waited ++ s.ids) w ∧ s.ids = s.plan.ids ∧ ∀ i ∈ s.ids, i ∈ own ∨ b.nextId ≤ i
  | _, w => Held b waited w

section Calls

variable (b : Books) (own waited : List Nat)

theorem ensures_attempt {P : Wired → Prop} {op : Op α} {Q : Except Failure α → Wired → Prop} (h : Ensures P op Q) :
    Ensures P (attempt op) fun r w => ∃ a, r = .ok a ∧ Q a w := by
  intro w hw
  rw [run_attempt]
  exact ⟨_, rfl, h w hw⟩

theorem ensures_post (method params timeout : Json) :
    Ensures (Held b waited) (post method params timeout) fun r w =>
      match r with
      | .ok (id, wait) => Held b (waited ++ [id]) w ∧ b.nextId ≤ id ∧ wait.ids = [id]
      | .error _ => Held b waited w := by
  intro w hw
  have hposted := posted method params timeout hw.fit
  generalize (post method params timeout).run.run w = out at hposted
  obtain ⟨r, w'⟩ := out
  cases r with
  | ok r =>
    obtain ⟨id, wait⟩ := r
    obtain ⟨-, rfl, hheld, hwait⟩ := hposted
    exact ⟨⟨hw.calm.trans hheld.calm, hheld.fit⟩, hw.calm.nextId_le, hwait⟩
  | error cause =>
    obtain ⟨-, hheld, -⟩ := hposted
    exact ⟨hw.calm.trans hheld.calm, hheld.fit⟩

/-- A call that waits for no answer. -/
theorem stands_of_ids_eq_nil {s : Suspended} (hwait : s.ids = []) (hplan : s.plan.ids = []) {w : Wired}
    (h : Held b waited w) : Stands b own waited (.ok (.waiting s)) w := by
  refine ⟨?_, by rw [hwait, hplan], fun i hi => ?_⟩
  · rw [hwait, List.append_nil]
    exact h
  · rw [hwait] at hi
    cases hi

theorem stands_of_post {id : Nat} {wait : Wait} {plan : Plan} (hplan : plan.ids = [id]) {w : Wired}
    (h : Held b (waited ++ [id]) w ∧ b.nextId ≤ id ∧ wait.ids = [id]) :
    Stands b own waited (.ok (.waiting ⟨wait, plan⟩)) w := by
  obtain ⟨hheld, hle, hids⟩ := h
  have hids : Suspended.ids ⟨wait, plan⟩ = [id] := hids
  refine ⟨hids ▸ hheld, hids.trans hplan.symm, fun i hi => ?_⟩
  rw [hids, List.mem_singleton] at hi
  exact .inr (hi ▸ hle)

theorem ensures_clear (result : Json) : Ensures (Held b waited) (clear result) (Stands b own waited) := by
  refine .step (.modify fun w hw => ?_) (fun _ => .pure fun w hw => hw) fun _ _ h => h
  exact hw.fail rfl (books_failPending w .stopped)

theorem ensures_close (result : Json) : Ensures (Held b waited) (close result) (Stands b own waited) := by
  refine .step (.get fun w hw => hw) (fun w => ?_) fun _ _ h => h
  cases w.line.process with
  | none => exact ensures_clear b own waited result
  | some p =>
    refine .step (Keeps.edit fun _ => rfl).ensures (fun _ => ?_) fun _ _ h => h
    exact .pure fun w hw => stands_of_ids_eq_nil b own waited rfl rfl hw

theorem ensures_terminate (result : Json) : Ensures (Held b waited) (terminate result) (Stands b own waited) := by
  refine .step (.get fun w hw => hw) (fun w => ?_) fun _ _ h => h
  cases w.line.process with
  | none => exact ensures_close b own waited result
  | some p =>
    refine .ite (fun _ => ?_) fun _ => ensures_close b own waited result
    refine .step (Keeps.editHost fun _ => rfl).ensures (fun _ => ?_) fun _ _ h => h
    exact .pure fun w hw => stands_of_ids_eq_nil b own waited rfl rfl hw

theorem ensures_stop (result : Json) : Ensures (Held b waited) (stop result) (Stands b own waited) := by
  refine .step (.get fun w hw => hw) (fun w => ?_) fun _ _ h => h
  refine .ite (fun _ => ?_) fun _ => ensures_terminate b own waited result
  refine .bind (ensures_attempt (ensures_post b waited _ _ _)) (fun r => ?_) fun _ _ ⟨_, h, _⟩ => by cases h
  cases r with
  | ok r => exact .pure fun w ⟨_, he, hw⟩ => by cases he; exact stands_of_post b own waited rfl hw
  | error cause =>
    refine .ite (fun _ => ?_) fun _ => .throw fun w ⟨_, he, hw⟩ => by cases he; exact hw
    exact (ensures_terminate b own waited result).imp (fun w ⟨_, he, hw⟩ => by cases he; exact hw) fun _ _ h => h

theorem ensures_leave (result : Json) : Ensures (Held b waited) (leave result) (Stands b own waited) := by
  refine .step (Keeps.notify _ _).ensures (fun _ => ?_) fun _ _ h => h
  refine .step (.get fun w hw => hw) (fun w => ?_) fun _ _ h => h
  cases w.line.process with
  | none => exact .throw fun w hw => hw
  | some p => exact .pure fun w hw => stands_of_ids_eq_nil b own waited rfl rfl hw

theorem ensures_greeted (label : String) (brief : Bool) :
    Ensures (Held b waited) (greeted label brief) (Stands b own waited) := by
  refine .ite (fun _ => ?_) fun _ => .pure fun w hw => hw
  exact .step (.get fun w hw => hw) (fun w => ensures_stop b own waited _) fun _ _ h => h

theorem ensures_start (options timeout : Json) (brief : Bool) :
    Ensures (Held b waited) (start options timeout brief) (Stands b own waited) := by
  refine .step (.get fun w hw => hw) (fun w => ?_) fun _ _ h => h
  refine .ite (fun _ => ensures_greeted b own waited _ brief) fun _ => ?_
  refine .step Keeps.spawn.ensures (fun _ => ?_) fun _ _ h => h
  refine .step (.get fun w hw => hw) (fun w => ?_) fun _ _ h => h
  refine .bind (ensures_post b waited _ _ _) (fun r => ?_) fun _ _ h => h
  exact .pure fun w hw => stands_of_post b own waited rfl hw

theorem ensures_ask (method params timeout : Json) :
    Ensures (Held b waited) (ask method params timeout) (Stands b own waited) := by
  refine .bind (ensures_post b waited _ _ _) (fun r => ?_) fun _ _ h => h
  exact .pure fun w hw => stands_of_post b own waited rfl hw

theorem ensures_kill (result : Json) : Ensures (Held b waited) (kill result) (Stands b own waited) := by
  refine .step (.get fun w hw => hw) (fun w => ?_) fun _ _ h => h
  cases w.line.process with
  | none => exact .throw fun w hw => hw
  | some p =>
    refine .step (Keeps.editHost fun _ => rfl).ensures (fun _ => ?_) fun _ _ h => h
    exact .ite (fun _ => .step (.throw fun w hw => hw) (fun _ => ensures_close b own waited result) fun _ _ h => h)
      fun _ => ensures_close b own waited result

/-- Whatever a call goes on with, the answer that it waited for is waited for no more. -/
theorem ensures_conclude (ending : Ending) (plan : Plan) :
    Ensures (Held b (plan.ids ++ waited)) (conclude ending plan) (Stands b own waited) := by
  cases plan with
  | request id method params =>
    refine .bind (ensures_collect id method params ending b waited) (fun v => ?_) fun _ _ h => h
    exact .pure fun w hw => hw
  | greeting id params brief =>
    refine .bind (ensures_collect id _ params ending b waited) (fun answer => ?_) fun _ _ h => h
    refine .step (Keeps.learn answer).ensures (fun label => ?_) fun _ _ h => h
    exact ensures_greeted b own waited label brief
  | parting id result =>
    have hleave : Ensures (Held b (id :: waited)) (collect id "shutdown" .null ending >>= fun _ => leave result)
        (Stands b own waited) :=
      .bind (ensures_collect id _ _ ending b waited) (fun _ => ensures_leave b own waited result) fun _ _ h => h
    refine .bind (ensures_attempt hleave) (fun r => ?_) fun _ _ ⟨_, h, _⟩ => by cases h
    cases r with
    | ok standing => exact .pure fun w ⟨_, he, hw⟩ => by cases he; exact hw
    | error cause =>
      refine .ite (fun _ => ?_) fun _ => .throw fun w ⟨_, he, hw⟩ => by cases he; exact hw
      exact (ensures_terminate b own waited result).imp (fun w ⟨_, he, hw⟩ => by cases he; exact hw) fun _ _ h => h
  | leaving result => exact ensures_terminate b own waited result
  | terminating result =>
    cases ending with
    | late => exact ensures_kill b own waited result
    | met | failed cause => exact ensures_close b own waited result
  | closing result => exact ensures_clear b own waited result

/-- Going on, a call still waits for its own answer, or leaves it. -/
theorem ensures_resume (late : Bool) {s : Suspended} (hplan : s.ids = s.plan.ids) :
    Ensures (Held b (s.ids ++ waited)) (resume late s) (Stands b s.ids waited) := by
  intro w hw
  rcases resume_cases late s w with ⟨ending, -, heq⟩ | ⟨id, p, cleared, timeout, limit, hwait, -, -, heq⟩
  · rw [heq]
    exact ensures_conclude b s.ids waited ending s.plan w (hplan ▸ hw)
  · have hids : s.ids = [id] := by rw [Suspended.ids, hwait, Wait.ids]
    rw [heq]
    refine ⟨⟨hw.calm, ?_⟩, hids.symm.trans hplan, fun i hi => .inl (hids ▸ hi)⟩
    exact hw.fit.perm (hids ▸ List.perm_append_comm)

end Calls

end Line
end CoqConsole
