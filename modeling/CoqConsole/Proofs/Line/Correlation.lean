import CoqConsole.Proofs.Line.Runs

/-!
# Requests and their answers

On every run of a line, however its callers, its server and the clock interleave, a request is written under the number
that its call waits with, and ends with what the first answer to that number says, or with a failure that is none of the
server's; and it is then no longer pending.

* `Earned` : the outcome of a request;
* `earned_collect` : whatever goes on with the answer to a request goes on with its outcome;
* `Wired.requested`, `wire_post` : the message of a request;
* `Circuit.Asked`, `asked_after`, `asked_follow` : a call that asked, from the beginning to its end;
* `Circuit.Correlated`, `requests_correlated` : what holds of all requests of a run.
-/

namespace CoqConsole

/-- A result or a refusal is what the first answer to the request says. -/
def Earned (log : List (Nat × Json)) (id : Nat) (method params : Json) (r : Except Failure Json) : Prop :=
  (∃ message, Keyed.get? id log = some message ∧ r = Line.resultOf method params message) ∨
    ∃ cause, r = .error cause ∧ cause.isRefusal = false

theorem Earned.append {log : List (Nat × Json)} {id : Nat} {method params : Json} {r : Except Failure Json}
    (h : Earned log id method params r) (later : List (Nat × Json)) : Earned (log ++ later) id method params r := by
  rcases h with ⟨message, hfirst, hr⟩ | hother
  · exact .inl ⟨message, by rw [Keyed.get?_append, hfirst, Option.some_or], hr⟩
  · exact .inr hother

/-- No failure to send a request is one of the server's. -/
theorem Wired.EndsAs.isRefusal {w : Wired} {late : Bool} {wait : Wait} {cause : Failure}
    (h : w.EndsAs late wait (.failed cause)) : cause.isRefusal = false := by
  rcases h.isProper.failure cause rfl with rfl | rfl <;> rfl

theorem earned_collect {w : Wired} {waited : List Nat} {log : List (Nat × Json)} (hfit : Fit waited w.books)
    (htold : Told w.books log) {late : Bool} {wait : Wait} {ending : Ending} (hends : w.EndsAs late wait ending) (id : Nat)
    (method params : Json) : Earned log id method params ((Line.collect id method params ending).run.run w).1 := by
  have hcollects := Line.collects id method params ending w
  generalize ((Line.collect id method params ending).run.run w).1 = r at hcollects
  cases hcollects with
  | late => exact .inr ⟨_, rfl, rfl⟩
  | unsent cause => exact .inr ⟨cause, rfl, hends.isRefusal⟩
  | unanswered => exact .inr ⟨_, rfl, rfl⟩
  | failed hkept => exact .inr ⟨_, rfl, hfit.transport id _ hkept⟩
  | answered hkept hresult => exact .inl ⟨_, htold.first id _ (Keyed.mem_of_get? hkept), hresult.symm⟩

/-- Nothing is pending under the number of a request whose answer was collected, however its wait ended. -/
theorem notMem_pending_collect {w : Wired} {waited : List Nat} {id : Nat} (hfit : Fit waited w.books)
    (hid : id ∈ waited) (method params : Json) (ending : Ending) :
    id ∉ ((Line.collect id method params ending).run.run w).2.line.pending := by
  have hperm : (id :: waited.erase id).Perm waited := (List.perm_cons_erase hid).symm
  have hheld := Line.ensures_collect id method params ending w.books _ w ⟨.refl _, hfit.perm hperm⟩
  have hnot : id ∉ waited.erase id := fun hmem => (List.Nodup.mem_erase_iff hfit.single).mp hmem |>.1 rfl
  exact fun hmem => hnot (hheld.fit.pending_waited id hmem)

/-! ## The message of a request -/

/-- What is written, and to whom, where a request is made under a number: nothing if there is no process to write to. -/
def Wired.requested (w : Wired) (id : Nat) (method params : Json) : List (Nat × Json) :=
  (w.running?.map fun p =>
    (p, .object [("jsonrpc", .text "2.0"), ("id", .int id), ("method", method), ("params", params)])).toList

theorem wire_transmit (id : Nat) (method params timeout : Json) (w : Wired) :
    ((Line.transmit id method params timeout).run.run w).2.host.wire = w.host.wire ++ w.requested id method params := by
  have htransmits := Line.transmits id method params timeout w
  generalize (Line.transmit id method params timeout).run.run w = out at htransmits
  obtain ⟨r, w'⟩ := out
  cases htransmits with
  | silent hp =>
    rw [Wired.requested, hp]
    exact (List.append_nil _).symm
  | broken hp hhost | held hp hhost | unlimited hp hhost | asked hp hhost =>
    rw [Wired.requested, hp, hhost]
    rfl

/-- A request is written under the number that it takes, whatever comes of it. -/
theorem wire_post (method params timeout : Json) (w : Wired) :
    ((Line.post method params timeout).run.run w).2.host.wire =
      w.host.wire ++ w.requested w.line.nextId method params := by
  have hwire := wire_transmit w.line.nextId method params timeout (Line.issued w)
  rw [Line.run_post]
  generalize (Line.transmit w.line.nextId method params timeout).run.run (Line.issued w) = out at hwire
  obtain ⟨_ | _, w'⟩ := out <;> exact hwire

namespace Circuit

variable {c : Circuit} {log : List (Nat × Json)} {n i : Nat} {method params : Json}

/-! ## A call that asked -/

/-- The call `n` asked with the request `i`, and waits with it or ended with its outcome. -/
structure Asked (c : Circuit) (log : List (Nat × Json)) (n i : Nat) (method params : Json) : Prop where
  used : i < c.wired.line.nextId
  stands : (∃ wait, wait.ids = [i] ∧ (n, ⟨wait, .request i method params⟩) ∈ c.calls) ∨
    i ∉ c.waited ∧ ∃ r, (n, r) ∈ c.done ∧ Earned log i method params r

/-- A call that asked ends with what is collected. -/
theorem resumed_request {s : Suspended} {late : Bool} {ending : Ending} (n : Nat)
    (h : (Line.resume late s).run.run c.wired = (Line.conclude ending (.request i method params)).run.run c.wired) :
    c.resumed n s late =
      { c with
        calls := Keyed.erase n c.calls
        wired := ((Line.collect i method params ending).run.run c.wired).2
        done := c.done ++ [(n, ((Line.collect i method params ending).run.run c.wired).1)] } := by
  simp only [resumed, h, Line.conclude, run_bind]
  rcases (Line.collect i method params ending).run.run c.wired with ⟨_ | _, _⟩ <;> rfl

theorem Asked.append (h : Asked c log n i method params) (later : List (Nat × Json)) :
    Asked c (log ++ later) n i method params where
  used := h.used
  stands := h.stands.imp_right fun ⟨hwaited, r, hdone, hearned⟩ => ⟨hwaited, r, hdone, hearned.append later⟩

theorem asked_after (h : Sound c) (htold : Told c.wired.books log) (hasked : Asked c log n i method params)
    (e : Event) : Asked (c.after e) (log ++ (c.reply? e).toList) n i method params := by
  have hprogress := progress_after h e
  have hused : i < (c.after e).wired.line.nextId := Nat.lt_of_lt_of_le hasked.used hprogress.nextId_le
  rcases hasked.stands with ⟨wait, hids, hcall⟩ | ⟨hwaited, r, hdone, hearned⟩
  · rcases hprogress.calls _ hcall with hcall' | ⟨late, -, heq⟩
    · exact ⟨hused, .inl ⟨wait, hids, hcall'⟩⟩
    · rcases Line.resume_cases late ⟨wait, .request i method params⟩ c.wired with
        ⟨ending, hends, hrun⟩ | ⟨id, p, cleared, timeout, limit, hwait, -, -, hrun⟩
      · rw [resumed_request n hrun] at heq
        refine ⟨hused, .inr ⟨fun hmem => ?_, _, ?_, (earned_collect h.fit htold hends i method params).append _⟩⟩
        · -- Calls under way wait for different requests, so none of the others waits for `i`.
          have hperm := waited_perm h.calls_single ((Keyed.get?_eq_some h.calls_single).mpr hcall)
          have hsingle := hperm.nodup_iff.mpr h.fit.single
          rw [Suspended.ids, hids] at hsingle
          rw [heq] at hmem
          exact (List.nodup_cons.mp hsingle).1 hmem
        · rw [heq]
          exact List.mem_append_right _ (List.mem_singleton.mpr rfl)
      · -- The request got through: the call waits for its answer from now on.
        have hid : id = i := List.singleton_inj.mp ((congrArg Wait.ids hwait).symm.trans hids)
        refine ⟨hused, .inl ⟨.answer id limit, by rw [hid, Wait.ids], ?_⟩⟩
        rw [heq, resumed_eq, hrun]
        exact List.mem_append_right _ (List.mem_singleton.mpr rfl)
  · refine ⟨hused, .inr ⟨fun hmem => ?_, r, hprogress.done _ hdone, hearned.append _⟩⟩
    rcases hprogress.waited i hmem with hmem | hle
    · exact hwaited hmem
    · exact Nat.not_lt.mpr hle hasked.used

theorem asked_follow (h : Sound c) (htold : Told c.wired.books log) (hasked : Asked c log n i method params)
    (es : List Event) : Asked (c.follow es) (log ++ c.replies es) n i method params := by
  induction es generalizing c log with
  | nil =>
    rw [replies, List.append_nil]
    exact hasked
  | cons e es ih =>
    rw [replies, ← List.append_assoc]
    exact ih (progress_after h e).sound (told_after h htold e) (asked_after h htold hasked e)

/-- A call that asks ends, or waits with its request. -/
theorem after_ask (c : Circuit) (method params timeout : Json) :
    c.after (.ask method params timeout) =
      match (Line.post method params timeout).run.run c.wired with
      | (.ok (id, wait), w) => { c with
          wired := w, made := c.made + 1, calls := c.calls ++ [(c.made, ⟨wait, .request id method params⟩)] }
      | (.error cause, w) => { c with wired := w, made := c.made + 1, done := c.done ++ [(c.made, .error cause)] } := by
  simp only [after, call, run, Line.ask, run_bind]
  rcases (Line.post method params timeout).run.run c.wired with ⟨_ | _, _⟩ <;> rfl

/-- A call that asks takes the next number for its request. -/
theorem asked_ask (h : Sound c) (method params timeout : Json) (log : List (Nat × Json)) :
    Asked (c.after (.ask method params timeout)) log c.made c.wired.line.nextId method params := by
  have hposted := Line.posted method params timeout h.fit
  rw [after_ask]
  generalize (Line.post method params timeout).run.run c.wired = out at hposted
  obtain ⟨r, w⟩ := out
  have hused {c' : Circuit} (hw : c'.wired = w) : c.wired.line.nextId < c'.wired.line.nextId := by
    have hnext : w.line.nextId = c.wired.line.nextId + 1 := hposted.1
    rw [hw, hnext]
    exact Nat.lt_succ_self _
  cases r with
  | ok posted =>
    obtain ⟨id, wait⟩ := posted
    obtain ⟨-, rfl, -, hids⟩ := hposted
    exact ⟨hused rfl, .inl ⟨wait, hids, List.mem_append_right _ (List.mem_singleton.mpr rfl)⟩⟩
  | error cause =>
    obtain ⟨-, -, hcause⟩ := hposted
    refine ⟨hused rfl, .inr ⟨fun hmem => ?_, .error cause, ?_, .inr ⟨cause, rfl, hcause⟩⟩⟩
    · exact Nat.lt_irrefl _ (h.fit.below _ hmem)
    · exact List.mem_append_right _ (List.mem_singleton.mpr rfl)

theorem wire_ask (c : Circuit) (method params timeout : Json) :
    (c.after (.ask method params timeout)).wired.host.wire =
      c.wired.host.wire ++ c.wired.requested c.wired.line.nextId method params := by
  rw [after_ask, ← wire_post method params timeout]
  rcases (Line.post method params timeout).run.run c.wired with ⟨_ | _, _⟩ <;> rfl

/-! ## All requests of a run -/

/-- A line without callers and without requests, on a host to which nothing was written. -/
structure IsFresh (c : Circuit) : Prop where
  pending : c.wired.line.pending = []
  settled : c.wired.line.settled = []
  wire : c.wired.host.wire = []
  calls : c.calls = []
  done : c.done = []

theorem isFresh_fresh {host : Host} (hwire : host.wire = []) (handlers : List (String × Option Failure))
    (workdir : String) (command : List String) (environment : Json) (offered : List Json) :
    IsFresh ⟨⟨host, .fresh workdir command environment offered⟩, handlers, [], [], 0, [], .none⟩ :=
  ⟨rfl, rfl, hwire, rfl, rfl⟩

theorem IsFresh.sound (h : c.IsFresh) : Sound c := by
  have hwaited : c.waited = [] := by rw [waited, h.calls, List.flatMap_nil]
  have hbooks : c.wired.books = ⟨c.wired.line.nextId, [], [], []⟩ := by
    rw [Wired.books, h.pending, h.settled, h.wire, List.filterMap_nil]
  have htidy : Tidy c := by
    constructor <;> simp [h.calls, h.done, Keyed.keys]
  have hfit : Fit c.waited c.wired.books := by
    rw [hwaited, hbooks]
    constructor <;> simp [Keyed.keys]
  exact { htidy with fit := hfit }

theorem IsFresh.told (h : c.IsFresh) : Told c.wired.books [] := by
  have hbooks : c.wired.books = ⟨c.wired.line.nextId, [], [], []⟩ := by
    rw [Wired.books, h.pending, h.settled, h.wire, List.filterMap_nil]
  rw [hbooks]
  constructor <;> simp [Books.IsOpen, Keyed.keys]

/-- The call that asked at some point of a run, at its end. -/
theorem asked_run (hc : c.IsFresh) (before : List Event) (method params timeout : Json) (later : List Event) :
    Asked (c.follow (before ++ .ask method params timeout :: later))
      (c.replies (before ++ .ask method params timeout :: later)) (c.follow before).made
      (c.follow before).wired.line.nextId method params := by
  have hsound : Sound (c.follow before) := sound_follow hc.sound before
  have htold : Told (c.follow before).wired.books (c.replies before) := told_follow hc.sound hc.told before
  have hask := asked_ask hsound method params timeout (c.replies before)
  have htold' := told_after hsound htold (.ask method params timeout)
  have hlater := asked_follow (progress_after hsound _).sound htold' (hask.append _) later
  rw [follow_append, replies_append, replies, ← List.append_assoc]
  exact hlater

/-- An answer that comes twice, too late or for nobody is taken from the output, and that is all. -/
theorem after_read_stray {p : Nat} {message : Json} {rest : List UInt8} {target : Option Nat}
    (hin : c.wired.incoming? = some (p, message, rest)) (hanswer : message.IsAnswer target)
    (hstray : ∀ i, target = some i → ¬ c.wired.books.IsOpen i) :
    c.after (.move .read) = { c with wired := c.wired.consumed p rest } := by
  rw [after, apply, Wired.read_answer _ hin hanswer]
  cases target with
  | none => rfl
  | some i =>
    simp only [Line.settle_of_not_open (hstray i rfl)]
    rfl

theorem isAnswer_of_mem_replies {es : List Event} {message : Json} (h : (i, message) ∈ c.replies es) :
    message.IsAnswer (some i) := by
  induction es generalizing c with
  | nil => cases h
  | cons e es ih =>
    rcases List.mem_append.mp h with h | h
    · have hreply : c.reply? e = some (i, message) := Option.mem_toList.mp h
      cases e with
      | move m =>
        cases m with
        | read =>
          obtain ⟨hreply, -⟩ := Option.filter_eq_some_iff.mp hreply
          obtain ⟨⟨_, _, _⟩, -, hmap⟩ := Option.bind_eq_some_iff.mp hreply
          obtain ⟨_, hi, heq⟩ := Option.map_eq_some_iff.mp hmap
          cases heq
          exact Json.isAnswer_of_reply? hi
        | _ => cases hreply
      | _ => cases hreply
    · exact ih h

/-- How the requests of a run come out. -/
structure Correlated (c : Circuit) (es : List Event) : Prop where
  /-- Each request that was written has a number of its own, below the next. -/
  numbered : (c.follow es).wired.books.asked.Pairwise (· < ·) ∧
    ∀ i ∈ (c.follow es).wired.books.asked, i < (c.follow es).wired.line.nextId
  /-- A call ends at most once, and is under way no more. -/
  single : (Keyed.keys (c.follow es).done).Nodup ∧
    ∀ n ∈ Keyed.keys (c.follow es).done, n ∉ Keyed.keys (c.follow es).calls
  /-- What is pending is waited for by one call under way. -/
  pending : (c.follow es).waited.Nodup ∧
    ∀ i ∈ (c.follow es).wired.line.pending, ∃ call ∈ (c.follow es).calls, call.2.ids = [i]
  /-- What came in while its request was pending is an answer to that request. -/
  own : ∀ i message, (i, message) ∈ c.replies es → message.IsAnswer (some i) ∧
    (∀ k : Int, message.get? "id" = some (.int k) → k = i) ∧ ∀ s, message.get? "id" ≠ some (.text s)
  /-- A request takes the next number, is written under it and waits with it. If it cannot be written or does not get
  through, that is no refusal, and it is not pending. -/
  posted : ∀ method params timeout,
    let w := (c.follow es).wired
    let out := (Line.post method params timeout).run.run w
    out.2.line.nextId = w.line.nextId + 1 ∧ out.2.host.wire = w.host.wire ++ w.requested w.line.nextId method params ∧
      (∀ id wait, out.1 = .ok (id, wait) → id = w.line.nextId ∧ wait.ids = [id]) ∧
      ∀ cause, out.1 = .error cause → cause.isRefusal = false ∧ w.line.nextId ∉ out.2.line.pending
  /-- Whoever goes on with a request, answered or not, in time or too late, goes on with its outcome, and it is pending
  no more. -/
  collected : ∀ call ∈ (c.follow es).calls, ∀ i ∈ call.2.ids, ∀ late ending,
    (c.follow es).wired.EndsAs late call.2.wait ending → ∀ method params,
      let out := (Line.collect i method params ending).run.run (c.follow es).wired
      Earned (c.replies es) i method params out.1 ∧ i ∉ out.2.line.pending
  /-- A call that asked wrote its request under the next number. It waits with that number, or it ended with the outcome
  of its request, which is pending no more. -/
  asked : ∀ before method params timeout later, es = before ++ .ask method params timeout :: later →
    let asker := c.follow before
    let id := asker.wired.line.nextId
    (asker.after (.ask method params timeout)).wired.host.wire =
        asker.wired.host.wire ++ asker.wired.requested id method params ∧
      id < (c.follow es).wired.line.nextId ∧
      ((∃ wait, wait.ids = [id] ∧ (asker.made, ⟨wait, .request id method params⟩) ∈ (c.follow es).calls) ∨
        asker.made ∈ Keyed.keys (c.follow es).done) ∧
      ∀ r, (asker.made, r) ∈ (c.follow es).done →
        id ∉ (c.follow es).wired.line.pending ∧ Earned (c.replies es) id method params r
  /-- An answer that comes twice, too late or for nobody changes nothing. -/
  stray : ∀ p message rest target, (c.follow es).wired.incoming? = some (p, message, rest) →
    message.IsAnswer target → (∀ i, target = some i → ¬ (c.follow es).wired.books.IsOpen i) →
    (c.follow es).after (.move .read) = { c.follow es with wired := (c.follow es).wired.consumed p rest }

theorem requests_correlated (hc : c.IsFresh) (es : List Event) : Correlated c es := by
  have hsound : Sound (c.follow es) := sound_follow hc.sound es
  have htold : Told (c.follow es).wired.books (c.replies es) := told_follow hc.sound hc.told es
  exact
    { numbered := ⟨hsound.fit.asked_ascending, hsound.fit.asked_below⟩
      single := ⟨hsound.done_single, fun n hdone hcalls => hsound.apart n hcalls hdone⟩
      pending := by
        refine ⟨hsound.fit.single, fun i hi => ?_⟩
        obtain ⟨call, hcall, hids⟩ := List.mem_flatMap.mp (hsound.fit.pending_waited i hi)
        exact ⟨call, hcall, Suspended.ids_eq_of_mem hids⟩
      own := fun i message hmem => by
        have hanswer := isAnswer_of_mem_replies hmem
        exact ⟨hanswer, fun k => hanswer.int, hanswer.text⟩
      posted := fun method params timeout => by
        have hposted := Line.posted method params timeout hsound.fit
        refine ⟨hposted.1, wire_post _ _ _ _, fun id wait hmade => ?_, fun cause hcause => ?_⟩
        · rw [hmade] at hposted
          obtain ⟨-, rfl, -, hids⟩ := hposted
          exact ⟨rfl, hids⟩
        · rw [hcause] at hposted
          obtain ⟨-, hheld, hrefusal⟩ := hposted
          exact ⟨hrefusal, fun hmem => Nat.lt_irrefl _ (hsound.fit.below _ (hheld.fit.pending_waited _ hmem))⟩
      collected := fun call hcall i hi late ending hends method params =>
        ⟨earned_collect hsound.fit htold hends i method params,
          notMem_pending_collect hsound.fit (List.mem_flatMap.mpr ⟨call, hcall, hi⟩) method params ending⟩
      asked := fun before method params timeout later hes => by
        subst hes
        have hasked := asked_run hc before method params timeout later
        refine ⟨wire_ask _ _ _ _, hasked.used, ?_, fun r hr => ?_⟩
        · exact hasked.stands.imp_right fun ⟨_, r, hr, _⟩ => List.mem_map.mpr ⟨_, hr, rfl⟩
        · rcases hasked.stands with ⟨wait, -, hcall⟩ | ⟨hwaited, r', hr', hearned⟩
          · exact absurd hcall (hsound.notMem_calls hr _)
          · rw [hsound.eq_of_done hr hr']
            exact ⟨fun hmem => hwaited (hsound.fit.pending_waited _ hmem), hearned⟩
      stray := fun p message rest target hin hanswer hstray => after_read_stray hin hanswer hstray }

/-- A line to a server that says nothing of its own accord. -/
def mute : Circuit :=
  let behaviour : Behaviour := ⟨fun _ _ => [], true, .ends, fun _ => false, false⟩
  let host : Host := ⟨0, ⟨["ws"]⟩, [], 1, 2, fun _ => behaviour, [], [], [], []⟩
  ⟨⟨host, .fresh "." ["vscoqtop"] .null [.text "utf-16"]⟩, [], [], [], 0, [], .none⟩

/-- The server writes a message, and it is read. -/
def spoken (message : Json) : List Event := [.act 0 [.emit (Frame.encode message)], .move .read]

def answering (id : Json) (result : String) : Json := .object [("id", id), ("result", .text result)]

/-- Two requests are answered in reverse, after a request of the server and between useless answers. A third is answered
while it is held back, and a fourth does not get through. -/
def reversed : List Event :=
  [.start .null .null false, .ask (.text "a") .null .null, .ask (.text "b") .null .null] ++
    spoken (.object [("id", .int 2), ("method", .text "workspace/configuration")]) ++
    spoken (answering (.int 3) "second") ++ spoken (answering (.int 3) "again") ++
    spoken (answering (.text "2") "stray") ++ spoken (answering (.int 2) "first") ++
    [.move (.resume 2 false), .move (.resume 1 false)] ++
    [.act 0 [.intake .stalls], .ask (.text "c") .null .null] ++ spoken (answering (.int 4) "third") ++
    [.act 0 [.intake .flows], .move (.resume 3 false)] ++
    [.act 0 [.intake .stalls], .ask (.text "d") .null .null, .act 0 [.intake .closed], .move (.resume 4 true)]

def texts (c : Circuit) : List (Nat × String) :=
  c.done.filterMap fun (n, r) => match r with
    | .ok (.text s) => some (n, s)
    | _ => none

theorem requests_correlated_reversed :
    (mute.follow reversed).texts = [(2, "second"), (1, "first"), (3, "third")] ∧
      (Keyed.get? 4 (mute.follow reversed).done).isSome = true ∧ (mute.follow reversed).wired.line.pending = [1] ∧
      Keyed.keys (mute.replies reversed) = [3, 3, 2, 4] ∧ Correlated mute reversed :=
  ⟨by decide +kernel, by decide +kernel, by decide +kernel, by decide +kernel,
    requests_correlated (isFresh_fresh rfl _ _ _ _ _) reversed⟩

end Circuit
end CoqConsole
