import CoqConsole.Line.Circuit
import CoqConsole.Proofs.Line.Dispatching

/-!
# Runs of a line

A run is a list of events, in any order: calls are made, requests are given up, messages are read, calls go on in time
or too late, processes act, time goes on.

* `Circuit.Event`, `Circuit.after`, `Circuit.follow` : the runs; `exists_follow_of_step?` : the machine with its queue
  runs so;
* `Circuit.replies` : the answers that came in while their requests were pending, in order;
* `Circuit.Sound` : the calls under way and the ended ones are numbered apart, and the books fit them;
* `Told` : the answers that are kept are the first that came in;
* `Circuit.Progress`, `progress_after` : what an event does; `sound_follow`, `mem_done_follow`, `told_follow` : what a
  run keeps.
-/

namespace CoqConsole

/-- Whether a wait is over, in time or too late. -/
def Wired.isOver (w : Wired) (late : Bool) (wait : Wait) : Bool := if late then w.isLate wait else w.isMet wait

namespace Circuit

/-- What can happen to a line and its callers. -/
inductive Event
  | ask (method params timeout : Json)
  | start (options timeout : Json) (brief : Bool)
  | stop
  | notify (method params : Json)
  | cancel (id : Json)
  | move (move : Move)
  /-- A process does something of its own accord. -/
  | act (process : Nat) (acts : List Act)
  | tick (now : Int)
  | queue (rota : Rota Move)

def after (c : Circuit) : Event → Circuit
  | .ask method params timeout => (c.call (Line.ask method params timeout)).2
  | .start options timeout brief => (c.call (Line.start options timeout brief)).2
  | .stop => (c.call (Line.stop .null)).2
  | .notify method params => (c.run (Line.notify method params)).2
  | .cancel id => (c.run (Line.cancel id)).2
  | .move m => c.apply m
  | .act p acts => { c with wired := { c.wired with host := c.wired.host.command p acts } }
  | .tick now => clockwork.setNow now c
  | .queue rota => { c with rota }

def follow (c : Circuit) (es : List Event) : Circuit := es.foldl after c

/-- The answer to a pending request that comes in with an event. -/
def reply? (c : Circuit) : Event → Option (Nat × Json)
  | .move .read => c.wired.reply?.filter fun (id, _) => c.wired.line.pending.contains id
  | _ => none

/-- The answers to pending requests that come in with a run. -/
def replies (c : Circuit) : List Event → List (Nat × Json)
  | [] => []
  | e :: es => (c.reply? e).toList ++ (c.after e).replies es

theorem follow_append (c : Circuit) (es fs : List Event) : c.follow (es ++ fs) = (c.follow es).follow fs :=
  List.foldl_append

theorem replies_append (c : Circuit) (es fs : List Event) :
    c.replies (es ++ fs) = c.replies es ++ (c.follow es).replies fs := by
  induction es generalizing c with
  | nil => rfl
  | cons e es ih => rw [List.cons_append, replies, ih, replies, List.append_assoc, follow, follow, List.foldl_cons]

/-- Each step of the machine with its queue is such a run. -/
theorem exists_follow_of_step? {c c' : Circuit} (h : clockwork.step? c = some c') : ∃ es, c' = c.follow es := by
  rcases roster.step?_cases h with ⟨rota, rfl | ⟨m, rfl | ⟨rota', rfl⟩⟩⟩
  · exact ⟨[.queue rota], rfl⟩
  · exact ⟨[.queue rota, .move m], rfl⟩
  · exact ⟨[.queue rota, .move m, .queue rota'], rfl⟩

/-! ## Calls -/

/-- The requests whose answers the calls under way wait for. -/
def waited (c : Circuit) : List Nat := c.calls.flatMap fun call => call.2.ids

/-- Calls are numbered as they are made; each is under way or ended, at most once. -/
structure Tidy (c : Circuit) : Prop where
  planned : ∀ call ∈ c.calls, call.2.ids = call.2.plan.ids
  calls_single : (Keyed.keys c.calls).Nodup
  done_single : (Keyed.keys c.done).Nodup
  calls_made : ∀ n ∈ Keyed.keys c.calls, n < c.made
  done_made : ∀ n ∈ Keyed.keys c.done, n < c.made
  apart : ∀ n ∈ Keyed.keys c.calls, n ∉ Keyed.keys c.done

/-- The calls are tidy, and the books fit those that are under way. -/
structure Sound (c : Circuit) : Prop extends Tidy c where
  fit : Fit c.waited c.wired.books

theorem call_eq (c : Circuit) (op : Line.Op Standing) :
    (c.call op).2 = ({ c with wired := (op.run.run c.wired).2, made := c.made + 1 } : Circuit).stand c.made
      (op.run.run c.wired).1 :=
  rfl

variable {c : Circuit} {b : Books} {own : List Nat} {r : Except Failure Standing} {n : Nat}

/-- A call ends once. -/
theorem Tidy.eq_of_done (h : Tidy c) {r r' : Except Failure Json} (hr : (n, r) ∈ c.done) (hr' : (n, r') ∈ c.done) :
    r = r' := by
  have hget := (Keyed.get?_eq_some h.done_single).mpr hr
  rw [(Keyed.get?_eq_some h.done_single).mpr hr'] at hget
  exact (Option.some.inj hget).symm

/-- A call that has ended is under way no more. -/
theorem Tidy.notMem_calls (h : Tidy c) {r : Except Failure Json} (hr : (n, r) ∈ c.done) (s : Suspended) :
    (n, s) ∉ c.calls := fun hcall =>
  h.apart n (List.mem_map.mpr ⟨_, hcall, rfl⟩) (List.mem_map.mpr ⟨_, hr, rfl⟩)

/-- How a call goes on keeps the calls tidy. -/
theorem Tidy.stand (h : Tidy c) (hn : n < c.made) (hcalls : n ∉ Keyed.keys c.calls) (hdone : n ∉ Keyed.keys c.done)
    {waited : List Nat} (hstands : Line.Stands b own waited r c.wired) : Tidy (c.stand n r) := by
  have hended (r : Except Failure Json) : Tidy { c with done := c.done ++ [(n, r)] } :=
    { h with
      done_single := Keyed.nodup_append_single h.done_single hdone
      done_made := Keyed.forall_keys_append_single h.done_made hn
      apart := fun k hk hk' => by
        rw [Keyed.keys_append_single] at hk'
        rcases List.mem_append.mp hk' with hk' | hk'
        · exact h.apart k hk hk'
        · rw [List.mem_singleton.mp hk'] at hk
          exact hcalls hk }
  rcases r with cause | (v | s)
  · exact hended _
  · exact hended _
  · exact
      { h with
        planned := List.forall_mem_append.mpr ⟨h.planned, List.forall_mem_singleton.mpr hstands.2.1⟩
        calls_single := Keyed.nodup_append_single h.calls_single hcalls
        calls_made := Keyed.forall_keys_append_single h.calls_made hn
        apart := Keyed.forall_keys_append_single h.apart hdone }

theorem held_stand (h : Line.Stands b own c.waited r c.wired) : Line.Held b (c.stand n r).waited (c.stand n r).wired := by
  rcases r with cause | (v | s)
  · exact h
  · exact h
  · have hwaited : (c.stand n (.ok (.waiting s))).waited = c.waited ++ s.ids := by
      simp [waited, stand, List.flatMap_append]
    rw [hwaited]
    exact h.1

theorem mem_waited_stand {i : Nat} (hi : i ∈ (c.stand n r).waited) :
    i ∈ c.waited ∨ ∃ s, r = .ok (.waiting s) ∧ i ∈ s.ids := by
  rcases r with _ | (_ | s)
  · exact .inl hi
  · exact .inl hi
  · rw [waited, stand, List.flatMap_append] at hi
    rcases List.mem_append.mp hi with hi | hi
    · exact .inl hi
    · obtain ⟨call, hcall, hi⟩ := List.mem_flatMap.mp hi
      rw [List.mem_singleton.mp hcall] at hi
      exact .inr ⟨s, rfl, hi⟩

theorem waited_stand (h : Line.Stands b own c.waited r c.wired) {i : Nat} (hi : i ∈ (c.stand n r).waited) :
    i ∈ c.waited ∨ i ∈ own ∨ b.nextId ≤ i := by
  refine (mem_waited_stand hi).imp_right fun hs => ?_
  obtain ⟨s, rfl, hmem⟩ := hs
  exact h.2.2 i hmem

/-! ## What an event does -/

def resumed (c : Circuit) (n : Nat) (s : Suspended) (late : Bool) : Circuit :=
  let (r, wired) := (Line.resume late s).run.run c.wired
  { c with calls := Keyed.erase n c.calls, wired }.stand n r

theorem resumed_eq (c : Circuit) (n : Nat) (s : Suspended) (late : Bool) :
    c.resumed n s late = ({ c with
      calls := Keyed.erase n c.calls
      wired := ((Line.resume late s).run.run c.wired).2 } : Circuit).stand n
        ((Line.resume late s).run.run c.wired).1 :=
  rfl

/-- From one state to the next: the books go on with the answer that came in, if one did, and a call stays under way
unless it goes on. -/
structure Progress (c : Circuit) (reply : Option (Nat × Json)) (c' : Circuit) : Prop where
  sound : Sound c'
  calls : ∀ call ∈ c.calls, call ∈ c'.calls ∨
    ∃ late, c.wired.isOver late call.2.wait = true ∧ c' = c.resumed call.1 call.2 late
  nextId_le : c.wired.books.nextId ≤ c'.wired.books.nextId
  waited : ∀ i ∈ c'.waited, i ∈ c.waited ∨ c.wired.books.nextId ≤ i
  done : ∀ entry ∈ c.done, entry ∈ c'.done
  calm : reply = none → Calm c.wired.books c'.wired.books
  settled : ∀ i message, reply = some (i, message) →
    i ∈ c.wired.books.pending ∧ c'.wired.books = c.wired.books.settle i (.ok message)

theorem progress_stand {c₁ : Circuit} (h : Tidy c₁) (hn : n < c₁.made) (hcalls : n ∉ Keyed.keys c₁.calls)
    (hdone : n ∉ Keyed.keys c₁.done) (hstands : Line.Stands c.wired.books own c₁.waited r c₁.wired)
    (hkept : ∀ call ∈ c.calls, call ∈ c₁.calls ∨
      ∃ late, c.wired.isOver late call.2.wait = true ∧ c₁.stand n r = c.resumed call.1 call.2 late)
    (hown : ∀ i ∈ own, i ∈ c.waited) (hwaited : ∀ i ∈ c₁.waited, i ∈ c.waited) (hsame : c₁.done = c.done) :
    Progress c none (c₁.stand n r) where
  sound := { h.stand hn hcalls hdone hstands with fit := (held_stand hstands).fit }
  calls := fun call hcall => (hkept call hcall).imp_left fun hmem => by
    rcases r with _ | (_ | _)
    · exact hmem
    · exact hmem
    · exact List.mem_append_left _ hmem
  nextId_le := (held_stand hstands).calm.nextId_le
  waited := fun i hi => by
    rcases waited_stand hstands hi with hi | hi | hle
    · exact .inl (hwaited i hi)
    · exact .inl (hown i hi)
    · exact .inr hle
  done := fun entry hentry => by
    rw [← hsame] at hentry
    rcases r with _ | (_ | _)
    · exact List.mem_append_left _ hentry
    · exact List.mem_append_left _ hentry
    · exact hentry
  calm := fun _ => (held_stand hstands).calm
  settled := nofun

theorem progress_call (h : Sound c) {op : Line.Op Standing}
    (hop : ∀ b waited, Ensures (Line.Held b waited) op (Line.Stands b [] waited)) : Progress c none (c.call op).2 := by
  have hstands := hop c.wired.books c.waited c.wired ⟨.refl _, h.fit⟩
  have htidy : Tidy { c with wired := (op.run.run c.wired).2, made := c.made + 1 } :=
    { h.toTidy with
      calls_made := fun k hk => Nat.lt_succ_of_lt (h.calls_made k hk)
      done_made := fun k hk => Nat.lt_succ_of_lt (h.done_made k hk) }
  rw [call_eq]
  refine progress_stand htidy (Nat.lt_succ_self _) (fun hmem => ?_) (fun hmem => ?_) hstands (fun _ => .inl)
    (List.forall_mem_nil _) (fun i hi => hi) rfl
  · exact Nat.lt_irrefl _ (h.calls_made _ hmem)
  · exact Nat.lt_irrefl _ (h.done_made _ hmem)

/-- What the calls but one wait for, together with what that one waits for. -/
theorem waited_perm (single : (Keyed.keys c.calls).Nodup) {s : Suspended} (hs : Keyed.get? n c.calls = some s) :
    (s.ids ++ waited { c with calls := Keyed.erase n c.calls }).Perm c.waited :=
  List.Perm.flatMap_right (fun call : Nat × Suspended => call.2.ids) (Keyed.perm_erase single hs)

/-- A call goes on if it is under way and its wait is over. -/
theorem resume_cases (c : Circuit) (n : Nat) (late : Bool) :
    c.apply (.resume n late) = c ∨
      ∃ s, Keyed.get? n c.calls = some s ∧ c.wired.isOver late s.wait = true ∧
        c.apply (.resume n late) = c.resumed n s late := by
  unfold apply
  simp only
  cases hs : Keyed.get? n c.calls with
  | none => exact .inl rfl
  | some s =>
    simp only
    by_cases hover : (if late = true then c.wired.isLate s.wait else c.wired.isMet s.wait) = true
    · rw [if_pos hover]
      exact .inr ⟨s, rfl, hover, rfl⟩
    · rw [if_neg hover]
      exact .inl rfl

theorem progress_resume (h : Sound c) {s : Suspended} (hs : Keyed.get? n c.calls = some s) {late : Bool}
    (hover : c.wired.isOver late s.wait = true) : Progress c none (c.resumed n s late) := by
  have hperm := waited_perm h.calls_single hs
  have hplan : s.ids = s.plan.ids := h.planned (n, s) (Keyed.mem_of_get? hs)
  have hfit := h.fit.perm hperm
  have hstands := Line.ensures_resume c.wired.books _ late hplan c.wired ⟨.refl _, hfit⟩
  have hmem : n ∈ Keyed.keys c.calls := List.mem_map.mpr ⟨_, Keyed.mem_of_get? hs, rfl⟩
  have htidy : Tidy { c with
      calls := Keyed.erase n c.calls
      wired := ((Line.resume late s).run.run c.wired).2 } :=
    { h.toTidy with
      planned := fun call hcall => h.planned call (Keyed.mem_erase.mp hcall).1
      calls_single := Keyed.nodup_erase h.calls_single
      calls_made := fun k hk => h.calls_made k (Keyed.mem_keys_erase.mp hk).1
      apart := fun k hk => h.apart k (Keyed.mem_keys_erase.mp hk).1 }
  refine progress_stand htidy (h.calls_made n hmem) (fun hn => ?_) (h.apart n hmem) hstands (fun call hcall => ?_)
    (fun i hi => hperm.mem_iff.mp (List.mem_append_left _ hi))
    (fun i hi => hperm.mem_iff.mp (List.mem_append_right _ hi)) rfl
  · exact (Keyed.mem_keys_erase.mp hn).2 rfl
  · obtain ⟨k, s'⟩ := call
    by_cases hk : k = n
    · subst hk
      rw [(Keyed.get?_eq_some h.calls_single).mpr hcall] at hs
      cases hs
      exact .inr ⟨late, hover, rfl⟩
    · exact .inl (Keyed.mem_erase.mpr ⟨hcall, hk⟩)

/-- What leaves the calls alone and keeps the books fit. -/
theorem progress_held (h : Sound c) {c' : Circuit} (hcalls : c'.calls = c.calls) (hdone : c'.done = c.done)
    (hmade : c'.made = c.made) (hheld : Line.Held c.wired.books c.waited c'.wired) : Progress c none c' := by
  obtain ⟨wired, handlers, received, calls, made, done, rota⟩ := c'
  subst hcalls hdone hmade
  exact
    { sound := { h.toTidy with fit := hheld.fit }
      calls := fun _ => .inl
      nextId_le := hheld.calm.nextId_le
      waited := fun i hi => .inl hi
      done := fun entry hentry => hentry
      calm := fun _ => hheld.calm
      settled := nofun }

theorem progress_of_books_eq (h : Sound c) {c' : Circuit} (hcalls : c'.calls = c.calls) (hdone : c'.done = c.done)
    (hmade : c'.made = c.made) (hbooks : c'.wired.books = c.wired.books) : Progress c none c' :=
  progress_held h hcalls hdone hmade ⟨hbooks ▸ .refl _, hbooks ▸ h.fit⟩

theorem progress_read_other (h : Sound c) (hreply : c.wired.reply? = none) : Progress c none (c.apply .read) := by
  unfold apply
  simp only
  split
  · next w handed hread =>
    have hheld : Line.Held c.wired.books c.waited w := by
      rcases Wired.books_read _ hreply hread with hbooks | hbooks
      · exact ⟨hbooks ▸ .refl _, hbooks ▸ h.fit⟩
      · exact Line.Held.fail ⟨.refl _, h.fit⟩ rfl hbooks
    cases handed with
    | none => exact progress_held h rfl rfl rfl hheld
    | some handed =>
      unfold handle
      simp only
      split
      · exact progress_held h rfl rfl rfl ⟨hheld.calm, hheld.fit⟩
      · exact progress_held h rfl rfl rfl hheld
  · exact progress_of_books_eq h rfl rfl rfl rfl

/-- An answer counts if its request is pending. -/
theorem progress_read_answer (h : Sound c) {i : Nat} {message : Json} (hreply : c.wired.reply? = some (i, message)) :
    Progress c (c.reply? (.move .read)) (c.apply .read) := by
  obtain ⟨⟨p, _, rest⟩, hin, hmap⟩ := Option.bind_eq_some_iff.mp hreply
  obtain ⟨_, hi, heq⟩ := Option.map_eq_some_iff.mp hmap
  cases heq
  have hbooks : ({ c.wired.consumed p rest with line := c.wired.line.settle i (.ok message) } : Wired).books =
      c.wired.books.settle i (.ok message) := Line.books_settle (c.wired.consumed p rest) i (.ok message)
  rw [apply, Wired.read_answer _ hin (Json.isAnswer_of_reply? hi)]
  by_cases hpending : i ∈ c.wired.line.pending
  · have hsome : c.reply? (.move .read) = some (i, message) := by
      rw [reply?, hreply, Option.filter_some, if_pos (List.contains_iff_mem.mpr hpending)]
    rw [hsome]
    exact
      { sound := { h.toTidy with fit := hbooks ▸ h.fit.settle i nofun }
        calls := fun _ => .inl
        nextId_le := Nat.le_of_eq (by simp only [hbooks, Books.nextId_settle])
        waited := fun j hj => .inl hj
        done := fun entry hentry => hentry
        calm := nofun
        settled := fun j message' heq => by
          cases heq
          exact ⟨hpending, hbooks⟩ }
  · have hnone : c.reply? (.move .read) = none := by
      rw [reply?, hreply, Option.filter_some, if_neg (fun hc => hpending (List.contains_iff_mem.mp hc))]
    rw [hnone]
    exact progress_of_books_eq h rfl rfl rfl (hbooks.trans (Books.settle_of_not_open (fun ho => hpending ho.1) _))

theorem progress_read (h : Sound c) : Progress c (c.reply? (.move .read)) (c.apply .read) := by
  cases hreply : c.wired.reply? with
  | none =>
    have hnone : c.reply? (.move .read) = none := by rw [reply?, hreply, Option.filter_none]
    rw [hnone]
    exact progress_read_other h hreply
  | some reply => exact progress_read_answer h hreply

theorem progress_after (h : Sound c) (e : Event) : Progress c (c.reply? e) (c.after e) := by
  cases e with
  | ask method params timeout => exact progress_call h fun b waited => Line.ensures_ask b [] waited method params timeout
  | start options timeout brief =>
    exact progress_call h fun b waited => Line.ensures_start b [] waited options timeout brief
  | stop => exact progress_call h fun b waited => Line.ensures_stop b [] waited .null
  | notify method params =>
    exact progress_held h rfl rfl rfl ((Line.Keeps.notify method params).ensures _ ⟨.refl _, h.fit⟩)
  | cancel id => exact progress_held h rfl rfl rfl (Line.ensures_cancel id _ _ _ ⟨.refl _, h.fit⟩)
  | move m =>
    cases m with
    | wake p => exact progress_of_books_eq h rfl rfl rfl rfl
    | read => exact progress_read h
    | listen p =>
      show Progress c none (c.apply (.listen p))
      unfold apply
      simp only
      split
      · next w hlisten => exact progress_of_books_eq h rfl rfl rfl (Wired.books_listen hlisten)
      · exact progress_of_books_eq h rfl rfl rfl rfl
    | resume n late =>
      show Progress c none (c.apply (.resume n late))
      rcases c.resume_cases n late with heq | ⟨s, hs, hover, heq⟩
      · rw [heq]
        exact progress_of_books_eq h rfl rfl rfl rfl
      · rw [heq]
        exact progress_resume h hs hover
  | act p acts => exact progress_of_books_eq h rfl rfl rfl rfl
  | tick now => exact progress_of_books_eq h rfl rfl rfl rfl
  | queue rota => exact progress_of_books_eq h rfl rfl rfl rfl

/-! ## What a run keeps -/

theorem sound_follow (h : Sound c) (es : List Event) : Sound (c.follow es) := by
  induction es generalizing c with
  | nil => exact h
  | cons e es ih => exact ih (progress_after h e).sound

/-- What has ended stays so. -/
theorem mem_done_follow (h : Sound c) {entry : Nat × Except Failure Json} (hentry : entry ∈ c.done) (es : List Event) :
    entry ∈ (c.follow es).done := by
  induction es generalizing c with
  | nil => exact hentry
  | cons e es ih => exact ih (progress_after h e).sound ((progress_after h e).done entry hentry)

end Circuit

/-- Of the answers to a request that came in, the first is kept; and one that waits for its first answer had none. -/
structure Told (b : Books) (log : List (Nat × Json)) : Prop where
  first : ∀ i message, (i, .ok message) ∈ b.settled → Keyed.get? i log = some message
  unheard : ∀ i, b.IsOpen i → i ∉ Keyed.keys log
  below : ∀ i ∈ Keyed.keys log, i < b.nextId

namespace Told

variable {b b' : Books} {log : List (Nat × Json)}

theorem calm (h : Told b log) (hcalm : Calm b b') : Told b' log where
  first := fun i message hmem => h.first i message (hcalm.settled i message hmem)
  unheard := fun i hopen hmem => by
    rcases hcalm.isOpen i hopen with hopen | hle
    · exact h.unheard i hopen hmem
    · have := h.below i hmem
      omega
  below := fun i hmem => Nat.lt_of_lt_of_le (h.below i hmem) hcalm.nextId_le

theorem settle (h : Told b log) {i : Nat} (hi : i < b.nextId) (message : Json) :
    Told (b.settle i (.ok message)) (log ++ [(i, message)]) where
  first := fun j message' hmem => by
    rw [Keyed.get?_append]
    -- An open request was not heard of before, so its answer is the first in the log.
    rcases b.settle_cases i (.ok message) with ⟨hopen, heq⟩ | ⟨-, heq⟩
    · rw [heq] at hmem
      rcases List.mem_append.mp hmem with hmem | hmem
      · rw [h.first j message' hmem, Option.some_or]
      · cases List.mem_singleton.mp hmem
        rw [Keyed.get?_eq_none.mpr (h.unheard i hopen), Option.none_or]
        exact if_pos rfl
    · rw [heq] at hmem
      rw [h.first j message' hmem, Option.some_or]
  unheard := fun j hopen hmem => by
    rw [Keyed.keys_append_single] at hmem
    rcases b.settle_cases i (.ok message) with ⟨hi, heq⟩ | ⟨hi, heq⟩
    · rw [heq] at hopen
      obtain ⟨hpending, hsettled⟩ := hopen
      rw [Keyed.keys_append_single] at hsettled
      rcases List.mem_append.mp hmem with hmem | hmem
      · exact h.unheard j ⟨hpending, fun hj => hsettled (List.mem_append_left _ hj)⟩ hmem
      · exact hsettled (List.mem_append_right _ hmem)
    · rw [heq] at hopen
      rcases List.mem_append.mp hmem with hmem | hmem
      · exact h.unheard j hopen hmem
      · rw [List.mem_singleton.mp hmem] at hopen
        exact hi hopen
  below := by
    rw [Books.nextId_settle]
    exact Keyed.forall_keys_append_single h.below hi

end Told

namespace Circuit

variable {c : Circuit}

theorem told_after {log : List (Nat × Json)} (h : Sound c) (htold : Told c.wired.books log) (e : Event) :
    Told (c.after e).wired.books (log ++ (c.reply? e).toList) := by
  have hprogress := progress_after h e
  cases hreply : c.reply? e with
  | none =>
    rw [Option.toList_none, List.append_nil]
    exact htold.calm (hprogress.calm hreply)
  | some reply =>
    obtain ⟨i, message⟩ := reply
    obtain ⟨hpending, hbooks⟩ := hprogress.settled i message hreply
    rw [hbooks]
    exact htold.settle (h.fit.below i (h.fit.pending_waited i hpending)) message

theorem told_follow {log : List (Nat × Json)} (h : Sound c) (htold : Told c.wired.books log) (es : List Event) :
    Told (c.follow es).wired.books (log ++ c.replies es) := by
  induction es generalizing c log with
  | nil =>
    rw [replies, List.append_nil]
    exact htold
  | cons e es ih =>
    rw [replies, ← List.append_assoc]
    exact ih (progress_after h e).sound (told_after h htold e)

end Circuit
end CoqConsole
