import CoqConsole.Proofs.Session.Upkeep

/-!
# Buffers that are held, and what an edit of one sets off

Buffers that are held call the session on each event of theirs, and the others never do. This needs neither distinct
addresses nor a look at the marks, so it holds of more desks than can be `Tied`.

* `Desk.Holds` : the session holds the buffer of that number;
* `Desk.Bound` : the buffers that it holds serve it and all others are silent; `Bound.upkeep` keeps it so;
* `Bound.run_emit` : so an event comes to the session's one reaction, or to nothing;
* `Bound.run_moveCursor`, `Bound.run_replaceText`, `Bound.run_closeBuffer` : and an edit to what that reaction does.
-/

namespace CoqConsole

/-! ## One listener -/

theorem exists_getElem?_of_filter_eq {α : Type} {p : α → Bool} {xs : List α} {x : α} (h : xs.filter p = [x]) :
    ∃ k : Nat, xs[k]? = some x ∧ ∀ (i : Nat) (y : α), xs[i]? = some y → p y = true → i = k := by
  obtain ⟨before, rest, rfl, hbefore, -, hrest⟩ := List.filter_eq_cons_iff.mp h
  rw [List.filter_eq_nil_iff] at hrest
  refine ⟨before.length, by simp, fun i y hy hp => ?_⟩
  rcases Nat.lt_trichotomy i before.length with hlt | heq | hgt
  · rw [List.getElem?_append_left hlt] at hy
    exact absurd hp (hbefore y (List.mem_of_getElem? hy))
  · exact heq
  · rw [List.getElem?_append_right (Nat.le_of_lt hgt), show i - before.length = (i - before.length - 1) + 1 by omega,
      List.getElem?_cons_succ] at hy
    exact absurd hp (hrest y (List.mem_of_getElem? hy))

namespace Buffer

variable {b : Buffer Reaction Mark} {handles : List Nat}

/-- The roll of an event holds the handle of the session's one reaction. -/
theorem Serves.roll_eq (h : b.Serves handles) {e : BufferEvent} {r : Reaction} (hr : (e, r) ∈ Desk.interests) :
    ∃ k, b.roll e = [k] ∧ b.isActive k = true ∧ b.listener? k = some r := by
  have hheard := h.heard e r hr
  obtain ⟨s, hs, rfl⟩ := List.map_eq_singleton_iff.mp hheard
  obtain ⟨k, hk, hunique⟩ := exists_getElem?_of_filter_eq hs
  have hmem : s ∈ b.subscriptions.filter fun s => s.active && decide (s.event = e) := by simp [hs]
  obtain ⟨hon, he⟩ : s.active = true ∧ s.event = e := by simpa using (List.mem_filter.mp hmem).2
  have hroll (i : Nat) : i ∈ b.roll e ↔ i = k := by
    rw [h.enrolled.active]
    constructor
    · rintro ⟨s', hs', hon', he'⟩
      exact hunique i s' hs' (by simp [hon', he'])
    · rintro rfl
      exact ⟨s, hk, hon, he⟩
  refine ⟨k, ?_, isActive_eq_true.mpr ⟨s, hk, hon⟩, by rw [listener?, hk, Option.map_some]⟩
  exact List.perm_singleton.mp ((List.perm_ext_iff_of_nodup (h.enrolled.single e) (List.nodup_singleton k)).mpr
    fun i => by rw [hroll, List.mem_singleton])

theorem silent_ofText (uri text language : String) : (ofText uri text language : Buffer Reaction Mark).Silent :=
  ⟨enrolled_ofText uri text language, fun _ => rfl⟩

end Buffer

namespace Desk

variable {L : Type} {carrier : Carrier L}

/-! ## What is held -/

/-- The session holds the buffer of that number. -/
def Holds (d : Desk L) (n : Nat) : Prop := ∃ p ∈ d.session.attachments, p.2.buffer = n

instance (d : Desk L) (n : Nat) : Decidable (d.Holds n) :=
  inferInstanceAs (Decidable (∃ p ∈ d.session.attachments, p.2.buffer = n))

/-- The buffers that the session holds serve it and all others are silent, and the active one is attached. -/
structure Bound (d : Desk L) : Prop extends Filed d where
  serves : ∀ uri a, (uri, a) ∈ d.session.attachments → (d.bufferAt a.buffer).Serves a.handles
  silent : ∀ n, ¬ d.Holds n → (d.bufferAt n).Silent
  active : ∀ uri, d.session.active = some uri → uri ∈ Keyed.keys d.session.attachments

namespace Bound

variable {d : Desk L}

theorem of_eq {d' : Desk L} (h : d.Bound) (hbuffers : d'.buffers = d.buffers)
    (hattachments : d'.session.attachments = d.session.attachments) (hactive : d'.session.active = d.session.active) :
    d'.Bound := by
  have hat (n : Nat) : d'.bufferAt n = d.bufferAt n := by rw [bufferAt, hbuffers, ← bufferAt]
  refine ⟨h.toFiled.of_eq (by rw [hbuffers]) hattachments, fun uri a hmem => ?_, fun n hn => ?_, fun uri huri => ?_⟩
  · rw [hat]
    exact h.serves uri a (hattachments ▸ hmem)
  · rw [hat]
    refine h.silent n ?_
    rwa [Holds, hattachments] at hn
  · rw [hattachments]
    exact h.active uri (hactive ▸ huri)

theorem withBuffer (h : d.Bound) {n : Nat} {b : Buffer Reaction Mark} (huri : b.uri = (d.bufferAt n).uri)
    (hsub : b.subscriptions = (d.bufferAt n).subscriptions) (hrolls : b.rolls = (d.bufferAt n).rolls) :
    (d.withBuffer n b).Bound := by
  refine ⟨h.toFiled.of_eq (map_uri_withBuffer huri) rfl, fun uri a hmem => ?_, fun m hm => ?_, h.active⟩
  · have hserves := h.serves uri a hmem
    rw [bufferAt_withBuffer]
    split
    · next heq =>
      rw [heq.1] at hserves
      exact hserves.of_subscriptions hsub hrolls
    · exact hserves
  · have hsilent := h.silent m hm
    rw [bufferAt_withBuffer]
    split
    · next heq =>
      obtain ⟨rfl, -⟩ := heq
      exact hsilent.of_subscriptions hsub hrolls
    · exact hsilent

/-- What is held under an address has it. -/
theorem uri_eq (h : d.Bound) {uri : String} {a : Attachment} (hmem : (uri, a) ∈ d.session.attachments) :
    (d.bufferAt a.buffer).uri = uri := uri_of_getElem? (h.filed uri a hmem)

theorem get?_of_mem (h : d.Bound) {uri : String} {a : Attachment} (hmem : (uri, a) ∈ d.session.attachments) :
    Keyed.get? uri d.session.attachments = some a := (Keyed.get?_eq_some h.single).mpr hmem

theorem mem_keys_of_holds (h : d.Bound) {n : Nat} (hn : d.Holds n) :
    (d.bufferAt n).uri ∈ Keyed.keys d.session.attachments := by
  obtain ⟨⟨uri, a⟩, hmem, rfl⟩ := hn
  rw [h.uri_eq hmem]
  exact List.mem_map.mpr ⟨_, hmem, rfl⟩

theorem holds_of_isActive (h : d.Bound) {n k : Nat} (hk : (d.bufferAt n).isActive k = true) : d.Holds n := by
  by_contra hn
  have hoff := (h.silent n hn).deaf k
  rw [hk] at hoff
  cases hoff

/-- A buffer that is held becomes the active one. -/
theorem turn (h : d.Bound) {n : Nat} (hn : d.Holds n) :
    Bound { d with session := { d.session with active := some (d.bufferAt n).uri } } := by
  refine ⟨h.toFiled.of_eq rfl rfl, h.serves, h.silent, fun uri huri => ?_⟩
  cases huri
  exact h.mem_keys_of_holds hn

theorem holding (h : d.Bound) {n : Nat} (hn : n < d.buffers.length)
    (hout : (d.bufferAt n).uri ∉ Keyed.keys d.session.attachments) : (d.holding n).Bound := by
  have hat := bufferAt_holding d n
  have hput := attachments_holding hout
  have hfree : ¬ d.Holds n := by
    rintro ⟨⟨uri, a⟩, hmem, rfl⟩
    rw [h.uri_eq hmem] at hout
    exact hout (List.mem_map.mpr ⟨_, hmem, rfl⟩)
  refine ⟨h.toFiled.holding hn hout, fun uri a hmem => ?_, fun m hm => ?_, fun uri huri => ?_⟩
  · rw [hput] at hmem
    rcases List.mem_append.mp hmem with hmem | hmem
    · rw [hat, if_neg]
      · exact h.serves uri a hmem
      · rintro ⟨he, -⟩
        exact hfree ⟨_, hmem, he⟩
    · cases List.mem_singleton.mp hmem
      rw [hat, if_pos ⟨rfl, hn⟩]
      exact (h.silent n hfree).serves
  · have hother : ¬ (m = n ∧ n < d.buffers.length) ∧ ¬ d.Holds m := by
      constructor
      · rintro ⟨rfl, -⟩
        refine hm ⟨((d.bufferAt m).uri, ⟨m, (subscribeAll (d.bufferAt m)).1⟩), ?_, rfl⟩
        rw [hput]
        simp
      · rintro ⟨p, hp, he⟩
        refine hm ⟨p, ?_, he⟩
        rw [hput]
        exact List.mem_append_left _ hp
    rw [hat, if_neg hother.1]
    exact h.silent m hother.2
  · cases huri
    rw [hput, Keyed.keys_append_single]
    simp

/-- A new buffer that nobody listens to is bound to nothing. -/
theorem append (h : d.Bound) {b : Buffer Reaction Mark} (hb : b.Silent) : Bound { d with buffers := d.buffers ++ [b] } := by
  refine ⟨h.toFiled.append b, fun uri a hmem => ?_, fun n hn => ?_, h.active⟩
  · rw [bufferAt, List.getElem?_append_left (h.toFiled.lt_of_mem hmem)]
    exact h.serves uri a hmem
  · rw [bufferAt, List.getElem?_append]
    split
    · exact h.silent n hn
    · rw [List.getElem?_singleton]
      split
      · exact hb
      · exact Buffer.silent_ofText _ _ _

theorem releasing (h : d.Bound) {n : Nat} {a : Attachment}
    (ha : Keyed.get? (d.bufferAt n).uri d.session.attachments = some a) : (d.releasing n a).Bound := by
  have hmem := Keyed.mem_of_get? ha
  let d₁ := d.withBuffer n ((d.bufferAt n).clearMarks d.session.ns)
  have h₁ : d₁.Bound := h.withBuffer rfl rfl rfl
  have hat (m : Nat) : (d.releasing n a).bufferAt m =
      if m = a.buffer ∧ a.buffer < d₁.buffers.length then a.handles.foldl Buffer.cancel (d₁.bufferAt a.buffer)
      else d₁.bufferAt m := bufferAt_withBuffer d₁ a.buffer m _
  -- Those that stay have other addresses, and so are other buffers.
  have hother {uri : String} {a' : Attachment} (hmem' : (uri, a') ∈ (d.releasing n a).session.attachments) :
      (uri, a') ∈ d.session.attachments ∧ a'.buffer ≠ a.buffer := by
    obtain ⟨hmem', hne⟩ := Keyed.mem_erase.mp hmem'
    refine ⟨hmem', fun he => hne ?_⟩
    rw [← h.uri_eq hmem', he, h.uri_eq hmem]
  refine ⟨h.toFiled.releasing n a, fun uri a' hmem' => ?_, fun m hm => ?_, fun uri => active_releasing h.active⟩
  · obtain ⟨hmem', hne⟩ := hother hmem'
    rw [hat, if_neg (fun he => hne he.1)]
    exact h₁.serves uri a' hmem'
  · rw [hat]
    split
    · exact (h₁.serves _ a hmem).silent
    · next hnot =>
      by_cases hma : m = a.buffer
      · -- Past the last buffer there is only an empty one.
        have hpast : d₁.buffers[m]? = none := List.getElem?_eq_none (by
          by_contra hlt
          exact hnot ⟨hma, hma ▸ Nat.lt_of_not_le hlt⟩)
        rw [bufferAt, hpast]
        exact Buffer.silent_ofText _ _ _
      · refine h₁.silent m ?_
        rintro ⟨⟨uri, a'⟩, hmem', rfl⟩
        refine hm ⟨(uri, a'), Keyed.mem_erase.mpr ⟨hmem', ?_⟩, rfl⟩
        rintro rfl
        exact hma (by rw [Option.some.inj ((h.get?_of_mem hmem').symm.trans ha)])

end Bound

theorem Bound.upkeep : Upkeep carrier (fun _ => True) (fun _ => True) (Bound (L := L)) where
  met _ := trivial
  filed h := h.toFiled
  held _ _ := trivial
  send h _ := h.of_eq rfl rfl rfl
  note _ _ h _ hattachments hactive := h.of_eq rfl hattachments hactive
  edit h hedited _ := h.withBuffer hedited.uri hedited.subscriptions hedited.rolls
  turn h _ hk := h.turn (h.holds_of_isActive hk)
  release h _ ha := h.releasing ha

/-! ## What an edit sets off -/

section Edits

variable {d : Desk L} (h : d.Bound)
include h

theorem Bound.run_emit (n : Nat) {e : BufferEvent} {r : Reaction} (hr : (e, r) ∈ interests) :
    (emit carrier n e).run.run d = if d.Holds n then (react carrier n r).run.run d else (.ok (), d) := by
  unfold emit
  simp only [run_bind, run_buffer]
  by_cases hn : d.Holds n
  · rw [if_pos hn]
    obtain ⟨⟨uri, a⟩, hmem, rfl⟩ := hn
    obtain ⟨k, hroll, hk, hlistener⟩ := (h.serves uri a hmem).roll_eq hr
    simp only [hroll, Buffer.emit, run_bind, run_buffer, run_pure, hk, if_true, hlistener]
    rcases (react carrier a.buffer r).run.run d with ⟨_ | _, _⟩ <;> rfl
  · rw [if_neg hn]
    have hdeaf := (h.silent n hn).deaf
    generalize (d.bufferAt n).roll e = handles
    induction handles with
    | nil => rfl
    | cons k handles ih =>
      simp only [Buffer.emit, run_bind, run_buffer, run_pure, run_ite, hdeaf k]
      exact ih

theorem Bound.run_moveCursor (n : Nat) (p : Position) :
    (moveCursor carrier n p).run.run d =
      match (d.bufferAt n).moveTo p with
      | .error cause => (.error cause, d)
      | .ok b =>
        if d.Holds n then (react carrier n .follow).run.run (d.withBuffer n b) else (.ok (), d.withBuffer n b) := by
  unfold moveCursor
  simp only [run_bind, run_buffer, run_lift]
  cases hmove : (d.bufferAt n).moveTo p with
  | error cause => rfl
  | ok b =>
    obtain rfl := Buffer.eq_of_moveTo hmove
    have hfollow : (BufferEvent.cursorMoved, Reaction.follow) ∈ interests := by simp [interests]
    have hb : (d.withBuffer n { d.bufferAt n with cursor := (d.bufferAt n).nearest p }).Bound := h.withBuffer rfl rfl rfl
    exact hb.run_emit n hfollow

theorem Bound.run_replaceText (n : Nat) (text : String) :
    (replaceText carrier n text).run.run d =
      let d' := d.withBuffer n ((d.bufferAt n).replaceText text)
      if d.Holds n then (react carrier n .report).run.run d' else (.ok (), d') := by
  have hreport : (BufferEvent.changed, Reaction.report) ∈ interests := by simp [interests]
  have hb : (d.withBuffer n ((d.bufferAt n).replaceText text)).Bound := h.withBuffer rfl rfl rfl
  exact hb.run_emit n hreport

theorem Bound.run_closeBuffer (n : Nat) :
    (closeBuffer carrier n).run.run d =
      if (d.bufferAt n).closed then (.ok (), d)
      else
        let d' := d.withBuffer n { d.bufferAt n with closed := true }
        if d.Holds n then (release carrier n).run.run d' else (.ok (), d') := by
  unfold closeBuffer
  simp only [run_bind, run_buffer, run_ite]
  split
  · rfl
  · have hrelease : (BufferEvent.closed, Reaction.release) ∈ interests := by simp [interests]
    have hb : (d.withBuffer n { d.bufferAt n with closed := true }).Bound := h.withBuffer rfl rfl rfl
    exact hb.run_emit n hrelease

end Edits

end Desk
end CoqConsole
