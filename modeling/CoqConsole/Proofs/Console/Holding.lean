import CoqConsole.Proofs.Console.Turning
import CoqConsole.Proofs.Path

/-!
# Open files and the buffers that are held

Which files are open is noted beside their session, and the session holds buffers by their addresses. The two change at
different moments: a file is noted before its buffer is held, and it is noted no more before its buffer is let go.

* `Desk.Retains` : the same buffers are held, under the same addresses; `Retains.conduct`, `Retains.chore` : so it is
  unless a buffer is taken up or let go;
* `Desk.Agrees` : what is held is noted, and what is noted is held or its server is down;
* `Agrees.adopt`, `Agrees.close` : a file is opened, or closed.
-/

namespace CoqConsole

/-- The address of a buffer, and whether it was closed. -/
def Buffer.label (b : Buffer Reaction Mark) : String × Bool := (b.uri, b.closed)

theorem Buffer.label_cancel (b : Buffer Reaction Mark) (k : Nat) : (b.cancel k).label = b.label := by
  unfold cancel
  split
  · split <;> rfl
  · rfl

namespace Desk

variable {d₀ d : Desk Wired} {n : Nat}

/-! ## What is held -/

theorem Bound.get?_of_holds (h : d.Bound) (hn : d.Holds n) :
    ∃ a, Keyed.get? (d.bufferAt n).uri d.session.attachments = some a ∧ a.buffer = n := by
  obtain ⟨⟨uri, a⟩, hmem, rfl⟩ := hn
  exact ⟨a, (h.uri_eq hmem).symm ▸ h.get?_of_mem hmem, rfl⟩

/-- All is held on but what is let go. -/
theorem Bound.holds_releasing (h : d.Bound) {a : Attachment}
    (ha : Keyed.get? (d.bufferAt n).uri d.session.attachments = some a) (m : Nat) :
    (d.releasing n a).Holds m ↔ d.Holds m ∧ m ≠ a.buffer := by
  have hleft {entry : String × Attachment} : entry ∈ (d.releasing n a).session.attachments ↔
      entry ∈ d.session.attachments ∧ entry.1 ≠ (d.bufferAt n).uri := Keyed.mem_erase
  have huri : (d.bufferAt a.buffer).uri = (d.bufferAt n).uri := h.uri_eq (Keyed.mem_of_get? ha)
  constructor
  · rintro ⟨⟨uri, a'⟩, hmem, rfl⟩
    obtain ⟨hmem, hne⟩ := hleft.mp hmem
    exact ⟨⟨_, hmem, rfl⟩, fun heq => hne ((h.uri_eq hmem).symm.trans (heq ▸ huri))⟩
  · rintro ⟨⟨⟨uri, a'⟩, hmem, rfl⟩, hne⟩
    refine ⟨_, hleft.mpr ⟨hmem, ?_⟩, rfl⟩
    rintro rfl
    exact hne (congrArg Attachment.buffer (Option.some.inj ((h.get?_of_mem hmem).symm.trans ha)))


/-- The desk holds what it held, its buffers are labelled as they were, and its line goes on. -/
structure Retains (d₀ d : Desk Wired) : Prop where
  bound : d.Bound
  attachments : d.session.attachments = d₀.session.attachments
  labels : d.buffers.map Buffer.label = d₀.buffers.map Buffer.label
  link : d₀.link.Onward d.link

namespace Retains

theorem refl (h : d.Bound) : d.Retains d := ⟨h, rfl, rfl, .refl _⟩

theorem sent (h : d₀.Retains d) {method : String} {params : Json} {link : Wired}
    (hsend : lineCarrier.send method params d.link = .ok link) : d₀.Retains { d with link } :=
  ⟨h.bound.of_eq rfl rfl rfl, h.attachments, h.labels, Console.keeps_lineCarrier _ _ _ _ _ h.link hsend⟩

theorem withBuffer (h : d₀.Retains d) {b : Buffer Reaction Mark} (hlabel : b.label = (d.bufferAt n).label)
    (hsub : b.subscriptions = (d.bufferAt n).subscriptions) (hrolls : b.rolls = (d.bufferAt n).rolls) :
    d₀.Retains (d.withBuffer n b) :=
  ⟨h.bound.withBuffer (congrArg Prod.fst hlabel) hsub hrolls, h.attachments, (map_withBuffer hlabel).trans h.labels, h.link⟩

theorem sending (method : String) (params : Json) :
    Ensures d₀.Retains (Desk.send lineCarrier method params) fun _ => d₀.Retains := by
  intro d h
  rw [run_send]
  split
  · next link hsend => exact h.sent hsend
  · exact h

theorem speech (d₀ : Desk Wired) : Speech lineCarrier (fun _ => True) d₀.Retains where
  note _ _ h _ hattachments hactive :=
    ⟨h.bound.of_eq rfl hattachments hactive, hattachments.trans h.attachments, h.labels, h.link⟩
  settings h hsend := h.sent hsend
  about h _ _ hsend := h.sent hsend

theorem moveCursor (n : Nat) (p : Position) : Ensures d₀.Retains (Desk.moveCursor lineCarrier n p) fun _ => d₀.Retains := by
  intro d h
  rw [h.bound.run_moveCursor]
  cases hmove : (d.bufferAt n).moveTo p with
  | error cause => exact h
  | ok b =>
    obtain rfl := Buffer.eq_of_moveTo hmove
    have hmoved : d₀.Retains (d.withBuffer n { d.bufferAt n with cursor := (d.bufferAt n).nearest p }) :=
      h.withBuffer rfl rfl rfl
    simp only
    split
    · next hn => exact (speech d₀).check trivial _ ⟨hmoved.bound.turn hn, hmoved.attachments, hmoved.labels, hmoved.link⟩
    · exact hmoved

theorem replaceText (n : Nat) (text : String) :
    Ensures d₀.Retains (Desk.replaceText lineCarrier n text) fun _ => d₀.Retains := by
  intro d h
  have hreplaced : d₀.Retains (d.withBuffer n ((d.bufferAt n).replaceText text)) := h.withBuffer rfl rfl rfl
  rw [h.bound.run_replaceText]
  simp only
  split
  · rw [run_report]
    exact sending _ _ _ hreplaced
  · exact hreplaced

/-- What a server says takes no buffer up and lets none go. -/
theorem conduct (d₀ : Desk Wired) : Conduct lineCarrier (fun _ => True) (fun _ => True) d₀.Retains where
  toSpeech := speech d₀
  held _ _ := trivial
  met _ := trivial
  mark h _ := h.withBuffer rfl rfl rfl
  moveCursor _ _ := moveCursor _ _

/-- Nor does a chore. -/
theorem chore {α : Type} {op : Desk.Op Wired α} (h : Chore op) : Ensures d₀.Retains op fun _ => d₀.Retains := by
  have u := conduct d₀
  cases h with
  | begin n timeout request => exact u.note.begin n timeout request
  | moveCursor n p => exact moveCursor n p
  | interpretTo n p => exact u.interpretTo trivial p
  | step n direction => exact u.step trivial direction
  | replaceText n text => exact replaceText n text
  | updateSettings update => exact u.updateSettings update
  | toggleMode => exact u.toggleMode

end Retains

/-! ## What is noted -/

/-- The notes of open files agree with what is held: their buffers have their addresses and were not closed, every buffer
that is held is noted, and every one that is noted is held, unless the server is down. -/
structure Agrees (d : Desk Wired) (documents : List (Path × Nat)) : Prop where
  single : (Keyed.keys documents).Nodup
  clear : ∀ p n, (p, n) ∈ documents → p.IsClear
  stored : ∀ p n, (p, n) ∈ documents → (d.buffers.map Buffer.label)[n]? = some (p.uri, false)
  noted : ∀ n, d.Holds n → ∃ p, (p, n) ∈ documents
  held : ∀ p n, (p, n) ∈ documents → d.Holds n ∨ d.link.isRunning = false

theorem label_of_getElem? {x : String × Bool} (h : (d.buffers.map Buffer.label)[n]? = some x) : (d.bufferAt n).label = x := by
  rw [List.getElem?_map] at h
  obtain ⟨b, hb, rfl⟩ := Option.map_eq_some_iff.mp h
  rw [bufferAt, hb, Option.getD_some]

theorem holds_iff {d' : Desk Wired} (h : d'.session.attachments = d.session.attachments) : d'.Holds n ↔ d.Holds n := by
  rw [Holds, Holds, h]

theorem map_label_holding (d : Desk Wired) (n : Nat) :
    (d.holding n).buffers.map Buffer.label = d.buffers.map Buffer.label := map_withBuffer rfl

theorem map_label_releasing (d : Desk Wired) (n : Nat) (a : Attachment) :
    (d.releasing n a).buffers.map Buffer.label = d.buffers.map Buffer.label := by
  let d₁ := d.withBuffer n ((d.bufferAt n).clearMarks d.session.ns)
  have hcancel : (a.handles.foldl Buffer.cancel (d₁.bufferAt a.buffer)).label = (d₁.bufferAt a.buffer).label :=
    Buffer.foldl_cancel Buffer.label Buffer.label_cancel _ _
  exact (map_withBuffer hcancel).trans (map_withBuffer rfl)

theorem holds_append {d' : Desk Wired} {uri : String} {handles : List Nat}
    (h : d'.session.attachments = d.session.attachments ++ [(uri, ⟨n, handles⟩)]) (m : Nat) :
    d'.Holds m ↔ d.Holds m ∨ m = n := by
  rw [Holds, Holds, h]
  simp [or_and_right, exists_or, eq_comm]

namespace Agrees

variable {documents : List (Path × Nat)} (h : d.Agrees documents)
include h

/-- Nothing else at the desk counts. -/
theorem of_eq {d' : Desk Wired} (hattachments : d'.session.attachments = d.session.attachments)
    (hlabels : d'.buffers.map Buffer.label = d.buffers.map Buffer.label)
    (hdown : d.link.isRunning = false → d'.link.isRunning = false) : d'.Agrees documents where
  single := h.single
  clear := h.clear
  stored p n hmem := hlabels ▸ h.stored p n hmem
  noted n hn := h.noted n ((holds_iff hattachments).mp hn)
  held p n hmem := (h.held p n hmem).imp (holds_iff hattachments).mpr hdown

/-- What goes on without a buffer that is taken up or let go. -/
theorem of_retains {d' : Desk Wired} (hretains : d.Retains d') : d'.Agrees documents :=
  h.of_eq hretains.attachments hretains.labels hretains.link.abides.not_isRunning

theorem uri_eq {p : Path} (hmem : (p, n) ∈ documents) : (d.bufferAt n).uri = p.uri :=
  congrArg Prod.fst (label_of_getElem? (h.stored p n hmem))

theorem closed_eq {p : Path} (hmem : (p, n) ∈ documents) : (d.bufferAt n).closed = false :=
  congrArg Prod.snd (label_of_getElem? (h.stored p n hmem))

/-- Open files whose buffers have one address are one file. -/
theorem unique {p q : Path} {m : Nat} (hp : (p, n) ∈ documents) (hq : (q, m) ∈ documents) (huri : p.uri = q.uri) :
    p = q ∧ n = m := by
  obtain rfl := Path.uri_injective (h.clear p n hp) (h.clear q m hq) huri
  have hn := (Keyed.get?_eq_some h.single).mpr hp
  rw [(Keyed.get?_eq_some h.single).mpr hq] at hn
  exact ⟨rfl, (Option.some.inj hn).symm⟩

/-- What is held under an address is noted under the path of that address. -/
theorem noted_of_mem (hbound : d.Bound) {uri : String} {a : Attachment} (hmem : (uri, a) ∈ d.session.attachments) :
    ∃ p, (p, a.buffer) ∈ documents ∧ p.uri = uri := by
  obtain ⟨p, hp⟩ := h.noted a.buffer ⟨_, hmem, rfl⟩
  exact ⟨p, hp, (h.uri_eq hp).symm.trans (hbound.uri_eq hmem)⟩

/-! ## A file is opened -/

/-- A path that is not noted has an address under which nothing is held. -/
theorem notMem_keys (hbound : d.Bound) {path : Path} (hpath : path.IsClear) (hout : path ∉ Keyed.keys documents) :
    path.uri ∉ Keyed.keys d.session.attachments := by
  intro hmem
  obtain ⟨⟨uri, a⟩, hmem, rfl⟩ := List.mem_map.mp hmem
  obtain ⟨p, hp, huri⟩ := h.noted_of_mem hbound hmem
  rw [← Path.uri_injective (h.clear p _ hp) hpath huri] at hout
  exact hout (List.mem_map.mpr ⟨_, hp, rfl⟩)

/-- A file is noted with the buffer that comes last. -/
theorem append {d' : Desk Wired} {path : Path} (hpath : path.IsClear) (hout : path ∉ Keyed.keys documents)
    (hlabels : d'.buffers.map Buffer.label = d.buffers.map Buffer.label ++ [(path.uri, false)])
    (hnoted : ∀ n, d'.Holds n → d.Holds n ∨ n = d.buffers.length)
    (hheld : ∀ n, d.Holds n ∨ d.link.isRunning = false → d'.Holds n ∨ d'.link.isRunning = false)
    (hlast : d'.Holds d.buffers.length ∨ d'.link.isRunning = false) :
    d'.Agrees (documents ++ [(path, d.buffers.length)]) := by
  have hcases {p : Path} {n : Nat} (hmem : (p, n) ∈ documents ++ [(path, d.buffers.length)]) :
      (p, n) ∈ documents ∨ (p, n) = (path, d.buffers.length) :=
    (List.mem_append.mp hmem).imp_right List.mem_singleton.mp
  refine ⟨Keyed.nodup_append_single h.single hout, fun p n hmem => ?_, fun p n hmem => ?_, fun n hn => ?_, fun p n hmem => ?_⟩
  · rcases hcases hmem with hmem | heq
    · exact h.clear p n hmem
    · cases heq
      exact hpath
  · rw [hlabels]
    rcases hcases hmem with hmem | heq
    · have hstored := h.stored p n hmem
      rw [List.getElem?_append_left (List.getElem?_eq_some_iff.mp hstored).1]
      exact hstored
    · cases heq
      rw [List.getElem?_append_right (by rw [List.length_map]), List.length_map, Nat.sub_self]
      rfl
  · rcases hnoted n hn with hold | rfl
    · exact (h.noted n hold).imp fun p hp => List.mem_append_left _ hp
    · exact ⟨path, List.mem_append_right _ (List.mem_singleton.mpr rfl)⟩
  · rcases hcases hmem with hmem | heq
    · exact hheld n (h.held p n hmem)
    · cases heq
      exact hlast

/-- A file is opened whose path is not noted. If its buffer cannot be held, the server is down. -/
theorem adopt (hbound : d.Bound) {path : Path} (hpath : path.IsClear) (hnew : Keyed.get? path documents = none)
    (text language : String) :
    ((Desk.adopt lineCarrier d.buffers.length).run.run
      { d with buffers := d.buffers ++ [.ofText path.uri text language] }).2.Agrees
        (Keyed.put path d.buffers.length documents) := by
  let b : Buffer Reaction Mark := .ofText path.uri text language
  let d₁ : Desk Wired := { d with buffers := d.buffers ++ [b] }
  have hbound₁ : d₁.Bound := hbound.append (Buffer.silent_ofText _ _ _)
  have hout : path ∉ Keyed.keys documents := Keyed.get?_eq_none.mp hnew
  have hlabels : d₁.buffers.map Buffer.label = d.buffers.map Buffer.label ++ [(path.uri, false)] := List.map_append
  have hlast : d.buffers.length < d₁.buffers.length := by rw [List.length_append]; exact Nat.lt_succ_self _
  have huri : (d₁.bufferAt d.buffers.length).uri = path.uri := by
    rw [bufferAt, List.getElem?_append_right (Nat.le_refl _), Nat.sub_self]
    rfl
  have hfree : (d₁.bufferAt d.buffers.length).uri ∉ Keyed.keys d.session.attachments :=
    huri ▸ h.notMem_keys hbound hpath hout
  have hdetached : ¬ d₁.isAttached (d₁.bufferAt d.buffers.length).uri = true := fun hattached =>
    hfree (Keyed.has_eq_true.mp hattached)
  show ((Desk.adopt lineCarrier d.buffers.length).run.run d₁).2.Agrees _
  rw [Keyed.put_of_notMem _ hout, run_adopt, if_neg hdetached]
  split
  · next link hsend =>
    have honward := Console.keeps_lineCarrier _ _ _ _ _ (.refl d.link) hsend
    let d₂ : Desk Wired := holding { d₁ with link } d.buffers.length
    have hheld (m : Nat) : d₂.Holds m ↔ d.Holds m ∨ m = d.buffers.length := holds_append (attachments_holding hfree) m
    have hsent : ({ d₁ with link } : Desk Wired).Bound := hbound₁.of_eq rfl rfl rfl
    have hbound₂ : d₂.Bound := hsent.holding hlast hfree
    have hagrees₂ : d₂.Agrees (documents ++ [(path, d.buffers.length)]) := by
      refine h.append hpath hout ((map_label_holding _ _).trans hlabels) (fun n hn => (hheld n).mp hn) (fun n hn => ?_)
        (.inl ((hheld _).mpr (.inr rfl)))
      exact hn.imp (fun hn => (hheld n).mpr (.inl hn)) honward.abides.not_isRunning
    exact hagrees₂.of_retains ((Retains.speech d₂).check trivial _ (.refl hbound₂))
  · next cause hsend =>
    exact h.append hpath hout hlabels (fun _ hn => .inl hn) (fun _ hn => hn) (.inr (not_running_of_send hsend).1)

/-! ## A file is closed -/

/-- A file is noted no more, and its buffer is not held any more, if it was. -/
theorem erase {d' : Desk Wired} {path : Path} (hmem : (path, n) ∈ documents)
    (hlabels : ∀ m ≠ n, (d'.buffers.map Buffer.label)[m]? = (d.buffers.map Buffer.label)[m]?)
    (hheld : ∀ m, d'.Holds m ↔ d.Holds m ∧ m ≠ n) (hdown : d.link.isRunning = false → d'.link.isRunning = false) :
    d'.Agrees (Keyed.erase path documents) := by
  have hother {p : Path} {m : Nat} (hp : (p, m) ∈ Keyed.erase path documents) : (p, m) ∈ documents ∧ m ≠ n := by
    obtain ⟨hp, hne⟩ := Keyed.mem_erase.mp hp
    refine ⟨hp, ?_⟩
    rintro rfl
    exact hne (h.unique hp hmem ((h.uri_eq hp).symm.trans (h.uri_eq hmem))).1
  refine ⟨Keyed.nodup_erase h.single, fun p m hp => h.clear p m (hother hp).1, fun p m hp => ?_, fun m hm => ?_,
    fun p m hp => ?_⟩
  · rw [hlabels m (hother hp).2]
    exact h.stored p m (hother hp).1
  · obtain ⟨hm, hne⟩ := (hheld m).mp hm
    obtain ⟨p, hp⟩ := h.noted m hm
    refine ⟨p, Keyed.mem_erase.mpr ⟨hp, ?_⟩⟩
    rintro rfl
    exact hne (h.unique hp hmem rfl).2
  · exact (h.held p m (hother hp).1).imp (fun hm => (hheld m).mpr ⟨hm, (hother hp).2⟩) hdown

theorem close (hbound : d.Bound) {path : Path} (hget : Keyed.get? path documents = some n) :
    ((Desk.closeBuffer lineCarrier n).run.run d).2.Agrees (Keyed.erase path documents) := by
  have hmem : (path, n) ∈ documents := Keyed.mem_of_get? hget
  let d₁ : Desk Wired := d.withBuffer n { d.bufferAt n with closed := true }
  have hbound₁ : d₁.Bound := hbound.withBuffer rfl rfl rfl
  have hlabels : ∀ m ≠ n, (d₁.buffers.map Buffer.label)[m]? = (d.buffers.map Buffer.label)[m]? := by
    intro m hm
    rw [List.getElem?_map, List.getElem?_map, show d₁.buffers = d.buffers.set n _ from rfl, List.getElem?_set_ne hm.symm]
  rw [hbound.run_closeBuffer, if_neg (Bool.eq_false_iff.mp (h.closed_eq hmem))]
  simp only
  split
  · next hn =>
    obtain ⟨a, hget₁, rfl⟩ := hbound₁.get?_of_holds hn
    have hagrees : (d₁.releasing a.buffer a).Agrees (Keyed.erase path documents) := by
      refine h.erase hmem (fun m hm => ?_) (hbound₁.holds_releasing hget₁) fun hdown => hdown
      rw [map_label_releasing]
      exact hlabels m hm
    rw [run_release, hget₁]
    exact hagrees.of_retains (Retains.sending _ _ _ (.refl (hbound₁.releasing hget₁)))
  · next hn =>
    refine h.erase hmem hlabels (fun m => ⟨fun hm => ⟨hm, ?_⟩, And.left⟩) fun hdown => hdown
    rintro rfl
    exact hn hm

end Agrees
end Desk
end CoqConsole
