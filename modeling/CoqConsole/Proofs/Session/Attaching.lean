import CoqConsole.Proofs.Buffer.Subscribing
import CoqConsole.Proofs.Keyed
import CoqConsole.Proofs.Operation
import CoqConsole.Proofs.Progress
import CoqConsole.Session.Hearing
import CoqConsole.Session.Tuning

/-!
# Attached buffers and their subscriptions

Attachments, subscriptions, marks and the active buffer are changed by a dozen operations, some of them from within
the emission of a buffer's event. What they keep among them:

* `Buffer.Serves` : the session hears of each event of the buffer once, through the handles that it holds;
* `Buffer.Silent`, `Buffer.Idle` : it hears of nothing, and has no marks there;
* `run_attach`, `run_detach` : what attaching and letting go change, as equations;
* `Desk.Filed` : what is held under an address has it;
* `Desk.Tied` : attached buffers serve, all others are idle, and the active one is attached.
-/

namespace CoqConsole

theorem Session.attachments_create {overrides : Json} {ns : String} {s : Session} (h : Session.create overrides ns = .ok s) :
    s.attachments = [] ∧ s.active = none := by
  unfold Session.create at h
  cases hsettings : Settings.make overrides with
  | error cause =>
    rw [hsettings] at h
    cases h
  | ok settings =>
    rw [hsettings] at h
    cases h
    exact ⟨rfl, rfl⟩

/-! ## Buffers -/

namespace Buffer

/-- The session hears of each event that it is interested in once, through these handles and no others. -/
structure Serves (b : Buffer Reaction Mark) (handles : List Nat) : Prop where
  enrolled : b.Enrolled
  heard : ∀ e r, (e, r) ∈ Desk.interests → b.heardBy e = [r]
  active : ∀ h, b.isActive h = true ↔ h ∈ handles

/-- The session hears of nothing. -/
structure Silent (b : Buffer Reaction Mark) : Prop where
  enrolled : b.Enrolled
  deaf : b.Deaf

/-- The session hears of nothing, and no mark is in its namespace. -/
structure Idle (ns : String) (b : Buffer Reaction Mark) : Prop where
  enrolled : b.Enrolled
  deaf : b.Deaf
  unmarked : b.marksIn ns = []

variable {ns : String} {b b' : Buffer Reaction Mark} {handles : List Nat}

/-- Nothing but the subscriptions decides whom a buffer serves. -/
theorem Serves.of_subscriptions (h : b.Serves handles) (hsub : b'.subscriptions = b.subscriptions)
    (hrolls : b'.rolls = b.rolls) : b'.Serves handles := by
  obtain ⟨uri, language, version, lines, cursor, marks, subscriptions, rolls, closed⟩ := b'
  subst hsub hrolls
  exact ⟨⟨h.enrolled.single, h.enrolled.active⟩, h.heard, h.active⟩

theorem Silent.of_subscriptions (h : b.Silent) (hsub : b'.subscriptions = b.subscriptions)
    (hrolls : b'.rolls = b.rolls) : b'.Silent := by
  obtain ⟨uri, language, version, lines, cursor, marks, subscriptions, rolls, closed⟩ := b'
  subst hsub hrolls
  exact ⟨⟨h.enrolled.single, h.enrolled.active⟩, h.deaf⟩

theorem Idle.silent (h : b.Idle ns) : b.Silent := ⟨h.enrolled, h.deaf⟩

theorem Idle.of_subscriptions (h : b.Idle ns) (hsub : b'.subscriptions = b.subscriptions)
    (hrolls : b'.rolls = b.rolls) (hmarks : b'.marks = b.marks) : b'.Idle ns := by
  have hsilent := h.silent.of_subscriptions hsub hrolls
  refine ⟨hsilent.enrolled, hsilent.deaf, ?_⟩
  rw [marksIn, hmarks]
  exact h.unmarked

theorem eq_of_moveTo {p : Position} (h : b.moveTo p = .ok b') : b' = { b with cursor := b.nearest p } := by
  unfold moveTo at h
  simp only at h
  split at h
  · exact (Except.ok.inj h).symm
  · cases h

theorem moveTo_of_index? {p : Position} {row : Int} (h : (b.nearest p).row.index? = some row) :
    b.moveTo p = .ok { b with cursor := b.nearest p } := by
  simp only [moveTo, h]

theorem marksIn_clearMarks (b : Buffer Reaction Mark) (ns : String) : (b.clearMarks ns).marksIn ns = [] := by
  have hnone : Keyed.get? ns (Keyed.erase ns b.marks) = none := by
    rw [Keyed.get?_eq_none, Keyed.mem_keys_erase]
    rintro ⟨-, hne⟩
    exact hne rfl
  show (Keyed.get? ns (Keyed.erase ns b.marks)).getD [] = []
  rw [hnone, Option.getD_none]

/-- A buffer that served is silent once its handles are cancelled. -/
theorem Serves.silent (h : b.Serves handles) : (handles.foldl cancel b).Silent := by
  refine ⟨h.enrolled.cancelAll handles, fun k => ?_⟩
  rw [← Bool.not_eq_true, isActive_cancelAll, h.active]
  rintro ⟨hmem, hnot⟩
  exact hnot hmem

/-- And it idles if its marks were dropped before. -/
theorem Serves.idle (h : b.Serves handles) (ns : String) : (handles.foldl cancel (b.clearMarks ns)).Idle ns := by
  have hcleared : (b.clearMarks ns).Serves handles := h.of_subscriptions rfl rfl
  refine ⟨hcleared.silent.enrolled, hcleared.silent.deaf, ?_⟩
  rw [foldl_cancel (fun b => b.marksIn ns) (fun b k => by rw [marksIn, marks_cancel, ← marksIn])]
  exact marksIn_clearMarks b ns

theorem uri_subscribeAll (b : Buffer Reaction Mark) : (Desk.subscribeAll b).2.uri = b.uri := rfl

theorem Silent.serves (h : b.Silent) : (Desk.subscribeAll b).2.Serves (Desk.subscribeAll b).1 := by
  let n := b.subscriptions.length
  let b₁ := (b.subscribe .cursorMoved Reaction.follow).2
  let b₂ := (b₁.subscribe .changed Reaction.report).2
  let b₃ := (b₂.subscribe .closed Reaction.release).2
  have hall : Desk.subscribeAll b = ([n, n + 1, n + 2], b₃) := by
    simp [Desk.subscribeAll, Desk.interests, subscribe, n, b₁, b₂, b₃]
  have hlength₁ : b₁.subscriptions.length = n + 1 := by simp [b₁, subscribe, n]
  have hlength₂ : b₂.subscriptions.length = n + 2 := by simp [b₂, b₁, subscribe, n]
  rw [hall]
  refine ⟨((h.enrolled.subscribe _ _).subscribe _ _).subscribe _ _, ?_, ?_⟩
  · intro e r hmem
    have hheard : b₃.heardBy e = (if .cursorMoved = e then [Reaction.follow] else []) ++
        (if .changed = e then [Reaction.report] else []) ++ (if .closed = e then [Reaction.release] else []) := by
      rw [heardBy_subscribe, heardBy_subscribe, heardBy_subscribe, h.deaf.heardBy, List.nil_append]
    rw [hheard]
    simp only [Desk.interests, List.mem_cons, Prod.mk.injEq, List.not_mem_nil, or_false] at hmem
    rcases hmem with ⟨rfl, rfl⟩ | ⟨rfl, rfl⟩ | ⟨rfl, rfl⟩ <;> rfl
  · intro k
    have hdeaf : b.isActive k = false := h.deaf k
    show b₃.isActive k = true ↔ _
    rw [isActive_subscribe, isActive_subscribe, isActive_subscribe, hlength₁, hlength₂, hdeaf]
    simp [n, or_assoc]

end Buffer

theorem Progress.eq_of_apply {b b' : Buffer Reaction Mark} {ns : String} {highlights : List (String × Json)}
    {encoding : Json} (h : apply b ns highlights encoding = .ok b') : ∃ marks, b' = { b with marks } := by
  obtain ⟨marks, rfl⟩ := exists_setMarks_of_apply h
  exact ⟨_, rfl⟩

namespace Desk

variable {L : Type}

/-! ## Desks -/

/-- Attached buffers serve the session, all others are idle, and the active one is attached. -/
structure Tied (uris : List String) (ns : String) (d : Desk L) : Prop where
  named : d.buffers.map Buffer.uri = uris
  ofNs : d.session.ns = ns
  single : (Keyed.keys d.session.attachments).Nodup
  held : ∀ uri a, (uri, a) ∈ d.session.attachments →
    uris[a.buffer]? = some uri ∧ (d.bufferAt a.buffer).Serves a.handles
  idle : ∀ n uri, uris[n]? = some uri → uri ∉ Keyed.keys d.session.attachments → (d.bufferAt n).Idle ns
  active : ∀ uri, d.session.active = some uri → uri ∈ Keyed.keys d.session.attachments

theorem bufferAt_withBuffer (d : Desk L) (n m : Nat) (b : Buffer Reaction Mark) :
    (d.withBuffer n b).bufferAt m = if m = n ∧ n < d.buffers.length then b else d.bufferAt m := by
  unfold bufferAt withBuffer
  rw [List.getElem?_set]
  by_cases hm : n = m
  · subst hm
    by_cases hlt : n < d.buffers.length
    · simp [hlt]
    · simp [hlt]
  · have hne : ¬ m = n := fun e => hm e.symm
    simp [hm, hne]

/-- What a new buffer has in common with the old one, all buffers have in common with those before. -/
theorem map_withBuffer {α : Type} {g : Buffer Reaction Mark → α} {d : Desk L} {n : Nat} {b : Buffer Reaction Mark}
    (h : g b = g (d.bufferAt n)) : (d.withBuffer n b).buffers.map g = d.buffers.map g := by
  apply List.ext_getElem?
  intro i
  simp only [withBuffer, List.getElem?_map, List.getElem?_set]
  by_cases hi : n = i
  · subst hi
    by_cases hlt : n < d.buffers.length
    · rw [if_pos rfl, if_pos hlt, Option.map_some, h, bufferAt, List.getElem?_eq_getElem hlt]
      rfl
    · rw [if_pos rfl, if_neg hlt, List.getElem?_eq_none (by omega)]
  · rw [if_neg hi]

/-- A buffer that keeps its address leaves the addresses as they are. -/
theorem map_uri_withBuffer {d : Desk L} {n : Nat} {b : Buffer Reaction Mark} (huri : b.uri = (d.bufferAt n).uri) :
    (d.withBuffer n b).buffers.map Buffer.uri = d.buffers.map Buffer.uri := map_withBuffer huri

/-- What is held under an address is a buffer of that address. -/
structure Filed (d : Desk L) : Prop where
  single : (Keyed.keys d.session.attachments).Nodup
  filed : ∀ uri a, (uri, a) ∈ d.session.attachments → (d.buffers.map Buffer.uri)[a.buffer]? = some uri

theorem Filed.lt_of_mem {d : Desk L} (h : d.Filed) {uri : String} {a : Attachment}
    (hmem : (uri, a) ∈ d.session.attachments) : a.buffer < d.buffers.length := by
  have hfiled := List.getElem?_eq_some_iff.mp (h.filed uri a hmem)
  exact List.length_map (f := Buffer.uri) ▸ hfiled.1

theorem Filed.of_eq {d d' : Desk L} (h : d.Filed) (huris : d'.buffers.map Buffer.uri = d.buffers.map Buffer.uri)
    (hattachments : d'.session.attachments = d.session.attachments) : d'.Filed where
  single := hattachments ▸ h.single
  filed := fun uri a hmem => by
    rw [huris]
    exact h.filed uri a (hattachments ▸ hmem)

theorem Filed.of_empty {d : Desk L} (h : d.session.attachments = []) : d.Filed where
  single := by
    rw [h]
    exact List.nodup_nil
  filed := fun uri a hmem => by
    rw [h] at hmem
    cases hmem

theorem Filed.append {d : Desk L} (h : d.Filed) (b : Buffer Reaction Mark) :
    Filed { d with buffers := d.buffers ++ [b] } where
  single := h.single
  filed := fun uri a hmem => by
    have hbuffer := h.filed uri a hmem
    rw [List.map_append, List.getElem?_append_left (List.getElem?_eq_some_iff.mp hbuffer).1]
    exact hbuffer

theorem uri_of_getElem? {d : Desk L} {n : Nat} {uri : String} (h : (d.buffers.map Buffer.uri)[n]? = some uri) :
    (d.bufferAt n).uri = uri := by
  rw [List.getElem?_map] at h
  obtain ⟨b, hb, rfl⟩ := Option.map_eq_some_iff.mp h
  rw [bufferAt, hb, Option.getD_some]

namespace Tied

variable {uris : List String} {ns : String} {d : Desk L} (h : Tied uris ns d)
include h

theorem length : d.buffers.length = uris.length := by
  rw [← h.named, List.length_map]

theorem uri_eq {n : Nat} {uri : String} (hn : uris[n]? = some uri) : (d.bufferAt n).uri = uri := by
  rw [← h.named, List.getElem?_map] at hn
  obtain ⟨b, hb, rfl⟩ := Option.map_eq_some_iff.mp hn
  rw [bufferAt, hb, Option.getD_some]

theorem uri_of_lt {n : Nat} (hn : n < uris.length) : uris[n]? = some (d.bufferAt n).uri := by
  have hsome : uris[n]? = some uris[n] := List.getElem?_eq_getElem hn
  rw [h.uri_eq hsome, hsome]

/-- The session's link and its panes do not matter. -/
theorem of_eq {d' : Desk L} (hbuffers : d'.buffers = d.buffers) (hns : d'.session.ns = d.session.ns)
    (hattachments : d'.session.attachments = d.session.attachments) (hactive : d'.session.active = d.session.active) :
    Tied uris ns d' := by
  have hat (n : Nat) : d'.bufferAt n = d.bufferAt n := by rw [bufferAt, hbuffers, ← bufferAt]
  refine ⟨hbuffers ▸ h.named, hns.trans h.ofNs, hattachments ▸ h.single, ?_, ?_, ?_⟩
  · intro uri a hmem
    rw [hat]
    exact h.held uri a (hattachments ▸ hmem)
  · intro n uri hn hout
    rw [hat]
    exact h.idle n uri hn (hattachments ▸ hout)
  · intro uri huri
    rw [hattachments]
    exact h.active uri (hactive ▸ huri)

/-- A buffer may change in all that is neither its address nor, unless it is attached, its marks. -/
theorem withBuffer {n : Nat} {b : Buffer Reaction Mark} (huri : b.uri = (d.bufferAt n).uri)
    (hsub : b.subscriptions = (d.bufferAt n).subscriptions) (hrolls : b.rolls = (d.bufferAt n).rolls)
    (hmarks : (d.bufferAt n).uri ∉ Keyed.keys d.session.attachments → b.marks = (d.bufferAt n).marks) :
    Tied uris ns (d.withBuffer n b) := by
  refine ⟨(map_uri_withBuffer huri).trans h.named, h.ofNs, h.single, ?_, ?_, h.active⟩
  · intro uri a hmem
    obtain ⟨hn, hserves⟩ := h.held uri a hmem
    refine ⟨hn, ?_⟩
    rw [bufferAt_withBuffer]
    split
    · next heq =>
      rw [heq.1] at hserves
      exact hserves.of_subscriptions hsub hrolls
    · exact hserves
  · intro m uri hm hout
    have hidle := h.idle m uri hm hout
    rw [bufferAt_withBuffer]
    split
    · next heq =>
      obtain ⟨rfl, -⟩ := heq
      have hout' : (d.bufferAt m).uri ∉ Keyed.keys d.session.attachments := by
        rw [h.uri_eq hm]
        exact hout
      exact hidle.of_subscriptions hsub hrolls (hmarks hout')
    · exact hidle

end Tied

/-! ## Attaching and letting go -/

variable (carrier : Carrier L) (uris : List String) (ns : String)

theorem run_buffer (n : Nat) (d : Desk L) : (buffer n).run.run d = (.ok (d.bufferAt n), d) := rfl

theorem run_editBuffer (n : Nat) (f : Buffer Reaction Mark → Buffer Reaction Mark) (d : Desk L) :
    (editBuffer n f).run.run d = (.ok (), d.withBuffer n (f (d.bufferAt n))) := rfl

theorem run_editSession (f : Session → Session) (d : Desk L) :
    (editSession f).run.run d = (.ok (), { d with session := f d.session }) := rfl

/-- The desk that holds the buffer, with subscriptions to everything that the session wants to hear of. -/
def holding (d : Desk L) (n : Nat) : Desk L :=
  let b := d.bufferAt n
  { d.withBuffer n (subscribeAll b).2 with
    session := { d.session with
      attachments := Keyed.put b.uri ⟨n, (subscribeAll b).1⟩ d.session.attachments
      active := some b.uri } }

/-- In continuous mode the server checks up to the cursor. -/
def check (carrier : Carrier L) (n : Nat) : Op L Unit := do
  if (← proofMode) = .continuous then interpretTo carrier n .cursor

theorem run_attach (n : Nat) (d : Desk L) :
    (attach carrier n).run.run d =
      if d.isAttached (d.bufferAt n).uri then (.error (.alreadyAttached (d.bufferAt n).uri), d)
      else (check carrier n).run.run (d.holding n) := by
  unfold attach
  simp only [run_bind, run_buffer, run_get]
  by_cases hattached : d.isAttached (d.bufferAt n).uri = true
  · rw [if_pos hattached, if_pos hattached]
    rfl
  · rw [if_neg hattached, if_neg hattached]
    simp only [check, run_bind, run_editBuffer, run_editSession]
    rfl

def releasing (d : Desk L) (n : Nat) (a : Attachment) : Desk L :=
  let uri := (d.bufferAt n).uri
  let d₁ := d.withBuffer n ((d.bufferAt n).clearMarks d.session.ns)
  let d₂ := d₁.withBuffer a.buffer (a.handles.foldl Buffer.cancel (d₁.bufferAt a.buffer))
  { d₂ with session := { d.session with
      attachments := Keyed.erase uri d.session.attachments
      active := if d.session.active = some uri then none else d.session.active } }

theorem run_detach (n : Nat) (d : Desk L) :
    (detach n).run.run d =
      match Keyed.get? (d.bufferAt n).uri d.session.attachments with
      | none => (.error (.notAttached (d.bufferAt n).uri), d)
      | some a => (.ok (), d.releasing n a) := by
  unfold detach
  simp only [run_bind, run_buffer, run_get]
  cases Keyed.get? (d.bufferAt n).uri d.session.attachments with
  | none => rfl
  | some a =>
    simp only [run_bind, run_editSession, run_get, run_editBuffer]
    by_cases hactive : d.session.active = some (d.bufferAt n).uri
    · simp only [releasing, withBuffer, bufferAt] at hactive ⊢
      simp [hactive]
    · simp only [releasing, withBuffer, bufferAt] at hactive ⊢
      simp [hactive]

theorem bufferAt_holding (d : Desk L) (n m : Nat) :
    (d.holding n).bufferAt m =
      if m = n ∧ n < d.buffers.length then (subscribeAll (d.bufferAt n)).2 else d.bufferAt m :=
  bufferAt_withBuffer d n m _

theorem attachments_holding {d : Desk L} {n : Nat} (hout : (d.bufferAt n).uri ∉ Keyed.keys d.session.attachments) :
    (d.holding n).session.attachments =
      d.session.attachments ++ [((d.bufferAt n).uri, ⟨n, (subscribeAll (d.bufferAt n)).1⟩)] :=
  Keyed.put_of_notMem _ hout

theorem map_uri_holding (d : Desk L) (n : Nat) :
    (d.holding n).buffers.map Buffer.uri = d.buffers.map Buffer.uri :=
  map_uri_withBuffer (Buffer.uri_subscribeAll _)

theorem map_uri_releasing (d : Desk L) (n : Nat) (a : Attachment) :
    (d.releasing n a).buffers.map Buffer.uri = d.buffers.map Buffer.uri := by
  let d₁ := d.withBuffer n ((d.bufferAt n).clearMarks d.session.ns)
  have hcancel : (a.handles.foldl Buffer.cancel (d₁.bufferAt a.buffer)).uri = (d₁.bufferAt a.buffer).uri :=
    Buffer.foldl_cancel Buffer.uri Buffer.uri_cancel _ _
  exact (map_uri_withBuffer hcancel).trans (map_uri_withBuffer rfl)

/-- The buffer that is held under its own address is let go with its marks cleared; no other is touched. -/
theorem bufferAt_releasing {d : Desk L} {n : Nat} {a : Attachment} (hsame : a.buffer = n) (hn : n < d.buffers.length)
    (m : Nat) : (d.releasing n a).bufferAt m =
      if m = n then a.handles.foldl Buffer.cancel ((d.bufferAt n).clearMarks d.session.ns) else d.bufferAt m := by
  let cleared := (d.bufferAt n).clearMarks d.session.ns
  have hcleared : (d.withBuffer n cleared).bufferAt n = cleared := by
    rw [bufferAt_withBuffer, if_pos ⟨rfl, hn⟩]
  have hbuffers : (d.releasing n a).buffers = d.buffers.set n (a.handles.foldl Buffer.cancel cleared) := by
    show ((d.buffers.set n cleared).set a.buffer
      (a.handles.foldl Buffer.cancel ((d.withBuffer n cleared).bufferAt a.buffer))) = _
    rw [hsame, hcleared, List.set_set]
  have hat := bufferAt_withBuffer d n m (a.handles.foldl Buffer.cancel cleared)
  simp only [hn, and_true] at hat
  rw [← hat, bufferAt, hbuffers]
  rfl

/-- If the active buffer was attached, it still is. -/
theorem active_releasing {d : Desk L} (h : ∀ uri, d.session.active = some uri → uri ∈ Keyed.keys d.session.attachments)
    {n : Nat} {a : Attachment} {uri : String} (huri : (d.releasing n a).session.active = some uri) :
    uri ∈ Keyed.keys (d.releasing n a).session.attachments := by
  have hactive : (if d.session.active = some (d.bufferAt n).uri then none else d.session.active) = some uri := huri
  split at hactive
  · cases hactive
  · next hne =>
    refine Keyed.mem_keys_erase.mpr ⟨h uri hactive, ?_⟩
    rintro rfl
    exact hne hactive

theorem Filed.holding {d : Desk L} (h : d.Filed) {n : Nat} (hn : n < d.buffers.length)
    (hout : (d.bufferAt n).uri ∉ Keyed.keys d.session.attachments) : (d.holding n).Filed := by
  have huris := map_uri_holding d n
  have hput := attachments_holding hout
  refine ⟨?_, fun uri a hmem => ?_⟩
  · rw [hput]
    exact Keyed.nodup_append_single h.single hout
  · rw [huris]
    rw [hput] at hmem
    rcases List.mem_append.mp hmem with hmem | hmem
    · exact h.filed uri a hmem
    · cases List.mem_singleton.mp hmem
      rw [List.getElem?_map, List.getElem?_eq_getElem hn, Option.map_some, bufferAt, List.getElem?_eq_getElem hn,
        Option.getD_some]

theorem Filed.releasing {d : Desk L} (h : d.Filed) (n : Nat) (a : Attachment) : (d.releasing n a).Filed := by
  have huris := map_uri_releasing d n a
  refine ⟨Keyed.nodup_erase h.single, fun uri a' hmem => ?_⟩
  rw [huris]
  exact h.filed uri a' (Keyed.mem_erase.mp hmem).1

section Tied

variable {uris : List String} {ns : String}

/-- Addresses are distinct, so the buffer that is held under an address is the one that has it. -/
theorem Tied.buffer_eq {d : Desk L} (h : Tied uris ns d) (distinct : uris.Nodup) {n : Nat} {uri : String}
    (hn : uris[n]? = some uri) {a : Attachment} (ha : Keyed.get? uri d.session.attachments = some a) :
    a.buffer = n ∧ (d.bufferAt n).Serves a.handles := by
  obtain ⟨hbuffer, hserves⟩ := h.held uri a (Keyed.mem_of_get? ha)
  have hsame : a.buffer = n :=
    (List.getElem?_inj (List.getElem?_eq_some_iff.mp hbuffer).1 distinct).mp (hbuffer.trans hn.symm)
  exact ⟨hsame, hsame ▸ hserves⟩

theorem Tied.holding {d : Desk L} (h : Tied uris ns d) {n : Nat} (hn : n < uris.length)
    (hout : (d.bufferAt n).uri ∉ Keyed.keys d.session.attachments) : Tied uris ns (d.holding n) := by
  have huri := h.uri_of_lt hn
  have hidle := h.idle n _ huri hout
  have hlt : n < d.buffers.length := by rw [h.length]; exact hn
  have hat := bufferAt_holding d n
  have hput := attachments_holding hout
  constructor
  case named => exact (map_uri_holding d n).trans h.named
  case ofNs => exact h.ofNs
  case single =>
    rw [hput]
    exact Keyed.nodup_append_single h.single hout
  case held =>
    intro uri a ha
    rw [hput] at ha
    rcases List.mem_append.mp ha with ha | ha
    · obtain ⟨hbuffer, hserves⟩ := h.held uri a ha
      have hne : a.buffer ≠ n := by
        intro he
        rw [he, huri] at hbuffer
        rw [Option.some.inj hbuffer] at hout
        exact hout (List.mem_map.mpr ⟨_, ha, rfl⟩)
      refine ⟨hbuffer, ?_⟩
      rw [hat, if_neg (fun he => hne he.1)]
      exact hserves
    · cases List.mem_singleton.mp ha
      refine ⟨huri, ?_⟩
      rw [hat, if_pos ⟨rfl, hlt⟩]
      exact hidle.silent.serves
  case idle =>
    intro m uri hm hnot
    rw [hput, Keyed.keys_append_single, List.mem_append, not_or, List.mem_singleton] at hnot
    have hne : m ≠ n := by
      rintro rfl
      rw [huri] at hm
      exact hnot.2 (Option.some.inj hm).symm
    rw [hat, if_neg (fun he => hne he.1)]
    exact h.idle m uri hm hnot.1
  case active =>
    intro uri huri'
    cases huri'
    rw [hput, Keyed.keys_append_single]
    exact List.mem_append_right _ (List.mem_singleton.mpr rfl)

theorem Tied.releasing {d : Desk L} (h : Tied uris ns d) (distinct : uris.Nodup) {n : Nat} (hn : n < uris.length)
    {a : Attachment} (ha : Keyed.get? (d.bufferAt n).uri d.session.attachments = some a) :
    Tied uris ns (d.releasing n a) := by
  obtain rfl := h.ofNs
  have huri := h.uri_of_lt hn
  obtain ⟨hsame, hserves⟩ := h.buffer_eq distinct huri ha
  have hat := bufferAt_releasing hsame (by rw [h.length]; exact hn)
  constructor
  case named => exact (map_uri_releasing d n a).trans h.named
  case ofNs => rfl
  case single => exact Keyed.nodup_erase h.single
  case held =>
    intro uri a' ha'
    obtain ⟨ha', hne⟩ := Keyed.mem_erase.mp ha'
    obtain ⟨hbuffer', hserves'⟩ := h.held uri a' ha'
    have hother : a'.buffer ≠ n := by
      intro he
      rw [he, huri] at hbuffer'
      exact hne (Option.some.inj hbuffer').symm
    refine ⟨hbuffer', ?_⟩
    rw [hat, if_neg hother]
    exact hserves'
  case idle =>
    intro m uri hm hnot
    rw [hat]
    by_cases hmn : m = n
    · rw [if_pos hmn]
      exact hserves.idle d.session.ns
    · rw [if_neg hmn]
      have hother : uri ≠ (d.bufferAt n).uri := by
        intro he
        rw [he, ← huri] at hm
        exact hmn ((List.getElem?_inj (List.getElem?_eq_some_iff.mp (hm.trans huri)).1 distinct).mp hm)
      exact h.idle m uri hm fun hkey => hnot (Keyed.mem_keys_erase.mpr ⟨hkey, hother⟩)
  case active => exact fun uri hactive => active_releasing h.active hactive

/-- A buffer with an active subscription is attached. -/
theorem Tied.attached_of_isActive {d : Desk L} (h : Tied uris ns d) {n : Nat} (hn : n < uris.length) {k : Nat}
    (hk : (d.bufferAt n).isActive k = true) : (d.bufferAt n).uri ∈ Keyed.keys d.session.attachments := by
  by_contra hout
  have hoff := (h.idle n _ (h.uri_of_lt hn) hout).deaf k
  rw [hk] at hoff
  cases hoff

end Tied

end Desk
end CoqConsole
