import CoqConsole.Proofs.Session.Upkeep

/-!
# What a session holds, along any run

* `Desk.Event`, `Desk.after`, `Desk.follow` : what can befall a session and its buffers, failures included;
* `Upkeep.after` : what is kept whatever is done to a desk is kept by each;
* `tied_after`, `tied_follow` : no step unties the desk, and so no run does;
* `Desk.Consistent` : attachments, subscriptions, marks and the active buffer agree;
* `attachments_consistent` : they agree after every run of a session that started without attachments.
-/

namespace CoqConsole.Desk

variable {L : Type}

/-! ## Runs -/

/-- What can befall a session and its buffers. -/
inductive Event (L : Type)
  | attach (n : Nat)
  | detach (n : Nat)
  | adopt (n : Nat)
  | release (n : Nat)
  | shutdown
  | closeBuffer (n : Nat)
  | moveCursor (n : Nat) (p : Position)
  | replaceText (n : Nat) (text : String)
  | updateSettings (partialSettings : Json)
  | toggleMode
  /-- A notification comes from the server. -/
  | hear (params : Json) (signal : Signal)
  /-- Something befalls the link, such as the death of the server. -/
  | relink (link : L)

def Event.buffer? : Event L → Option Nat
  | attach n | detach n | adopt n | release n | closeBuffer n | moveCursor n _ | replaceText n _ => some n
  | _ => none

section Runs

variable (carrier : Carrier L)

/-- The desk after an event; a failure keeps what was done before it. -/
def after (d : Desk L) : Event L → Desk L
  | .attach n => ((attach carrier n).run.run d).2
  | .detach n => ((detach n).run.run d).2
  | .adopt n => ((adopt carrier n).run.run d).2
  | .release n => ((release carrier n).run.run d).2
  | .shutdown => (shutdown.run.run d).2
  | .closeBuffer n => ((closeBuffer carrier n).run.run d).2
  | .moveCursor n p => ((moveCursor carrier n p).run.run d).2
  | .replaceText n text => ((replaceText carrier n text).run.run d).2
  | .updateSettings partialSettings => ((updateSettings carrier partialSettings).run.run d).2
  | .toggleMode => ((toggleMode carrier).run.run d).2
  | .hear params signal => ((hear carrier params signal).run.run d).2
  | .relink link => { d with link }

def follow (d : Desk L) (es : List (Event L)) : Desk L := es.foldl (after carrier) d

end Runs

variable {carrier : Carrier L} {uris : List String} {ns : String} {d : Desk L}

/-- What everything that a desk does to itself keeps, an event keeps. -/
theorem Upkeep.after {here : Nat → Prop} {I : Desk L → Prop} (u : Upkeep carrier here (fun _ => True) I) {k : Nat}
    (hhold : ∀ (d : Desk L) (n : Nat), I d → n < d.buffers.length →
      (d.bufferAt n).uri ∉ Keyed.keys d.session.attachments → I (d.holding n))
    (h : I d ∧ d.buffers.length = k) (e : Event L) (he : ∀ n, e.buffer? = some n → here n ∧ n < k)
    (hlink : ∀ link, e = .relink link → I { d with link }) :
    I (d.after carrier e) ∧ (d.after carrier e).buffers.length = k := by
  have v := u.sized k
  cases e with
  | attach n => exact u.attach (he n rfl).2 (hhold · n) d h
  | detach n => exact v.detach (he n rfl).1 d h
  | adopt n => exact u.adopt (he n rfl).2 (hhold · n) d h
  | release n => exact v.releasing (he n rfl).1 d h
  | shutdown => exact v.shutdown d h
  | closeBuffer n => exact v.closeBuffer (he n rfl).1 d h
  | moveCursor n p => exact v.moveCursor (he n rfl).1 trivial d h
  | replaceText n text => exact v.replaceText (he n rfl).1 text d h
  | updateSettings partialSettings => exact v.conduct.updateSettings partialSettings d h
  | toggleMode => exact v.conduct.toggleMode d h
  | hear params signal => exact v.conduct.hear params signal d h
  | relink link => exact ⟨hlink link rfl, h.2⟩

theorem Tied.upkeep (distinct : uris.Nodup) : Upkeep carrier (· < uris.length) (fun _ => True) (Tied (L := L) uris ns) where
  met _ := trivial
  filed h := ⟨h.single, fun uri a hmem => h.named ▸ (h.held uri a hmem).1⟩
  held h hmem := (List.getElem?_eq_some_iff.mp (h.held _ _ hmem).1).1
  send h _ := h.of_eq rfl rfl rfl rfl
  note _ _ h hns hattachments hactive := h.of_eq rfl hns hattachments hactive
  edit h hedited hmarks := h.withBuffer hedited.uri hedited.subscriptions hedited.rolls fun hout => hmarks.resolve_right hout
  turn h hn hk := by
    refine ⟨h.named, h.ofNs, h.single, h.held, h.idle, fun uri huri => ?_⟩
    cases huri
    exact h.attached_of_isActive hn hk
  release h hn ha := h.releasing distinct hn ha

theorem tied_after (h : Tied uris ns d) (distinct : uris.Nodup) (e : Event L)
    (he : ∀ n, e.buffer? = some n → n < uris.length) : Tied uris ns (d.after carrier e) :=
  ((Tied.upkeep distinct).after (fun _ _ h hn hout => h.holding (h.length ▸ hn) hout) ⟨h, h.length⟩ e
    (fun n hn => ⟨he n hn, he n hn⟩) fun _ _ => h.of_eq rfl rfl rfl rfl).1

theorem tied_follow (h : Tied uris ns d) (distinct : uris.Nodup) (es : List (Event L))
    (hes : ∀ e ∈ es, ∀ n, e.buffer? = some n → n < uris.length) : Tied uris ns (d.follow carrier es) := by
  induction es generalizing d with
  | nil => exact h
  | cons e es ih =>
    exact ih (tied_after h distinct e (hes e List.mem_cons_self)) fun e' he' => hes e' (List.mem_cons_of_mem _ he')

/-! ## Sessions from their start -/

/-- Nothing is attached. The buffers have addresses of their own, nobody has subscribed to them, and no mark is in
the session's namespace. -/
structure IsFresh (d : Desk L) : Prop where
  distinct : (d.buffers.map Buffer.uri).Nodup
  attachments : d.session.attachments = []
  active : d.session.active = none
  unheard : ∀ b ∈ d.buffers, b.subscriptions = [] ∧ b.rolls = (⟨[], [], []⟩ : Rolls)
  unmarked : ∀ b ∈ d.buffers, Buffer.marksIn b d.session.ns = []

theorem IsFresh.tied (h : d.IsFresh) : Tied (d.buffers.map Buffer.uri) d.session.ns d := by
  refine ⟨rfl, rfl, ?_, ?_, ?_, ?_⟩
  · rw [h.attachments]
    exact List.nodup_nil
  · intro uri a hmem
    rw [h.attachments] at hmem
    cases hmem
  · intro n uri hn _
    rw [List.getElem?_map] at hn
    obtain ⟨b, hb, rfl⟩ := Option.map_eq_some_iff.mp hn
    have hmem := List.mem_of_getElem? hb
    obtain ⟨hsub, hrolls⟩ := h.unheard b hmem
    rw [bufferAt, hb, Option.getD_some]
    refine ⟨⟨fun e => ?_, fun e k => ?_⟩, fun k => ?_, h.unmarked b hmem⟩
    · rw [Buffer.roll, hrolls]
      cases e <;> exact List.nodup_nil
    · rw [Buffer.roll, hrolls, hsub]
      cases e <;> simp [Rolls.of]
    · rw [Buffer.isActive, hsub]
      rfl
  · intro uri huri
    rw [h.active] at huri
    cases huri

theorem isFresh_create {overrides : Json} {s : Session} (created : Session.create overrides ns = .ok s)
    (texts : List (String × String)) (distinct : (texts.map Prod.fst).Nodup) (link : L) :
    IsFresh ⟨s, texts.map fun t => .ofText t.1 t.2 Buffer.defaultLanguage, link⟩ := by
  have hempty := Session.attachments_create created
  refine ⟨?_, hempty.1, hempty.2, ?_, ?_⟩
  · rw [List.map_map]
    exact distinct
  · intro b hb
    obtain ⟨t, -, rfl⟩ := List.mem_map.mp hb
    exact ⟨rfl, rfl⟩
  · intro b hb
    obtain ⟨t, -, rfl⟩ := List.mem_map.mp hb
    rfl

/-- What the attachments of a session say of its buffers, and they of it. -/
structure Consistent (carrier : Carrier L) (d : Desk L) : Prop where
  /-- A buffer that is attached is held under its address, and of each event the session hears once. -/
  attached : ∀ (n : Nat) (b : Buffer Reaction Mark), d.buffers[n]? = some b → d.isAttached b.uri = true →
    d.attached? b.uri = some n ∧ ∀ e r, (e, r) ∈ interests → b.heardBy e = [r]
  /-- Of one that is not attached it hears nothing, and has no marks there. -/
  idle : ∀ (n : Nat) (b : Buffer Reaction Mark), d.buffers[n]? = some b → d.isAttached b.uri = false →
    (∀ e, b.heardBy e = []) ∧ b.marksIn d.session.ns = []
  /-- An emission goes to those that hear of the event. -/
  rolls : ∀ b ∈ d.buffers, b.Enrolled
  /-- Nothing else is attached. -/
  held : ∀ uri, d.isAttached uri = true → ∃ b ∈ d.buffers, b.uri = uri
  active : ∀ uri, d.session.active = some uri → d.isAttached uri = true
  /-- An attached buffer cannot be attached again, with or without a word to the server. -/
  again : ∀ (n : Nat) (b : Buffer Reaction Mark), d.buffers[n]? = some b → d.isAttached b.uri = true →
    (attach carrier n).run.run d = (.error (.alreadyAttached b.uri), d) ∧
      (adopt carrier n).run.run d = (.error (.alreadyAttached b.uri), d)
  /-- One that is not attached cannot be let go. -/
  never : ∀ (n : Nat) (b : Buffer Reaction Mark), d.buffers[n]? = some b → d.isAttached b.uri = false →
    (detach n).run.run d = (.error (.notAttached b.uri), d) ∧
      (release carrier n).run.run d = (.error (.notAttached b.uri), d)

theorem run_adopt_of_attached {n : Nat} (h : d.isAttached (d.bufferAt n).uri = true) :
    (adopt carrier n).run.run d = (.error (.alreadyAttached (d.bufferAt n).uri), d) := by
  rw [run_adopt, if_pos h]

theorem run_detach_of_not_attached {n : Nat} (h : d.isAttached (d.bufferAt n).uri = false) :
    (detach n).run.run d = (.error (.notAttached (d.bufferAt n).uri), d) := by
  have hnone : Keyed.get? (d.bufferAt n).uri d.session.attachments = none :=
    Option.isNone_iff_eq_none.mp (Option.isSome_eq_false_iff.mp h)
  rw [run_detach, hnone]

theorem run_release_of_not_attached {n : Nat} (h : d.isAttached (d.bufferAt n).uri = false) :
    (release carrier n).run.run d = (.error (.notAttached (d.bufferAt n).uri), d) := by
  have hnone : Keyed.get? (d.bufferAt n).uri d.session.attachments = none :=
    Option.isNone_iff_eq_none.mp (Option.isSome_eq_false_iff.mp h)
  rw [run_release, hnone]

theorem Tied.consistent (h : Tied uris ns d) (distinct : uris.Nodup) : Consistent carrier d := by
  have hat {n : Nat} {b : Buffer Reaction Mark} (hb : d.buffers[n]? = some b) : d.bufferAt n = b := by
    rw [bufferAt, hb, Option.getD_some]
  have huri {n : Nat} {b : Buffer Reaction Mark} (hb : d.buffers[n]? = some b) : uris[n]? = some b.uri := by
    rw [← h.named, List.getElem?_map, hb, Option.map_some]
  have hserves {n : Nat} {b : Buffer Reaction Mark} (hb : d.buffers[n]? = some b)
      (hattached : d.isAttached b.uri = true) : ∃ a, Keyed.get? b.uri d.session.attachments = some a ∧
        a.buffer = n ∧ b.Serves a.handles := by
    obtain ⟨a, ha⟩ := Option.isSome_iff_exists.mp hattached
    obtain ⟨hn, hserves⟩ := h.buffer_eq distinct (huri hb) ha
    exact ⟨a, ha, hn, hat hb ▸ hserves⟩
  have hidle {n : Nat} {b : Buffer Reaction Mark} (hb : d.buffers[n]? = some b)
      (hfree : d.isAttached b.uri = false) : b.Idle ns := by
    rw [← hat hb]
    refine h.idle n b.uri (huri hb) ?_
    rw [← Keyed.has_eq_true, show Keyed.has b.uri d.session.attachments = false from hfree]
    exact Bool.false_ne_true
  constructor
  case attached =>
    intro n b hb hattached
    obtain ⟨a, ha, hn, hserves⟩ := hserves hb hattached
    refine ⟨?_, hserves.heard⟩
    rw [attached?, ha, Option.map_some, hn]
  case idle =>
    intro n b hb hfree
    rw [h.ofNs]
    exact ⟨(hidle hb hfree).deaf.heardBy, (hidle hb hfree).unmarked⟩
  case rolls =>
    intro b hmem
    obtain ⟨n, hb⟩ := List.getElem?_of_mem hmem
    cases hattached : d.isAttached b.uri with
    | true =>
      obtain ⟨a, -, -, hserves⟩ := hserves hb hattached
      exact hserves.enrolled
    | false => exact (hidle hb hattached).enrolled
  case held =>
    intro uri hattached
    obtain ⟨a, ha⟩ := Option.isSome_iff_exists.mp hattached
    have hbuffer := (h.held uri a (Keyed.mem_of_get? ha)).1
    rw [← h.named, List.getElem?_map] at hbuffer
    obtain ⟨b, hb, rfl⟩ := Option.map_eq_some_iff.mp hbuffer
    exact ⟨b, List.mem_of_getElem? hb, rfl⟩
  case active =>
    intro uri huri
    exact Keyed.has_eq_true.mpr (h.active uri huri)
  case again =>
    intro n b hb hattached
    rw [← hat hb] at hattached ⊢
    refine ⟨?_, run_adopt_of_attached hattached⟩
    rw [run_attach, if_pos hattached]
  case never =>
    intro n b hb hfree
    rw [← hat hb] at hfree ⊢
    exact ⟨run_detach_of_not_attached hfree, run_release_of_not_attached hfree⟩

/-- A session that starts without attachments. -/
theorem attachments_consistent (hd : d.IsFresh) (es : List (Event L))
    (hes : ∀ e ∈ es, ∀ n, e.buffer? = some n → n < d.buffers.length) :
    Consistent carrier (d.follow carrier es) := by
  refine (tied_follow hd.tied hd.distinct es ?_).consistent hd.distinct
  intro e he n hn
  rw [List.length_map]
  exact hes e he n hn

def wire : Carrier Bool := ⟨fun _ _ up => if up then .ok up else .error .notRunning, fun _ => .null⟩

/-- Two buffers are opened and one gets marks. The server dies, a text can no longer be sent, and one buffer is closed,
which lets it go although the server does not hear of it. -/
def bereaved : List (Event Bool) :=
  let point (character : Int) : Json := .object [("line", .int 0), ("character", .int character)]
  [.adopt 0, .adopt 1,
    .hear (.object [("uri", .text "a"),
      ("processedRange", .array [.object [("start", point 0), ("end", point 1)]])]) .progress,
    .moveCursor 0 .zero, .relink false, .replaceText 1 "Qed.", .closeBuffer 0]

/-- Each buffer's address, whether it is attached, how many marks it carries, and how many hear of its closing. -/
def overview (d : Desk Bool) : List (String × Bool × Nat × Nat) :=
  d.buffers.map fun b => (b.uri, d.isAttached b.uri, (b.marksIn d.session.ns).length, (b.heardBy .closed).length)

theorem attachments_consistent_bereaved : ∃ s : Session, Session.create (.object []) "ns" = .ok s ∧
    let d : Desk Bool := ⟨s, [("a", "Proof."), ("b", "")].map fun t => .ofText t.1 t.2 Buffer.defaultLanguage, true⟩
    (d.follow wire (bereaved.take 4)).overview = [("a", true, 1, 1), ("b", true, 0, 1)] ∧
      (d.follow wire (bereaved.take 4)).session.active = some "a" ∧
      (d.follow wire bereaved).overview = [("a", false, 0, 0), ("b", true, 0, 1)] ∧
      (d.follow wire bereaved).session.active = none ∧ Consistent wire (d.follow wire bereaved) := by
  obtain ⟨s, created⟩ : ∃ s, Session.create (.object []) "ns" = .ok s := ⟨_, rfl⟩
  refine ⟨s, created, ?_, ?_, ?_, ?_, ?_⟩
  case refine_5 =>
    refine attachments_consistent (isFresh_create created [("a", "Proof."), ("b", "")] (by decide) true) bereaved ?_
    have hbuffers : ∀ e ∈ bereaved, ∀ n ∈ e.buffer?, n < 2 := by decide
    exact hbuffers
  all_goals
    cases created
    decide +kernel

end CoqConsole.Desk
