import CoqConsole.Proofs.Session.Attaching
import CoqConsole.Session.Exchange

/-!
# What operations do to a desk

However long an operation is, it does few things to a desk: it sends, it changes the session's records, it edits a
buffer, it makes one active, and it holds a buffer or lets one go. What each of these keeps, all operations keep.

* `Looks` for what only looks: `looks_proofMode`, `looks_subject`, `looks_wirePlace`; `run_send`, `run_interpretTo`;
* `meant`, `hearCursor_eq`, `Desk.Meant` : which cursor a notification moves, and where to;
* `Desk.Noted` : the property is kept by notes of the session; so by `Noted.begin` and `Noted.finish`;
* `Desk.Speech` : and by messages about settings or a version of a buffer; so by `Speech.interpretTo`, `Speech.step`;
* `Desk.Conduct` : and by marks and moves of the cursor; so by `Conduct.updateSettings` and `Conduct.hear`;
* `Desk.Upkeep` : and by every message and edit, and by letting go; so by all operations, in the midst of an emission
  too; by `Upkeep.adopt` if a buffer that is there can be held.
-/

namespace CoqConsole

def Carrier.named {L : Type} (carrier : Carrier L) (link : L) : Json :=
  if (carrier.encoding link).truthy then carrier.encoding link else Encoding.defaultName

namespace Desk

variable {L : Type} {carrier : Carrier L}

/-! ## What only looks -/

theorem looks_buffer (n : Nat) : Looks (buffer (L := L) n) := fun _ => rfl

theorem looks_proofMode : Looks (proofMode (L := L)) := .bind .get fun _ => .lift _

theorem run_proofMode (d : Desk L) : proofMode.run.run d = (Settings.proofMode d.session.settings, d) := by
  simp only [proofMode, run_bind, run_get, run_lift]

theorem looks_encoding : Looks (encoding carrier) := fun _ => rfl

theorem run_encoding (d : Desk L) : (encoding carrier).run.run d = (.ok (carrier.named d.link), d) := rfl

theorem looks_accepts (channel : String) (ticket : Int) : Looks (accepts (L := L) channel ticket) := fun _ => rfl

theorem looks_wirePlace (n : Nat) (p : Place) : Looks (wirePlace carrier n p) :=
  .bind (looks_buffer n) fun _ => .bind looks_encoding fun _ => .lift _

theorem looks_subject (params : Json) : Looks (subject (L := L) params) := by
  refine .bind (.lift _) fun key => ?_
  cases key with
  | text uri => exact .bind .get fun _ => .pure _
  | _ => exact .pure _

/-- The buffer that a notification is about is attached under the address that it names. -/
theorem run_subject_eq_some {params : Json} {d : Desk L} {n : Nat} (h : ((subject params).run.run d).1 = .ok (some n)) :
    ∃ uri a, params.member "uri" = .ok (.text uri) ∧ (uri, a) ∈ d.session.attachments ∧ a.buffer = n := by
  unfold subject at h
  simp only [run_bind, run_lift] at h
  cases hkey : params.member "uri" >>= Json.key with
  | error cause =>
    rw [hkey] at h
    cases h
  | ok key =>
    rw [hkey] at h
    cases key with
    | text uri =>
      have hget : (Keyed.get? uri d.session.attachments).map Attachment.buffer = some n := Except.ok.inj h
      obtain ⟨a, ha, hn⟩ := Option.map_eq_some_iff.mp hget
      cases hmember : params.member "uri" with
      | error cause =>
        rw [hmember] at hkey
        cases hkey
      | ok name =>
        rw [hmember] at hkey
        obtain rfl := Json.key_eq_text.mp hkey
        exact ⟨uri, a, rfl, Keyed.mem_of_get? ha, hn⟩
    | _ => cases h

theorem exists_of_active? {d : Desk L} {n : Nat} (h : d.active? = some n) :
    ∃ uri a, (uri, a) ∈ d.session.attachments ∧ a.buffer = n := by
  unfold active? at h
  cases hactive : d.session.active with
  | none =>
    rw [hactive] at h
    cases h
  | some uri =>
    rw [hactive] at h
    simp only [Option.bind_eq_bind, Option.bind_some] at h
    split at h
    · cases h
    · obtain ⟨a, ha, hn⟩ := Option.map_eq_some_iff.mp h
      exact ⟨uri, a, Keyed.mem_of_get? ha, hn⟩

/-! ## Where the server wants the cursor -/

/-- The buffer whose cursor a notification moves, and where to, if it moves one. -/
def meant (carrier : Carrier L) (params : Json) : Op L (Option (Nat × Position)) := do
  match ← subject params with
  | none => return none
  | some n =>
    if (← proofMode) = .manual then
      if ← (Settings.stickyCursor (← get).session.settings : Except Failure Bool) then
        let stop ← (params.member "range" >>= Json.member "end" : Except Failure Json)
        let e ← encoding carrier
        let p ← (Position.ofWire (← buffer n).lines stop e : Except Failure Position)
        return some (n, p)
      else return none
    else return none

/-- All is read before the cursor is moved. -/
theorem hearCursor_eq (params : Json) :
    hearCursor carrier params = meant carrier params >>= fun found =>
      match found with
      | some (n, p) => moveCursor carrier n p
      | none => pure () := by
  unfold hearCursor meant
  rw [bind_assoc]
  congr
  funext found
  cases found with
  | none => rw [pure_bind]
  | some n =>
    simp only [bind_assoc]
    congr
    funext mode
    split
    · simp only [bind_assoc]
      congr
      funext d
      congr
      funext sticky
      split
      · simp only [bind_assoc, pure_bind]
      · rw [pure_bind]
    · rw [pure_bind]

theorem looks_meant (params : Json) : Looks (meant carrier params) := by
  refine .bind (looks_subject params) fun found => ?_
  cases found with
  | none => exact .pure _
  | some n =>
    refine .bind looks_proofMode fun _ => .ite (.bind .get fun _ => .bind (.lift _) fun _ => ?_) (.pure _)
    refine .ite ?_ (.pure _)
    refine .bind (.lift _) fun _ => .bind looks_encoding fun _ => .bind (looks_buffer n) fun _ => ?_
    exact .bind (.lift _) fun _ => .pure _

/-- A cursor is moved only in manual mode, in an attached buffer, to a position that the server means. -/
structure Meant (d : Desk L) (params : Json) (n : Nat) (p : Position) : Prop where
  attached : ∃ uri a, params.member "uri" = .ok (.text uri) ∧ (uri, a) ∈ d.session.attachments ∧ a.buffer = n
  manual : Settings.proofMode d.session.settings = .ok .manual
  position : ∃ lines place e, Position.ofWire lines place e = .ok p

theorem meant_of_eq_some {params : Json} {d : Desk L} {n : Nat} {p : Position}
    (h : ((meant carrier params).run.run d).1 = .ok (some (n, p))) : Meant d params n p := by
  obtain ⟨found, hfound, h⟩ := (looks_subject params).bind_eq_ok.mp h
  cases found with
  | none => cases h
  | some m =>
    obtain ⟨mode, hmode, h⟩ := looks_proofMode.bind_eq_ok.mp h
    rw [run_ite] at h
    split at h
    · next hmanual =>
      obtain ⟨_, -, h⟩ := Looks.get.bind_eq_ok.mp h
      obtain ⟨_, -, h⟩ := (Looks.lift _).bind_eq_ok.mp h
      rw [run_ite] at h
      split at h
      · obtain ⟨stop, -, h⟩ := (Looks.lift _).bind_eq_ok.mp h
        obtain ⟨e, -, h⟩ := looks_encoding.bind_eq_ok.mp h
        obtain ⟨b, -, h⟩ := (looks_buffer m).bind_eq_ok.mp h
        obtain ⟨q, hq, h⟩ := (Looks.lift _).bind_eq_ok.mp h
        cases h
        rw [run_lift] at hq
        rw [run_proofMode, hmanual] at hmode
        exact ⟨run_subject_eq_some hfound, hmode, b.lines, stop, e, hq⟩
      · cases h
    · cases h

/-! ## What sends -/

theorem run_send (method : String) (params : Json) (d : Desk L) :
    (send carrier method params).run.run d =
      match carrier.send method params d.link with
      | .ok link => (.ok (), { d with link })
      | .error cause => (.error cause, d) := by
  simp only [send, run_bind, run_get, run_lift]
  cases carrier.send method params d.link <;> rfl

theorem run_interpretTo (n : Nat) (p : Place) (d : Desk L) :
    (interpretTo carrier n p).run.run d =
      match p.toWire (d.bufferAt n).lines (d.bufferAt n).cursor (carrier.named d.link) with
      | .ok place =>
        (send carrier "vscoq/interpretToPoint"
          (.object [("textDocument", versioned (d.bufferAt n)), ("position", place)])).run.run d
      | .error cause => (.error cause, d) := by
  simp only [interpretTo, wirePlace, run_bind, run_buffer, run_encoding, run_lift]
  cases p.toWire (d.bufferAt n).lines (d.bufferAt n).cursor (carrier.named d.link) <;> rfl

def opening (b : Buffer Reaction Mark) : Json :=
  .object [("textDocument", .object [
    ("uri", .text b.uri), ("languageId", .text b.languageId), ("version", .int b.version), ("text", .text b.text)])]

def changing (b : Buffer Reaction Mark) : Json :=
  .object [("textDocument", versioned b), ("contentChanges", .array [.object [("text", .text b.text)]])]

def closing (b : Buffer Reaction Mark) : Json := .object [("textDocument", .object [("uri", .text b.uri)])]

theorem run_adopt (n : Nat) (d : Desk L) :
    (adopt carrier n).run.run d =
      if d.isAttached (d.bufferAt n).uri then (.error (.alreadyAttached (d.bufferAt n).uri), d)
      else match carrier.send "textDocument/didOpen" (opening (d.bufferAt n)) d.link with
        | .ok link => (check carrier n).run.run ({ d with link }.holding n)
        | .error cause => (.error cause, d) := by
  unfold adopt
  simp only [run_bind, run_buffer, run_get]
  by_cases hattached : d.isAttached (d.bufferAt n).uri = true
  · rw [if_pos hattached, if_pos hattached]
    rfl
  · rw [if_neg hattached, if_neg hattached]
    simp only [run_bind, run_send]
    unfold opening
    cases carrier.send "textDocument/didOpen" _ d.link with
    | error cause => rfl
    | ok link =>
      have hout : ¬ isAttached { d with link } (bufferAt { d with link } n).uri = true := hattached
      simp only [run_attach]
      rw [if_neg hout]

theorem run_report (n : Nat) (d : Desk L) : (react carrier n .report).run.run d =
    (send carrier "textDocument/didChange" (changing (d.bufferAt n))).run.run d := rfl

theorem run_release (n : Nat) (d : Desk L) :
    (release carrier n).run.run d =
      match Keyed.get? (d.bufferAt n).uri d.session.attachments with
      | none => (.error (.notAttached (d.bufferAt n).uri), d)
      | some a => (send carrier "textDocument/didClose" (closing (d.bufferAt n))).run.run (d.releasing n a) := by
  unfold release
  simp only [run_bind, run_buffer, run_detach]
  cases Keyed.get? (d.bufferAt n).uri d.session.attachments <;> rfl

/-- The methods that open, change and close a document. -/
def syncMethods : List String := ["textDocument/didOpen", "textDocument/didChange", "textDocument/didClose"]

/-- The message names a buffer with its version, and is none of those that say its text. -/
structure IsAbout (method : String) (params : Json) (b : Buffer Reaction Mark) : Prop where
  document : params.get? "textDocument" = some (versioned b)
  method : method ∉ syncMethods

/-! ## Notes -/

/-- The property is kept by what a session notes: panes, tickets, settings and notices. -/
def Noted (I : Desk L → Prop) : Prop :=
  ∀ (d : Desk L) (s : Session), I d → s.ns = d.session.ns → s.attachments = d.session.attachments →
    s.active = d.session.active → I { d with session := s }

namespace Noted

variable {I : Desk L → Prop} (h : Noted I)
include h

theorem editSession {f : Session → Session} (hns : ∀ s, (f s).ns = s.ns)
    (hattachments : ∀ s, (f s).attachments = s.attachments) (hactive : ∀ s, (f s).active = s.active) :
    Ensures I (Desk.editSession f) fun _ => I :=
  .modify fun _ hd => h _ _ hd (hns _) (hattachments _) (hactive _)

theorem issue (channel : String) : Ensures I (Desk.issue channel) fun _ => I :=
  .step (.get fun _ hd => hd)
    (fun _ => .step (h.editSession (fun _ => rfl) (fun _ => rfl) fun _ => rfl) (fun _ => .pure fun _ hd => hd)
      fun _ _ h => h) fun _ _ h => h

theorem showSearch (ticket : Int) : Ensures I (Desk.showSearch ticket) fun _ => I := by
  refine h.editSession ?_ ?_ ?_
  all_goals
    intro s
    split <;> rfl

theorem begin (n : Nat) (timeout : Json) (request : Request) :
    Ensures I (Desk.begin carrier n timeout request) fun _ => I := by
  cases request with
  | search pattern p =>
    refine .step (h.issue _) (fun _ => .step (looks_wirePlace n p).ensures (fun _ => ?_) fun _ _ h => h) fun _ _ h => h
    exact .step (looks_buffer n).ensures (fun _ => .pure fun _ hd => hd) fun _ _ h => h
  | question kind pattern p =>
    have hask : Ensures I (do
        let ticket ← Desk.issue questionChannel
        let place ← Desk.wirePlace carrier n p
        let params := Json.object [
          ("textDocument", versioned (← Desk.buffer n)), ("position", place), ("pattern", pattern)]
        return ⟨.question ticket, "vscoq/" ++ kind.shown, params, timeout⟩ : Op L Query) fun _ => I := by
      refine .step (h.issue _) (fun _ => .step (looks_wirePlace n p).ensures (fun _ => ?_) fun _ _ h => h)
        fun _ _ h => h
      exact .step (looks_buffer n).ensures (fun _ => .pure fun _ hd => hd) fun _ _ h => h
    exact .ite (fun _ => hask) fun _ => .step (.throw fun _ hd => hd) (fun _ => hask) fun _ _ h => h
  | reset => exact .step (looks_buffer n).ensures (fun _ => .pure fun _ hd => hd) fun _ _ h => h

theorem finish (q : Query) (answer : Except Failure Json) : Ensures I (Desk.finish q answer) fun _ => I := by
  cases answer with
  | ok value =>
    unfold Desk.finish
    simp only
    cases q.aim with
    | search ticket =>
      refine .step (looks_accepts _ _).ensures (fun _ => .ite (fun _ => ?_) fun _ => .pure fun _ hd => hd)
        fun _ _ h => h
      exact .step (h.showSearch _) (fun _ => .pure fun _ hd => hd) fun _ _ h => h
    | question ticket =>
      refine .step (looks_accepts _ _).ensures (fun _ => .ite (fun _ => ?_) fun _ => .pure fun _ hd => hd)
        fun _ _ h => h
      refine .step (.lift fun _ hd => hd) (fun _ => ?_) fun _ _ h => h
      exact .step (h.editSession (fun _ => rfl) (fun _ => rfl) fun _ => rfl) (fun _ => .pure fun _ hd => hd)
        fun _ _ h => h
    | reset => exact .pure fun _ hd => hd
  | error cause =>
    unfold Desk.finish
    simp only
    cases q.notice? cause with
    | none => exact .throw fun _ hd => hd
    | some notice =>
      exact .step (h.editSession (fun _ => rfl) (fun _ => rfl) fun _ => rfl) (fun _ => .pure fun _ hd => hd)
        fun _ _ h => h

theorem hearProofView (params : Json) : Ensures I (Desk.hearProofView params) fun _ => I :=
  .step (.lift fun _ hd => hd) (fun _ => h.editSession (fun _ => rfl) (fun _ => rfl) fun _ => rfl) fun _ _ h => h

theorem hearSearchHit (params : Json) : Ensures I (Desk.hearSearchHit params) fun _ => I := by
  refine .step (.lift fun _ hd => hd) (fun hit => ?_) fun _ _ h => h
  refine .step (looks_accepts _ _).ensures (fun accepted => .ite (fun _ => ?_) fun _ => .pure fun _ hd => hd)
    fun _ _ h => h
  refine .step (h.showSearch _) (fun _ => ?_) fun _ _ h => h
  exact .step (.lift fun _ hd => hd) (fun lines => h.editSession (fun _ => rfl) (fun _ => rfl) fun _ => rfl)
    fun _ _ h => h

end Noted

/-! ## Messages -/

/-- The property is also kept by messages about the settings, and about a version of a buffer that is `here`. -/
structure Speech (carrier : Carrier L) (here : Nat → Prop) (I : Desk L → Prop) : Prop where
  note : Noted I
  settings : ∀ {d settings link}, I d →
    carrier.send "workspace/didChangeConfiguration" (.object [("settings", settings)]) d.link = .ok link →
    I { d with link }
  about : ∀ {d n method params link}, I d → here n → IsAbout method params (d.bufferAt n) →
    carrier.send method params d.link = .ok link → I { d with link }

namespace Speech

variable {here : Nat → Prop} {I : Desk L → Prop} (u : Speech carrier here I) {n : Nat} (hn : here n)
include u hn

theorem interpretTo (p : Place) : Ensures I (Desk.interpretTo carrier n p) fun _ => I := by
  intro d hd
  rw [run_interpretTo]
  split
  · next place _ =>
    rw [run_send]
    split
    · next link hlink => exact u.about hd hn ⟨rfl, by decide⟩ hlink
    · exact hd
  · exact hd

theorem step (direction : Direction) : Ensures I (Desk.step carrier n direction) fun _ => I := by
  intro d hd
  have hrun : (Desk.step carrier n direction).run.run d = (Desk.send carrier direction.method
      (.object [("textDocument", versioned (d.bufferAt n))])).run.run d := rfl
  rw [hrun, run_send]
  split
  · next link hlink => exact u.about hd hn ⟨rfl, by cases direction <;> decide⟩ hlink
  · exact hd

theorem check : Ensures I (Desk.check carrier n) fun _ => I :=
  .step looks_proofMode.ensures
    (fun _ => .ite (fun _ => u.interpretTo hn .cursor) fun _ => .pure fun _ hd => hd) fun _ _ h => h

end Speech

/-! ## Settings and notifications -/

/-- The property is also kept by marks of attached buffers and by moves of the cursor. What is attached is `here`, and
the positions that a server means are `fine`. -/
structure Conduct (carrier : Carrier L) (here : Nat → Prop) (fine : Position → Prop) (I : Desk L → Prop) : Prop
    extends Speech carrier here I where
  held : ∀ {d uri a}, I d → (uri, a) ∈ d.session.attachments → here a.buffer
  met : ∀ {lines place e p}, Position.ofWire lines place e = .ok p → fine p
  mark : ∀ {d uri a marks}, I d → (uri, a) ∈ d.session.attachments →
    I (d.withBuffer a.buffer { d.bufferAt a.buffer with marks })
  moveCursor : ∀ {n p}, here n → fine p → Ensures I (Desk.moveCursor carrier n p) fun _ => I

/-- The buffer that a notification is about is attached. -/
theorem ensures_subject {I : Desk L → Prop} (params : Json) :
    Ensures I (Desk.subject params) fun r d => I d ∧ ∀ n, r = .ok (some n) →
      ∃ uri a, (uri, a) ∈ d.session.attachments ∧ a.buffer = n := by
  intro d hd
  rw [looks_subject params d]
  refine ⟨hd, fun n hn => ?_⟩
  obtain ⟨uri, a, -, held⟩ := run_subject_eq_some hn
  exact ⟨uri, a, held⟩

namespace Conduct

variable {here : Nat → Prop} {fine : Position → Prop} {I : Desk L → Prop} (u : Conduct carrier here fine I)
include u

theorem updateSettings (partialSettings : Json) :
    Ensures I (Desk.updateSettings carrier partialSettings) fun _ => I := by
  refine .step looks_proofMode.ensures (fun previous => ?_) fun _ _ h => h
  refine .step (.get fun _ hd => hd) (fun d => ?_) fun _ _ h => h
  refine .step (.lift fun _ hd => hd) (fun settings => ?_) fun _ _ h => h
  refine .step (u.note.editSession (fun _ => rfl) (fun _ => rfl) fun _ => rfl) (fun _ => ?_) fun _ _ h => h
  have hsettings : Ensures I (Desk.send carrier "workspace/didChangeConfiguration"
      (.object [("settings", settings)])) fun _ => I := by
    intro d hd
    rw [run_send]
    split
    · next link hlink => exact u.settings hd hlink
    · exact hd
  refine .step hsettings (fun _ => ?_) fun _ _ h => h
  refine .ite (fun _ => ?_) fun _ => .pure fun _ hd => hd
  refine .step looks_proofMode.ensures (fun mode => ?_) fun _ _ h => h
  refine .ite (fun _ => ?_) fun _ => .pure fun _ hd => hd
  intro d hd
  simp only [run_bind, run_get]
  cases hactive : d.active? with
  | none => exact hd
  | some n =>
    obtain ⟨uri, a, hmem, rfl⟩ := exists_of_active? hactive
    exact u.interpretTo (u.held hd hmem) .cursor d hd

theorem toggleMode : Ensures I (Desk.toggleMode carrier) fun _ => I :=
  .step looks_proofMode.ensures
    (fun _ => .step (u.updateSettings _) (fun _ => looks_proofMode.ensures) fun _ _ h => h) fun _ _ h => h

theorem hearProgress (params : Json) : Ensures I (Desk.hearProgress carrier params) fun _ => I := by
  refine .bind (ensures_subject params) (fun found => ?_) fun _ _ h => h.1
  cases found with
  | none => exact .pure fun _ hd => hd.1
  | some n =>
    rintro d ⟨hd, hfound⟩
    obtain ⟨uri, a, hmem, rfl⟩ := hfound n rfl
    simp only [run_bind, run_lift]
    cases Progress.ofNotification params with
    | error cause => exact hd
    | ok highlights =>
      simp only [run_encoding, run_get]
      cases happly : Progress.apply (d.bufferAt a.buffer) d.session.ns highlights (carrier.named d.link) with
      | error cause => exact hd
      | ok b =>
        obtain ⟨marks, rfl⟩ := Progress.eq_of_apply happly
        exact u.mark hd hmem

theorem hearCursor (params : Json) : Ensures I (Desk.hearCursor carrier params) fun _ => I := by
  intro d hd
  rw [hearCursor_eq]
  refine (looks_meant params).after hd fun found hfound => ?_
  cases found with
  | none => exact hd
  | some target =>
    obtain ⟨n, p⟩ := target
    have hmeant := meant_of_eq_some hfound
    obtain ⟨uri, a, -, hmem, rfl⟩ := hmeant.attached
    obtain ⟨lines, place, e, hp⟩ := hmeant.position
    exact u.moveCursor (u.held hd hmem) (u.met hp) d hd

theorem hear (params : Json) (signal : Signal) : Ensures I (Desk.hear carrier params signal) fun _ => I := by
  cases signal with
  | progress => exact u.hearProgress params
  | cursor => exact u.hearCursor params
  | proofView => exact u.note.hearProofView params
  | searchHit => exact u.note.hearSearchHit params

end Conduct

/-! ## What is kept by everything -/

/-- What an edit leaves: the cursor stays or comes to a position that is `fine`, as far as the text goes. -/
structure Edited (fine : Position → Prop) (b b' : Buffer Reaction Mark) : Prop where
  uri : b'.uri = b.uri
  subscriptions : b'.subscriptions = b.subscriptions
  rolls : b'.rolls = b.rolls
  cursor : b'.cursor = b.cursor ∨ ∃ p, (p = b.cursor ∨ fine p) ∧ b'.cursor = b'.nearest p

/-- A property that a desk keeps whatever is done to it, apart from holding a buffer. `here` are the buffers that may
be let go, and cursors are moved to positions that are `fine`. -/
structure Upkeep (carrier : Carrier L) (here : Nat → Prop) (fine : Position → Prop) (I : Desk L → Prop) : Prop where
  met : ∀ {lines place e p}, Position.ofWire lines place e = .ok p → fine p
  filed : ∀ {d}, I d → d.Filed
  held : ∀ {d uri a}, I d → (uri, a) ∈ d.session.attachments → here a.buffer
  send : ∀ {d method params link}, I d → carrier.send method params d.link = .ok link → I { d with link }
  note : Noted I
  /-- Unless the buffer is attached, its marks stay. -/
  edit : ∀ {d n} {b : Buffer Reaction Mark}, I d → Edited fine (d.bufferAt n) b →
    (b.marks = (d.bufferAt n).marks ∨ (d.bufferAt n).uri ∈ Keyed.keys d.session.attachments) → I (d.withBuffer n b)
  turn : ∀ {d n k}, I d → here n → (d.bufferAt n).isActive k = true →
    I { d with session := { d.session with active := some (d.bufferAt n).uri } }
  release : ∀ {d n a}, I d → here n → Keyed.get? (d.bufferAt n).uri d.session.attachments = some a →
    I (d.releasing n a)

namespace Upkeep

variable {here : Nat → Prop} {fine : Position → Prop} {I : Desk L → Prop} (u : Upkeep carrier here fine I)
include u

theorem speech (here : Nat → Prop) : Speech carrier here I where
  note := u.note
  settings h hlink := u.send h hlink
  about h _ _ hlink := u.send h hlink

/-- It is also kept how many buffers there are. -/
theorem sized (k : Nat) : Upkeep carrier here fine fun d => I d ∧ d.buffers.length = k where
  met := u.met
  filed h := u.filed h.1
  held h hmem := u.held h.1 hmem
  send h hlink := ⟨u.send h.1 hlink, h.2⟩
  note d s h hns hattachments hactive := ⟨u.note d s h.1 hns hattachments hactive, h.2⟩
  edit h hedited hmarks := ⟨u.edit h.1 hedited hmarks, by simpa [withBuffer] using h.2⟩
  turn h hn hk := ⟨u.turn h.1 hn hk, h.2⟩
  release h hn ha := ⟨u.release h.1 hn ha, by simpa [Desk.releasing, withBuffer] using h.2⟩

theorem sending (method : String) (params : Json) : Ensures I (Desk.send carrier method params) fun _ => I := by
  intro d hd
  rw [run_send]
  split
  · next link hlink => exact u.send hd hlink
  · exact hd

/-! ## Holding a buffer and letting one go -/

section Holding

variable {k n : Nat} (hn : n < k) (hhold : ∀ d, I d → n < d.buffers.length →
  (d.bufferAt n).uri ∉ Keyed.keys d.session.attachments → I (d.holding n))
include hn hhold

theorem attach :
    Ensures (fun d => I d ∧ d.buffers.length = k) (Desk.attach carrier n) fun _ d => I d ∧ d.buffers.length = k := by
  rintro d ⟨hd, hk⟩
  rw [run_attach]
  by_cases hattached : d.isAttached (d.bufferAt n).uri = true
  · rw [if_pos hattached]
    exact ⟨hd, hk⟩
  · rw [if_neg hattached]
    refine ((u.sized k).speech (· < k)).check hn _
      ⟨hhold d hd (hk ▸ hn) ?_, by simpa [Desk.holding, withBuffer] using hk⟩
    rw [← Keyed.has_eq_true]
    exact hattached

theorem adopt :
    Ensures (fun d => I d ∧ d.buffers.length = k) (Desk.adopt carrier n) fun _ d => I d ∧ d.buffers.length = k := by
  refine .step (looks_buffer n).ensures (fun b => ?_) fun _ _ h => h
  refine .step (.get fun _ hd => hd) (fun d => ?_) fun _ _ h => h
  have hrest : Ensures (fun d => I d ∧ d.buffers.length = k)
      (Desk.send carrier "textDocument/didOpen" (.object [("textDocument", .object [
        ("uri", .text b.uri), ("languageId", .text b.languageId), ("version", .int b.version),
        ("text", .text b.text)])]) >>= fun _ => Desk.attach carrier n) fun _ d => I d ∧ d.buffers.length = k :=
    .step ((u.sized k).sending _ _) (fun _ => u.attach hn hhold) fun _ _ h => h
  exact .ite (fun _ => .step (.throw fun _ hd => hd) (fun _ => hrest) fun _ _ h => h) fun _ => hrest

end Holding

theorem detach {n : Nat} (hn : here n) : Ensures I (Desk.detach n) fun _ => I := by
  intro d hd
  rw [run_detach]
  cases ha : Keyed.get? (d.bufferAt n).uri d.session.attachments with
  | none => exact hd
  | some a => exact u.release hd hn ha

theorem releasing {n : Nat} (hn : here n) : Ensures I (Desk.release carrier n) fun _ => I :=
  .step (looks_buffer n).ensures (fun _ => .step (u.detach hn) (fun _ => u.sending _ _) fun _ _ h => h) fun _ _ h => h

theorem shutdown : Ensures I Desk.shutdown fun _ => I := by
  intro d hd
  have hall (held : List Nat) (hheld : ∀ n ∈ held, here n) : Ensures I (held.forM Desk.detach) fun _ => I := by
    induction held with
    | nil => exact .pure fun _ hd => hd
    | cons n held ih =>
      exact .step (u.detach (hheld n List.mem_cons_self)) (fun _ => ih fun m hm => hheld m (List.mem_cons_of_mem _ hm))
        fun _ _ h => h
  have hheld : ∀ n ∈ d.session.attachments.map (fun p => p.2.buffer), here n := by
    intro n hn
    obtain ⟨p, hp, rfl⟩ := List.mem_map.mp hn
    exact u.held hd hp
  unfold Desk.shutdown
  simp only [run_bind, run_get]
  have hdetached := hall _ hheld d hd
  generalize (List.forM _ Desk.detach).run.run d = out at hdetached
  obtain ⟨_ | _, d'⟩ := out
  · exact hdetached
  · exact u.note _ _ hdetached rfl rfl rfl

/-! ## Within an emission -/

theorem react {n : Nat} (hn : here n) (k : Nat) (reaction : Reaction) :
    Ensures (fun d => I d ∧ (d.bufferAt n).isActive k = true) (Desk.react carrier n reaction) fun _ => I := by
  cases reaction with
  | follow =>
    rintro d ⟨hd, hk⟩
    exact (u.speech here).check hn _ (u.turn hd hn hk)
  | report =>
    rintro d ⟨hd, -⟩
    exact Ensures.step (looks_buffer n).ensures (fun _ => u.sending _ _) (fun _ _ h => h) d hd
  | release =>
    rintro d ⟨hd, -⟩
    exact u.releasing hn d hd

omit u in
/-- Whatever the listeners of a buffer do in their turn, the next one is called only if it is active by then. -/
theorem calls {n : Nat} {call : Nat → Op L Unit}
    (hcall : ∀ k, Ensures (fun d => I d ∧ (d.bufferAt n).isActive k = true) (call k) fun _ => I)
    (handles : List Nat) :
    Ensures I (Buffer.emit (fun handle => return (← buffer n).isActive handle) call handles) fun _ => I := by
  induction handles with
  | nil => exact .pure fun _ hd => hd
  | cons k handles ih =>
    intro d hd
    rw [Buffer.emit]
    simp only [run_bind, run_buffer, run_pure, run_ite]
    by_cases hk : (d.bufferAt n).isActive k = true
    · rw [if_pos hk]
      have hkept := hcall k d ⟨hd, hk⟩
      generalize (call k).run.run d = out at hkept
      obtain ⟨_ | _, d'⟩ := out
      · exact hkept
      · exact ih d' hkept
    · rw [if_neg hk]
      exact ih d hd

theorem emit {n : Nat} (hn : here n) (e : BufferEvent) : Ensures I (Desk.emit carrier n e) fun _ => I := by
  refine .step (looks_buffer n).ensures (fun b => calls (fun k => ?_) _) fun _ _ h => h
  rintro d ⟨hd, hk⟩
  simp only [run_bind, run_buffer]
  cases (d.bufferAt n).listener? k with
  | none => exact hd
  | some reaction => exact u.react hn k reaction d ⟨hd, hk⟩

/-! ## Edits -/

theorem moveCursor {n : Nat} (hn : here n) {p : Position} (hp : fine p) :
    Ensures I (Desk.moveCursor carrier n p) fun _ => I := by
  intro d hd
  unfold Desk.moveCursor
  simp only [run_bind, run_buffer, run_lift]
  cases hmove : (d.bufferAt n).moveTo p with
  | error cause => exact hd
  | ok b =>
    obtain rfl := Buffer.eq_of_moveTo hmove
    have hedited : Edited fine (d.bufferAt n) { d.bufferAt n with cursor := (d.bufferAt n).nearest p } :=
      ⟨rfl, rfl, rfl, .inr ⟨p, .inr hp, rfl⟩⟩
    exact u.emit hn .cursorMoved _ (u.edit hd hedited (.inl rfl))

theorem replaceText {n : Nat} (hn : here n) (text : String) :
    Ensures I (Desk.replaceText carrier n text) fun _ => I := by
  intro d hd
  have hedited : Edited fine (d.bufferAt n) ((d.bufferAt n).replaceText text) :=
    ⟨rfl, rfl, rfl, .inr ⟨(d.bufferAt n).cursor, .inl rfl, rfl⟩⟩
  exact u.emit hn .changed _ (u.edit hd hedited (.inl rfl))

theorem closeBuffer {n : Nat} (hn : here n) : Ensures I (Desk.closeBuffer carrier n) fun _ => I := by
  intro d hd
  unfold Desk.closeBuffer
  simp only [run_bind, run_buffer, run_ite]
  by_cases hclosed : (d.bufferAt n).closed = true
  · rw [if_pos hclosed]
    exact hd
  · rw [if_neg hclosed]
    exact u.emit hn .closed _ (u.edit hd ⟨rfl, rfl, rfl, .inl rfl⟩ (.inl rfl))

theorem conduct : Conduct carrier here fine I where
  toSpeech := u.speech here
  held h hmem := u.held h hmem
  met := u.met
  mark h hmem := by
    refine u.edit h ⟨rfl, rfl, rfl, .inl rfl⟩ (.inr ?_)
    rw [uri_of_getElem? ((u.filed h).filed _ _ hmem)]
    exact List.mem_map.mpr ⟨_, hmem, rfl⟩
  moveCursor hn hp := u.moveCursor hn hp

end Upkeep

end Desk
end CoqConsole
