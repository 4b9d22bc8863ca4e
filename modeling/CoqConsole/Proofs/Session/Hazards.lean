import CoqConsole.Proofs.Buffer.Soundness
import CoqConsole.Proofs.Session.Overtaking
import CoqConsole.Proofs.Session.Tuning

/-!
# What can go wrong at a desk

A desk on which all cursors are in whole numbers, and that is counted in an encoding that there is, stays so. There
operations fail for few reasons: the mode of the settings cannot be read, or a message is not taken.

* `Desk.Sound` : such a desk; `Sound.upkeep` keeps it so;
* `Hazard` : these reasons, and those for which whole calls fail;
* `Desk.Shows` : how a desk shows the two that are its own; `Blamed` : an operation fails for some only, which show;
* `blamed_interpretTo`, `blamed_moveCursor`, ..., `blamed_updateSettings` : which ones an operation has;
* `Bound.fails_closeBuffer_iff`, `Bound.fails_replaceText_iff` : when an edit fails.
-/

namespace CoqConsole

/-! ## Whole numbers -/

theorem Buffer.isWhole_nearest (b : Buffer Reaction Mark) {p : Position} (hp : p.IsWhole) : (b.nearest p).IsWhole :=
  ⟨isSome_index?_clampTo hp.row, isSome_index?_clampTo hp.col⟩

/-- What a server means is on a line that there is, so its row is a whole number. -/
theorem Position.isWhole_ofWire {lines : List String} {place e : Json} {p : Position}
    (h : ofWire lines place e = .ok p) : p.IsWhole := by
  unfold ofWire at h
  simp only [bind, Except.bind] at h
  split at h
  · cases h
  · next line _ =>
    split at h
    · cases h
    · next row _ =>
      cases hline : lineAt lines row with
      | error cause =>
        rw [hline] at h
        cases h
      | ok found =>
        rw [hline] at h
        cases found with
        | none =>
          cases h
          exact ⟨rfl, rfl⟩
        | some text =>
          have hrow : row.index?.isSome = true := by
            unfold lineAt at hline
            split at hline
            · split at hline
              · next hindex => rw [hindex]; rfl
              · cases hline
            · cases hline
          simp only at h
          split at h
          · cases h
          · split at h
            · cases h
            · cases h
              exact ⟨hrow, rfl⟩

namespace Place

/-- The place is where the cursor is, or in whole numbers. -/
inductive IsWhole : Place → Prop
  | cursor : IsWhole .cursor
  | ofPosition {p : Position} (hp : p.IsWhole) : IsWhole (ofPosition p)

theorem IsWhole.exists_toWire {p : Place} (hp : p.IsWhole) {lines : List String} {cursor : Position}
    (hcursor : cursor.IsWhole) {encoding : Json} {e : Encoding} (he : Encoding.ofJson encoding = .ok e) :
    ∃ place, p.toWire lines cursor encoding = .ok place := by
  cases hp with
  | cursor => exact exists_toWire_cursor hcursor he
  | ofPosition hp => exact exists_toWire_cursor hp he

end Place

namespace Desk

variable {L : Type} {carrier : Carrier L} {d : Desk L}

/-! ## Sound desks -/

/-- What the session holds is bound to it, cursors are in whole numbers, and the server's encoding is one. -/
structure Sound (carrier : Carrier L) (d : Desk L) : Prop where
  bound : d.Bound
  whole : ∀ b ∈ d.buffers, b.cursor.IsWhole
  counted : ∃ e, Encoding.ofJson (carrier.encoding d.link) = .ok e

def Steady (carrier : Carrier L) : Prop :=
  ∀ method params link link', carrier.send method params link = .ok link' → carrier.encoding link' = carrier.encoding link

namespace Sound

theorem named (h : d.Sound carrier) : ∃ e, Encoding.ofJson (carrier.named d.link) = .ok e := by
  unfold Carrier.named
  split
  · exact h.counted
  · exact ⟨.utf16, rfl⟩

theorem cursor (h : d.Sound carrier) (n : Nat) : (d.bufferAt n).cursor.IsWhole := by
  unfold bufferAt
  cases hb : d.buffers[n]? with
  | none => exact ⟨rfl, rfl⟩
  | some b => exact h.whole b (List.mem_of_getElem? hb)

/-- The server can be told of every place in a buffer. -/
theorem exists_toWire (h : d.Sound carrier) (n : Nat) {p : Place} (hp : p.IsWhole) :
    ∃ place, p.toWire (d.bufferAt n).lines (d.bufferAt n).cursor (carrier.named d.link) = .ok place := by
  obtain ⟨e, he⟩ := h.named
  exact hp.exists_toWire (h.cursor n) he

theorem of_eq {d' : Desk L} (h : d.Sound carrier) (hbuffers : d'.buffers = d.buffers)
    (hattachments : d'.session.attachments = d.session.attachments) (hactive : d'.session.active = d.session.active)
    (hencoding : carrier.encoding d'.link = carrier.encoding d.link) : d'.Sound carrier := by
  refine ⟨h.bound.of_eq hbuffers hattachments hactive, hbuffers ▸ h.whole, ?_⟩
  rw [hencoding]
  exact h.counted

/-- Cursors stay in whole numbers if all else that counts is the same. -/
theorem whole_withBuffer (h : ∀ b ∈ d.buffers, b.cursor.IsWhole) (n : Nat) {b : Buffer Reaction Mark}
    (hb : b.cursor.IsWhole) : ∀ b' ∈ (d.withBuffer n b).buffers, b'.cursor.IsWhole := by
  intro b' hb'
  rcases List.mem_or_eq_of_mem_set hb' with hmem | rfl
  · exact h b' hmem
  · exact hb

theorem holding (h : d.Sound carrier) {n : Nat} (hn : n < d.buffers.length)
    (hout : (d.bufferAt n).uri ∉ Keyed.keys d.session.attachments) : (d.holding n).Sound carrier :=
  ⟨h.bound.holding hn hout, whole_withBuffer h.whole n (h.cursor n), h.counted⟩

theorem releasing (h : d.Sound carrier) {n : Nat} {a : Attachment}
    (ha : Keyed.get? (d.bufferAt n).uri d.session.attachments = some a) : (d.releasing n a).Sound carrier := by
  let d₁ := d.withBuffer n ((d.bufferAt n).clearMarks d.session.ns)
  have h₁ : d₁.Sound carrier := ⟨h.bound.withBuffer rfl rfl rfl, whole_withBuffer h.whole n (h.cursor n), h.counted⟩
  have hcancel (b : Buffer Reaction Mark) (k : Nat) : (b.cancel k).cursor = b.cursor := by
    unfold Buffer.cancel
    split
    · split <;> rfl
    · rfl
  refine ⟨h.bound.releasing ha, whole_withBuffer h₁.whole a.buffer ?_, h.counted⟩
  rw [Buffer.foldl_cancel Buffer.cursor hcancel]
  exact h₁.cursor a.buffer

theorem append (h : d.Sound carrier) (uri text language : String) :
    Sound carrier { d with buffers := d.buffers ++ [.ofText uri text language] } :=
  ⟨h.bound.append (Buffer.silent_ofText _ _ _),
    List.forall_mem_append.mpr ⟨h.whole, List.forall_mem_singleton.mpr ⟨rfl, rfl⟩⟩,
    h.counted⟩

theorem upkeep (steady : Steady carrier) :
    Upkeep carrier (fun _ => True) Position.IsWhole (Sound (L := L) carrier) where
  met h := Position.isWhole_ofWire h
  filed h := h.bound.toFiled
  held _ _ := trivial
  send h hsend := h.of_eq rfl rfl rfl (steady _ _ _ _ hsend)
  note _ _ h _ hattachments hactive := h.of_eq rfl hattachments hactive rfl
  edit {d n b} h hedited _ := by
    refine ⟨h.bound.withBuffer hedited.uri hedited.subscriptions hedited.rolls, whole_withBuffer h.whole n ?_, h.counted⟩
    rcases hedited.cursor with hsame | ⟨p, hp, hmoved⟩
    · rw [hsame]
      exact h.cursor n
    · rw [hmoved]
      refine b.isWhole_nearest (hp.elim (fun hp => ?_) fun hp => hp)
      rw [hp]
      exact h.cursor n
  turn h _ hk := ⟨h.bound.turn (h.bound.holds_of_isActive hk), h.whole, h.counted⟩
  release h _ ha := h.releasing ha

end Sound

end Desk

/-! ## Hazards -/

/-- What can be wrong where something fails. -/
inductive Hazard
  /-- The settings name no mode that can be read. -/
  | mode
  /-- A message is not taken. -/
  | link
  /-- The pipe breaks when a request is flushed. -/
  | pipe
  /-- A request is answered with an error that is no object. -/
  | refusal
  /-- The answer to a question cannot be put into lines. -/
  | display
  /-- The file of a call cannot be read. -/
  | file (file : Json)
  /-- A process may not be killed. -/
  | kill
  deriving Repr

/-- What is kept is kept, and if there was a failure one of the hazards shows. -/
def Blamed {σ α : Type} (I : σ → Prop) (shows : σ → Hazard → Failure → Prop) (hazards : List Hazard)
    (r : Except Failure α) (s : σ) : Prop :=
  I s ∧ ∀ cause, r = .error cause → ∃ h ∈ hazards, shows s h cause

namespace Blamed

variable {σ α β : Type} {I : σ → Prop} {shows : σ → Hazard → Failure → Prop} {hazards more : List Hazard}
  {r : Except Failure α} {s : σ}

theorem ok (h : I s) (a : α) : Blamed I shows hazards (.ok a) s := ⟨h, fun _ he => by cases he⟩

theorem error (h : I s) {hazard : Hazard} (hmem : hazard ∈ hazards) {cause : Failure} (hshows : shows s hazard cause) :
    Blamed I shows hazards (.error cause : Except Failure α) s :=
  ⟨h, fun cause' he => by
    cases he
    exact ⟨hazard, hmem, hshows⟩⟩

theorem mono (h : Blamed I shows hazards r s) (hsub : hazards ⊆ more) : Blamed I shows more r s :=
  ⟨h.1, fun cause he => (h.2 cause he).imp fun _ hf => ⟨hsub hf.1, hf.2⟩⟩

/-- A step is to blame for no more than what follows. -/
theorem bind {op : ExceptT Failure (StateM σ) α} {next : α → ExceptT Failure (StateM σ) β}
    (hop : Ensures I op (Blamed I shows hazards)) (hsub : hazards ⊆ more)
    (hnext : ∀ a, Ensures I (next a) (Blamed I shows more)) : Ensures I (op >>= next) (Blamed I shows more) :=
  hop.bind (fun a => (hnext a).imp (fun _ h => h.1) fun _ _ h => h) fun cause _ h =>
    ⟨h.1, fun cause' he => by
      cases he
      exact (h.2 cause rfl).imp fun _ hf => ⟨hsub hf.1, hf.2⟩⟩

theorem pure (a : α) : Ensures I (Pure.pure a) (Blamed I shows hazards) := .pure fun _ h => .ok h a

theorem get : Ensures I (MonadStateOf.get : ExceptT Failure (StateM σ) σ) (Blamed I shows hazards) :=
  .get fun s h => .ok h s

end Blamed

namespace Desk

variable {L : Type} {carrier : Carrier L} {d : Desk L}

/-- How a desk shows the hazards that are its own. -/
def Shows (carrier : Carrier L) (d : Desk L) : Hazard → Failure → Prop
  | .mode, cause => Settings.proofMode d.session.settings = .error cause
  | .link, cause => ∃ method params, carrier.send method params d.link = .error cause
  | _, _ => False

/-- The desk is sound, and if there was a failure the desk shows one of the hazards. -/
abbrev Blamed (carrier : Carrier L) (hazards : List Hazard) {α : Type} (r : Except Failure α) (d : Desk L) : Prop :=
  CoqConsole.Blamed (Sound carrier) (Shows carrier) hazards r d

/-! ## What operations have to fear -/

section Operations

theorem blamed_proofMode : Ensures (Sound carrier) proofMode (Blamed carrier [.mode]) := by
  intro d h
  rw [run_proofMode]
  cases hmode : Settings.proofMode d.session.settings with
  | ok mode => exact .ok h mode
  | error cause => exact .error h List.mem_cons_self hmode

variable (steady : Steady carrier)
include steady

theorem blamed_send (method : String) (params : Json) :
    Ensures (Sound carrier) (send carrier method params) (Blamed carrier [.link]) := by
  intro d h
  rw [run_send]
  cases hsend : carrier.send method params d.link with
  | ok link =>
    have hsent : Sound carrier { d with link } := h.of_eq rfl rfl rfl (steady _ _ _ _ hsend)
    exact .ok hsent ()
  | error cause => exact .error h List.mem_cons_self ⟨method, params, hsend⟩

theorem blamed_interpretTo (n : Nat) {p : Place} (hp : p.IsWhole) :
    Ensures (Sound carrier) (interpretTo carrier n p) (Blamed carrier [.link]) := by
  intro d h
  obtain ⟨place, hplace⟩ := h.exists_toWire n hp
  rw [run_interpretTo, hplace]
  exact blamed_send steady _ _ d h

theorem blamed_step (n : Nat) (direction : Direction) :
    Ensures (Sound carrier) (step carrier n direction) (Blamed carrier [.link]) :=
  fun d h => blamed_send steady direction.method (.object [("textDocument", versioned (d.bufferAt n))]) d h

theorem blamed_check (n : Nat) :
    Ensures (Sound carrier) (check carrier n) (Blamed carrier [.mode, .link]) := by
  refine CoqConsole.Blamed.bind blamed_proofMode (by simp) fun mode => .ite (fun _ => ?_) fun _ => CoqConsole.Blamed.pure ()
  exact (blamed_interpretTo steady n .cursor).imp (fun _ h => h) fun _ _ h => h.mono (by simp)

theorem blamed_moveCursor (n : Nat) {p : Position} (hp : p.IsWhole) :
    Ensures (Sound carrier) (moveCursor carrier n p) (Blamed carrier [.mode, .link]) := by
  intro d h
  obtain ⟨row, hrow⟩ := Option.isSome_iff_exists.mp ((d.bufferAt n).isWhole_nearest hp).row
  have hmove : (d.bufferAt n).moveTo p = .ok { d.bufferAt n with cursor := (d.bufferAt n).nearest p } :=
    Buffer.moveTo_of_index? hrow
  have hmoved : (d.withBuffer n { d.bufferAt n with cursor := (d.bufferAt n).nearest p }).Sound carrier :=
    ⟨h.bound.withBuffer rfl rfl rfl, Sound.whole_withBuffer h.whole n ((d.bufferAt n).isWhole_nearest hp), h.counted⟩
  rw [h.bound.run_moveCursor, hmove]
  simp only
  split
  · next hheld =>
    exact blamed_check steady n _ ⟨hmoved.bound.turn hheld, hmoved.whole, hmoved.counted⟩
  · exact .ok hmoved ()

theorem blamed_replaceText (n : Nat) (text : String) :
    Ensures (Sound carrier) (replaceText carrier n text) (Blamed carrier [.link]) := by
  intro d h
  have hreplaced : (d.withBuffer n ((d.bufferAt n).replaceText text)).Sound carrier :=
    ⟨h.bound.withBuffer rfl rfl rfl, Sound.whole_withBuffer h.whole n (Buffer.isWhole_nearest _ (h.cursor n)), h.counted⟩
  rw [h.bound.run_replaceText]
  simp only
  split
  · exact blamed_send steady _ _ _ hreplaced
  · exact .ok hreplaced ()

theorem blamed_closeBuffer (n : Nat) :
    Ensures (Sound carrier) (closeBuffer carrier n) (Blamed carrier [.link]) := by
  intro d h
  have hclosed : (d.withBuffer n { d.bufferAt n with closed := true }).Sound carrier :=
    ⟨h.bound.withBuffer rfl rfl rfl, Sound.whole_withBuffer h.whole n (h.cursor n), h.counted⟩
  rw [h.bound.run_closeBuffer]
  simp only
  split
  · exact .ok h ()
  · split
    · next hheld =>
      -- What is held can be let go, so only the message can fail.
      obtain ⟨a, ha⟩ : ∃ a, Keyed.get? _ _ = some a :=
        Option.isSome_iff_exists.mp (Keyed.has_eq_true.mpr (hclosed.bound.mem_keys_of_holds hheld))
      simp only [run_release, ha]
      exact blamed_send steady _ _ _ (hclosed.releasing ha)
    · exact .ok hclosed ()

/-- A buffer is opened and held whose address is not attached yet. -/
theorem blamed_adopt (n : Nat) :
    Ensures (fun d => d.Sound carrier ∧ n < d.buffers.length ∧ d.isAttached (d.bufferAt n).uri = false) (adopt carrier n)
      (Blamed carrier [.link, .mode]) := by
  rintro d ⟨h, hn, hfree⟩
  rw [run_adopt]
  split
  · next hattached => exact absurd hattached (Bool.eq_false_iff.mp hfree)
  · next hout =>
    cases hsend : carrier.send "textDocument/didOpen" (opening (d.bufferAt n)) d.link with
    | error cause =>
      have hfault : d.Shows carrier .link cause := ⟨_, _, hsend⟩
      exact .error h (by simp) hfault
    | ok link =>
      have hsent : Sound carrier { d with link } := h.of_eq rfl rfl rfl (steady _ _ _ _ hsend)
      refine CoqConsole.Blamed.mono (blamed_check steady n _ (hsent.holding hn ?_)) (by simp)
      exact fun hmem => hout (Keyed.has_eq_true.mpr hmem)

/-- Whatever is laid over settings whose mode can be read, only the new mode and the link can fail. -/
theorem blamed_updateSettings (update : List (String × Json)) :
    Ensures (Sound carrier) (updateSettings carrier (.object update)) (Blamed carrier [.mode, .link]) := by
  intro d h
  rw [run_updateSettings]
  cases hmode : Settings.proofMode d.session.settings with
  | error cause => exact .error h List.mem_cons_self hmode
  | ok previous =>
    obtain ⟨members, proof, hsettings, -⟩ := Settings.members_of_proofMode hmode
    rw [hsettings]
    simp only [Json.merge]
    have hpush : Ensures (Sound carrier) (push carrier previous (.object (Json.mergeMembers members update)))
        (Blamed carrier [.mode, .link]) := by
      refine CoqConsole.Blamed.bind (blamed_send steady _ _) (by simp) fun _ => ?_
      refine .ite (fun _ => ?_) fun _ => CoqConsole.Blamed.pure ()
      refine CoqConsole.Blamed.bind blamed_proofMode (by simp) fun mode => ?_
      refine .ite (fun _ => ?_) fun _ => CoqConsole.Blamed.pure ()
      refine CoqConsole.Blamed.bind CoqConsole.Blamed.get (List.nil_subset _) fun d => ?_
      cases d.active? with
      | none => exact CoqConsole.Blamed.pure ()
      | some n => exact (blamed_interpretTo steady n .cursor).imp (fun _ h => h) fun _ _ h => h.mono (by simp)
    exact hpush _ (h.of_eq rfl rfl rfl rfl)

theorem blamed_toggleMode : Ensures (Sound carrier) (toggleMode carrier) (Blamed carrier [.mode, .link]) := by
  refine CoqConsole.Blamed.bind blamed_proofMode (by simp) fun mode => ?_
  refine CoqConsole.Blamed.bind (blamed_updateSettings steady _) (by simp) fun _ => ?_
  exact blamed_proofMode.imp (fun _ h => h) fun _ _ h => h.mono (by simp)

end Operations

/-! ## When an edit fails -/

section Edits

variable {dead : L → Prop}
  (hdead : ∀ method params link, (∃ cause, carrier.send method params link = .error cause) ↔ dead link)
include hdead

theorem fails_send_iff (method : String) (params : Json) (d : Desk L) :
    (∃ cause, ((send carrier method params).run.run d).1 = .error cause) ↔ dead d.link := by
  rw [run_send, ← hdead method params]
  cases carrier.send method params d.link with
  | ok link => exact ⟨fun ⟨_, he⟩ => (by cases he), fun ⟨_, he⟩ => (by cases he)⟩
  | error cause => exact ⟨fun _ => ⟨cause, rfl⟩, fun _ => ⟨cause, rfl⟩⟩

/-- A buffer cannot be closed that is held, and whose server cannot be told. -/
theorem Bound.fails_closeBuffer_iff (h : d.Bound) (n : Nat) :
    (∃ cause, ((closeBuffer carrier n).run.run d).1 = .error cause) ↔
      (d.bufferAt n).closed = false ∧ d.Holds n ∧ dead d.link := by
  rw [h.run_closeBuffer]
  simp only
  split
  · next hclosed =>
    refine ⟨?_, fun hfails => absurd hclosed (Bool.eq_false_iff.mp hfails.1)⟩
    rintro ⟨_, he⟩
    cases he
  · next hclosed =>
    rw [and_iff_right (Bool.not_eq_true _ |>.mp hclosed)]
    split
    · next hheld =>
      have hb : (d.withBuffer n { d.bufferAt n with closed := true }).Bound := h.withBuffer rfl rfl rfl
      obtain ⟨a, ha⟩ : ∃ a, Keyed.get? _ _ = some a :=
        Option.isSome_iff_exists.mp (Keyed.has_eq_true.mpr (hb.mem_keys_of_holds hheld))
      simp only [run_release, ha]
      rw [fails_send_iff hdead, and_iff_right hheld]
      exact .rfl
    · next hheld =>
      refine ⟨?_, fun hfails => absurd hfails.1 hheld⟩
      rintro ⟨_, he⟩
      cases he

/-- The text of a buffer cannot be changed that is held, and whose server cannot be told. -/
theorem Bound.fails_replaceText_iff (h : d.Bound) (n : Nat) (text : String) :
    (∃ cause, ((replaceText carrier n text).run.run d).1 = .error cause) ↔ d.Holds n ∧ dead d.link := by
  rw [h.run_replaceText]
  simp only
  split
  · next hheld =>
    rw [and_iff_right hheld]
    exact fails_send_iff hdead _ _ _
  · next hheld =>
    refine ⟨?_, fun hfails => absurd hfails.1 hheld⟩
    rintro ⟨_, he⟩
    cases he

end Edits

end Desk

/-! ## Requests -/

/-- A request that can be begun: its place is whole, and its kind is known. -/
inductive Request.IsPlaced : Request → Prop
  | search {pattern : Json} {p : Place} (hp : p.IsWhole) : IsPlaced (.search pattern p)
  | question {kind pattern : Json} {p : Place} (hkind : isQuestion kind = true) (hp : p.IsWhole) :
    IsPlaced (.question kind pattern p)
  | reset : IsPlaced .reset

namespace Desk

theorem blamed_wirePlace (n : Nat) {p : Place} (hp : p.IsWhole) :
    Ensures (Sound carrier) (wirePlace carrier n p) (Blamed carrier []) := by
  intro d h
  obtain ⟨place, hplace⟩ := h.exists_toWire n hp
  simp only [wirePlace, run_bind, run_buffer, run_encoding, run_lift, hplace]
  exact .ok h place

theorem blamed_issue (channel : String) : Ensures (Sound carrier) (issue channel) (Blamed carrier []) :=
  fun d h =>
    have hissued : Sound carrier { d with session := { d.session with tickets := (d.session.tickets.issue channel).2 } } :=
      h.of_eq rfl rfl rfl rfl
    .ok hissued (d.session.tickets.issue channel).1

theorem blamed_begin (n : Nat) (timeout : Json) {request : Request} (h : request.IsPlaced) :
    Ensures (Sound carrier) (begin carrier n timeout request) (Blamed carrier []) := by
  have hbuffer : Ensures (Sound carrier) (buffer n) (Blamed carrier []) := fun d h => .ok h (d.bufferAt n)
  cases h with
  | search hp =>
    refine CoqConsole.Blamed.bind (blamed_issue _) (by simp) fun _ => ?_
    refine CoqConsole.Blamed.bind (blamed_wirePlace n hp) (by simp) fun _ => ?_
    exact CoqConsole.Blamed.bind hbuffer (by simp) fun _ => CoqConsole.Blamed.pure _
  | question hkind hp =>
    refine .ite (fun _ => ?_) fun hunknown => absurd hkind hunknown
    refine CoqConsole.Blamed.bind (blamed_issue _) (by simp) fun _ => ?_
    refine CoqConsole.Blamed.bind (blamed_wirePlace n hp) (by simp) fun _ => ?_
    exact CoqConsole.Blamed.bind hbuffer (by simp) fun _ => CoqConsole.Blamed.pure _
  | reset => exact CoqConsole.Blamed.bind hbuffer (by simp) fun _ => CoqConsole.Blamed.pure _

/-- A request fails as its failure is no matter of the request, or as the answer to a question cannot be shown; then all
stays as it is. -/
theorem finish_fails {q : Query} {answer : Except Failure Json} {cause : Failure}
    (h : ((finish q answer).run.run d).1 = .error cause) :
    ((finish q answer).run.run d).2 = d ∧
      (answer = .error cause ∧ cause.isNoted = false ∨
        ∃ ticket value, q.aim = .question ticket ∧ answer = .ok value ∧ renderAnswer value = .error cause) := by
  cases answer with
  | error cause' =>
    have hnoted := isSome_notice? q cause'
    rw [run_finish_error] at h ⊢
    cases hnotice : q.notice? cause' with
    | some notice =>
      rw [hnotice] at h
      cases h
    | none =>
      rw [hnotice] at h hnoted
      cases h
      exact ⟨rfl, .inl ⟨rfl, hnoted.symm⟩⟩
  | ok value =>
    cases haim : q.aim with
    | search ticket =>
      rw [run_finish_search d q haim] at h
      cases h
    | reset =>
      rw [run_finish_reset d q haim] at h
      cases h
    | question ticket =>
      rw [run_finish_question d q haim] at h ⊢
      split at h
      · next haccepted =>
        cases hrender : renderAnswer value with
        | ok lines =>
          rw [hrender] at h
          cases h
        | error cause' =>
          rw [hrender] at h
          cases h
          rw [if_pos haccepted]
          exact ⟨rfl, .inr ⟨ticket, value, rfl, rfl, hrender⟩⟩
      · cases h

end Desk
end CoqConsole
