import CoqConsole.Proofs.Session.Affairs
import CoqConsole.Proofs.Session.Board
import CoqConsole.Proofs.Session.Words

/-!
# The server's copies of the documents

A server that lives hears of every text of an attached document, in order, and of no other. So a copy that is built
from the messages alone is the document.

* `Carrier.recorded` : a link that keeps what it takes; `Carrier.Takes` : links that take everything;
* `Desk.copy?` : what the server has to know of an address: version and text while it is attached, else nothing;
* `Desk.Told` : the words on each address are in order, and leave that copy;
* `Told.say`, `Told.quiet` : how it is kept, by a message and by what sends none;
* `Told.undergo`, `told_live` : every operation keeps it, and every run;
* `copies_kept` : what this says of the messages.
-/

namespace CoqConsole

/-- A link with all messages that it took. -/
structure Recorded (L : Type) where
  link : L
  sent : List (String × Json)

namespace Carrier

variable {L : Type}

def recorded (carrier : Carrier L) : Carrier (Recorded L) where
  send method params r := do
    let link ← carrier.send method params r.link
    return ⟨link, r.sent ++ [(method, params)]⟩
  encoding r := carrier.encoding r.link

/-- Links with the property take every message, and go on having it. -/
def Takes (carrier : Carrier L) (P : L → Prop) : Prop :=
  ∀ method params link, P link → ∃ link', carrier.send method params link = .ok link' ∧ P link'

theorem Takes.recorded {carrier : Carrier L} {P : L → Prop} (takes : carrier.Takes P) (method : String) (params : Json)
    {r : Recorded L} (hr : P r.link) :
    ∃ link, P link ∧ carrier.recorded.send method params r = .ok ⟨link, r.sent ++ [(method, params)]⟩ := by
  obtain ⟨link, hlink, hp⟩ := takes method params r.link hr
  exact ⟨link, hp, by simp only [Carrier.recorded, hlink]; rfl⟩

end Carrier

def Recorded.words {L : Type} (r : Recorded L) (uri : String) : List Word := r.sent.filterMap (Word.of? uri)

/-! ## The messages of a session -/

namespace Word

theorem of?_named {method : String} {params : Json} {b : Buffer Reaction Mark} (h : Desk.IsAbout method params b)
    (uri : String) : of? uri (method, params) = if b.uri = uri then some (.named (.int b.version)) else none := by
  have hmethod := h.method
  simp only [Desk.syncMethods, List.mem_cons, List.not_mem_nil, or_false, not_or] at hmethod
  have hword : ofMethod method params (Desk.versioned b) = .named (.int b.version) := by
    simp only [ofMethod, if_neg hmethod.1, if_neg hmethod.2.1, if_neg hmethod.2.2]
    rfl
  simp only [of?, h.document]
  show (if b.uri = uri then some (ofMethod method params (Desk.versioned b)) else none) = _
  rw [hword]

end Word

theorem exists_of_isQuestion {kind : Json} (h : isQuestion kind = true) : ∃ k ∈ questionKinds, kind = .text k := by
  obtain ⟨k, hmem, hsame⟩ := List.any_eq_true.mp h
  cases kind with
  | text s =>
    have hs : (k == s) = true := hsame
    exact ⟨k, hmem, congrArg Json.text (beq_iff_eq.mp hs).symm⟩
  | _ => cases hsame

namespace Desk

/-- A request is about its buffer, and has its limit. -/
theorem query_begin {L : Type} {carrier : Carrier L} {n : Nat} {timeout : Json} {r : Request} {d : Desk L} {q : Query}
    (h : ((begin carrier n timeout r).run.run d).1 = .ok q) :
    IsAbout q.method q.params (d.bufferAt n) ∧ q.timeout = timeout := by
  cases r with
  | search pattern p =>
    simp only [begin, beginSearch, run_bind] at h
    have hissue : (issue searchChannel).run.run d =
      (.ok (d.session.tickets.issued + 1), d.served (d.session.tickets.aim? (.search pattern p))) := rfl
    obtain ⟨place, hplace⟩ := run_wirePlace carrier (d.served (d.session.tickets.aim? (.search pattern p))) n p
    simp only [hissue, hplace] at h
    cases place with
    | error cause => cases h
    | ok place =>
      cases h
      exact ⟨⟨rfl, by simp [syncMethods]⟩, rfl⟩
  | question kind pattern p =>
    simp only [begin, beginQuestion, run_bind, run_ite, run_throw, run_pure] at h
    by_cases hk : isQuestion kind = true
    · have hissue : (issue questionChannel).run.run d =
        (.ok (d.session.tickets.issued + 1), d.served (some (.question (d.session.tickets.issued + 1)))) := rfl
      obtain ⟨place, hplace⟩ := run_wirePlace carrier (d.served (some (.question (d.session.tickets.issued + 1)))) n p
      simp only [if_pos hk, hissue, hplace] at h
      cases place with
      | error cause => cases h
      | ok place =>
        cases h
        obtain ⟨k, hmem, rfl⟩ := exists_of_isQuestion hk
        have hmethods : ∀ k ∈ questionKinds, "vscoq/" ++ (Json.text k).shown ∉ syncMethods := by decide
        exact ⟨⟨rfl, hmethods k hmem⟩, rfl⟩
    · simp only [if_neg hk] at h
      cases h
  | reset =>
    cases h
    exact ⟨⟨rfl, by simp [syncMethods]⟩, rfl⟩

theorem of?_opening (b : Buffer Reaction Mark) (uri : String) : Word.of? uri ("textDocument/didOpen", opening b) =
    if b.uri = uri then some (.opened (.int b.version) (.text b.text)) else none := rfl

theorem of?_changing (b : Buffer Reaction Mark) (uri : String) : Word.of? uri ("textDocument/didChange", changing b) =
    if b.uri = uri then some (.changed (.int b.version) (.text b.text)) else none := rfl

theorem of?_closing (b : Buffer Reaction Mark) (uri : String) : Word.of? uri ("textDocument/didClose", closing b) =
    if b.uri = uri then some .closed else none := rfl

/-! ## Copies -/

def content (b : Buffer Reaction Mark) : Int × String := (b.version, b.text)

variable {L : Type}

/-- What the server has to know of an address: the version and the text of what is attached there. -/
def copy? (d : Desk L) (uri : String) : Option (Int × String) :=
  (Keyed.get? uri d.session.attachments).map fun a => content (d.bufferAt a.buffer)

theorem content_withBuffer {d : Desk L} {n : Nat} {b : Buffer Reaction Mark} (h : content b = content (d.bufferAt n))
    (m : Nat) : content ((d.withBuffer n b).bufferAt m) = content (d.bufferAt m) := by
  rw [bufferAt_withBuffer]
  split
  · next heq => rw [h, heq.1]
  · rfl

theorem content_holding (d : Desk L) (n m : Nat) : content ((d.holding n).bufferAt m) = content (d.bufferAt m) :=
  content_withBuffer (b := (subscribeAll (d.bufferAt n)).2) rfl m

theorem content_releasing (d : Desk L) (n m : Nat) (a : Attachment) :
    content ((d.releasing n a).bufferAt m) = content (d.bufferAt m) := by
  let d₁ := d.withBuffer n ((d.bufferAt n).clearMarks d.session.ns)
  have hcancel (b : Buffer Reaction Mark) (k : Nat) : content (b.cancel k) = content b := by
    unfold Buffer.cancel
    split
    · split <;> rfl
    · rfl
  have hcanceled := Buffer.foldl_cancel content hcancel (d₁.bufferAt a.buffer) a.handles
  exact (content_withBuffer hcanceled m).trans
    (content_withBuffer (b := (d.bufferAt n).clearMarks d.session.ns) rfl m)

/-- A copy is one of a buffer that is held. -/
theorem copy?_congr {d d' : Desk L} {uri : String} (hattachments : d'.session.attachments = d.session.attachments)
    (hsame : ∀ n, d.Holds n → content (d'.bufferAt n) = content (d.bufferAt n)) : d'.copy? uri = d.copy? uri := by
  unfold copy?
  rw [hattachments]
  cases ha : Keyed.get? uri d.session.attachments with
  | none => rfl
  | some a => rw [Option.map_some, Option.map_some, hsame a.buffer ⟨_, Keyed.mem_of_get? ha, rfl⟩]

theorem copy?_holding (d : Desk L) (n : Nat) (uri : String) : (d.holding n).copy? uri =
    if (d.bufferAt n).uri = uri then some (content (d.bufferAt n)) else d.copy? uri := by
  have hget : Keyed.get? uri (d.holding n).session.attachments = _ := Keyed.get?_put _ uri _ _
  unfold copy?
  simp only [hget, content_holding]
  split <;> rfl

theorem copy?_releasing (d : Desk L) (n : Nat) (a : Attachment) (uri : String) : (d.releasing n a).copy? uri =
    if uri = (d.bufferAt n).uri then none else d.copy? uri := by
  have hget : Keyed.get? uri (d.releasing n a).session.attachments = _ := Keyed.get?_erase _ uri _
  unfold copy?
  simp only [hget, content_releasing]
  split <;> rfl

section Bound

variable {d : Desk L} (h : d.Bound)
include h

/-- The copy of another buffer stays. -/
theorem Bound.copy?_withBuffer {n : Nat} {b : Buffer Reaction Mark} {uri : String} (hne : (d.bufferAt n).uri ≠ uri) :
    (d.withBuffer n b).copy? uri = d.copy? uri := by
  unfold copy?
  show (Keyed.get? uri d.session.attachments).map _ = _
  cases ha : Keyed.get? uri d.session.attachments with
  | none => rfl
  | some a =>
    have huri := h.uri_eq (Keyed.mem_of_get? ha)
    rw [Option.map_some, Option.map_some, bufferAt_withBuffer, if_neg]
    rintro ⟨rfl, -⟩
    exact hne huri

/-- Addresses are distinct, so what is held under the address of a buffer is that buffer. -/
theorem Bound.copy?_uri (distinct : (d.buffers.map Buffer.uri).Nodup) {n : Nat} (hn : n < d.buffers.length) :
    d.copy? (d.bufferAt n).uri = if d.Holds n then some (content (d.bufferAt n)) else none := by
  unfold copy?
  cases ha : Keyed.get? (d.bufferAt n).uri d.session.attachments with
  | none =>
    rw [if_neg, Option.map_none]
    rintro ⟨⟨uri, a⟩, hmem, rfl⟩
    rw [h.uri_eq hmem, h.get?_of_mem hmem] at ha
    cases ha
  | some a =>
    have hfiled := h.filed _ a (Keyed.mem_of_get? ha)
    have huri : (d.buffers.map Buffer.uri)[n]? = some (d.bufferAt n).uri := by
      rw [List.getElem?_map, List.getElem?_eq_getElem hn, Option.map_some, bufferAt, List.getElem?_eq_getElem hn,
        Option.getD_some]
    have hsame : a.buffer = n :=
      (List.getElem?_inj (List.getElem?_eq_some_iff.mp hfiled).1 distinct).mp (hfiled.trans huri.symm)
    rw [if_pos ⟨_, Keyed.mem_of_get? ha, hsame⟩, Option.map_some, hsame]

end Bound

/-! ## Messages that are taken -/

/-- The server is told what it does to attached documents, by the link that there is. -/
def Affair.Tells : Affair L → Prop
  | befall (.attach _) | befall (.detach _) | befall .shutdown | befall (.relink _) => False
  | _ => True

def say (d : Desk (Recorded L)) (link : L) (message : String × Json) : Desk (Recorded L) :=
  { d with link := ⟨link, d.link.sent ++ [message]⟩ }

theorem words_say (d : Desk (Recorded L)) (link : L) (message : String × Json) (uri : String) :
    (d.say link message).link.words uri = d.link.words uri ++ (Word.of? uri message).toList := by
  show (d.link.sent ++ [message]).filterMap (Word.of? uri) = _
  rw [List.filterMap_append]
  cases h : Word.of? uri message <;> simp [Recorded.words, h]

section Copies

variable {carrier : Carrier L} {P : L → Prop} {uris : List String} {d d' : Desk (Recorded L)}

theorem run_send_recorded (takes : carrier.Takes P) (hd : P d.link.link) (method : String) (params : Json) :
    ∃ link, P link ∧ (send carrier.recorded method params).run.run d = (.ok (), d.say link (method, params)) := by
  obtain ⟨link, hlink, hsend⟩ := takes.recorded method params hd
  refine ⟨link, hlink, ?_⟩
  rw [run_send, hsend]
  rfl

/-- What was said of each address is in order, and leaves the copy that the server has to have. -/
structure Told (P : L → Prop) (uris : List String) (d : Desk (Recorded L)) : Prop where
  bound : d.Bound
  named : d.buffers.map Buffer.uri = uris
  alive : P d.link.link
  spoken : ∀ uri, Word.Spoken none (d.link.words uri) (d.copy? uri)

namespace Told

section Keeping

variable (h : Told P uris d)
include h

/-- A message is sent, and the copies change by what it says. -/
theorem say {link : L} {message : String × Json} (hlink : d'.link = (d.say link message).link) (alive : P link)
    (hbound : d'.Bound) (hnamed : d'.buffers.map Buffer.uri = uris)
    (hword : ∀ uri, match Word.of? uri message with
      | none => d'.copy? uri = d.copy? uri
      | some w => Word.Hears (d.copy? uri) w (d'.copy? uri)) : Told P uris d' := by
  refine ⟨hbound, hnamed, hlink ▸ alive, fun uri => ?_⟩
  have hword := hword uri
  rw [hlink, words_say]
  cases hw : Word.of? uri message with
  | none =>
    rw [hw] at hword
    rw [hword, Option.toList_none, List.append_nil]
    exact h.spoken uri
  | some w =>
    rw [hw] at hword
    exact Word.spoken_snoc.mpr ⟨_, h.spoken uri, hword⟩

/-- Nothing is sent, and no copy changes. -/
theorem quiet (hlink : d'.link = d.link) (hbound : d'.Bound) (hnamed : d'.buffers.map Buffer.uri = uris)
    (hcopy : ∀ uri, d'.copy? uri = d.copy? uri) : Told P uris d' := by
  refine ⟨hbound, hnamed, hlink ▸ h.alive, fun uri => ?_⟩
  rw [hlink, hcopy]
  exact h.spoken uri

/-- The session's panes, tickets, settings, notices and active buffer do not matter. -/
theorem note {s : Session} (hbound : ({ d with session := s } : Desk (Recorded L)).Bound)
    (hattachments : s.attachments = d.session.attachments) : Told P uris { d with session := s } :=
  h.quiet rfl hbound h.named fun _ => copy?_congr hattachments fun _ _ => rfl

/-- A buffer may change in all but its address and, if it is held, its version and text. -/
theorem edit {n : Nat} {b : Buffer Reaction Mark} (huri : b.uri = (d.bufferAt n).uri)
    (hsub : b.subscriptions = (d.bufferAt n).subscriptions) (hrolls : b.rolls = (d.bufferAt n).rolls)
    (hsame : d.Holds n → content b = content (d.bufferAt n)) : Told P uris (d.withBuffer n b) := by
  refine h.quiet rfl (h.bound.withBuffer huri hsub hrolls) ((map_uri_withBuffer huri).trans h.named) fun uri => ?_
  refine copy?_congr rfl fun m hm => ?_
  rw [bufferAt_withBuffer]
  split
  · next heq =>
    obtain ⟨rfl, -⟩ := heq
    exact hsame hm
  · rfl

theorem length : d.buffers.length = uris.length := by
  rw [← h.named, List.length_map]

/-- A message is about a buffer and its version. -/
theorem say_about (distinct : uris.Nodup) {n : Nat} (hn : n < uris.length) {link : L} (alive : P link) {method : String}
    {params : Json} (habout : IsAbout method params (d.bufferAt n)) : Told P uris (d.say link (method, params)) := by
  refine h.say rfl alive (h.bound.of_eq rfl rfl rfl) h.named fun uri => ?_
  have hcopy : (d.say link (method, params)).copy? uri = d.copy? uri := rfl
  rw [Word.of?_named habout, hcopy]
  by_cases huri : (d.bufferAt n).uri = uri
  · rw [if_pos huri, ← huri]
    show Word.Hears _ _ _
    rw [h.bound.copy?_uri (h.named ▸ distinct) (h.length ▸ hn)]
    split
    · exact .named _ _
    · exact .stray _
  · rw [if_neg huri]

end Keeping

/-! ## What keeps it -/

section Operations

variable (takes : carrier.Takes P)
include takes

/-- The buffer is let go and its document closed. -/
theorem release (n : Nat) : Ensures (Told P uris) (Desk.release carrier.recorded n) fun _ => Told P uris := by
  intro d h
  rw [run_release]
  cases ha : Keyed.get? (d.bufferAt n).uri d.session.attachments with
  | none => exact h
  | some a =>
    obtain ⟨link, hp, hsend⟩ := run_send_recorded (d := d.releasing n a) takes h.alive "textDocument/didClose"
      (closing (d.bufferAt n))
    have hrelease := h.bound.releasing ha
    simp only
    rw [hsend]
    refine h.say rfl hp (hrelease.of_eq rfl rfl rfl) ((map_uri_releasing d n a).trans h.named) fun uri => ?_
    have hcopy : ((d.releasing n a).say link ("textDocument/didClose", closing (d.bufferAt n))).copy? uri = _ :=
      copy?_releasing d n a uri
    rw [of?_closing, hcopy]
    by_cases huri : (d.bufferAt n).uri = uri
    · rw [if_pos huri]
      show Word.Hears _ _ _
      rw [if_pos huri.symm, copy?, ← huri, ha]
      exact .closed _
    · rw [if_neg huri, if_neg (Ne.symm huri)]

theorem closeBuffer (n : Nat) :
    Ensures (Told P uris) (Desk.closeBuffer carrier.recorded n) fun _ => Told P uris := by
  intro d h
  have hclosed : Told P uris (d.withBuffer n { d.bufferAt n with closed := true }) := h.edit rfl rfl rfl fun _ => rfl
  rw [h.bound.run_closeBuffer]
  simp only
  split
  · exact h
  · split
    · exact release takes n _ hclosed
    · exact hclosed

variable (distinct : uris.Nodup)
include distinct

theorem speech : Speech carrier.recorded (· < uris.length) (Told P uris) where
  note _ _ h _ hattachments hactive := h.note (h.bound.of_eq rfl hattachments hactive) hattachments
  settings h hsend := by
    obtain ⟨link, hp, hsent⟩ := takes.recorded _ _ h.alive
    cases hsent.symm.trans hsend
    exact h.say rfl hp (h.bound.of_eq rfl rfl rfl) h.named fun uri => rfl
  about h hn habout hsend := by
    obtain ⟨link, hp, hsent⟩ := takes.recorded _ _ h.alive
    cases hsent.symm.trans hsend
    exact h.say_about distinct hn hp habout

theorem conduct : Conduct carrier.recorded (· < uris.length) (fun _ => True) (Told P uris) where
  toSpeech := speech takes distinct
  held h hmem := by
    have hlt := (List.getElem?_eq_some_iff.mp (h.bound.filed _ _ hmem)).1
    rwa [h.named] at hlt
  met _ := trivial
  mark h _ := h.edit rfl rfl rfl fun _ => rfl
  moveCursor {n p} hn _ := by
    intro d h
    rw [h.bound.run_moveCursor]
    cases hmove : (d.bufferAt n).moveTo p with
    | error cause => exact h
    | ok b =>
      obtain rfl := Buffer.eq_of_moveTo hmove
      have hedit : Told P uris (d.withBuffer n { d.bufferAt n with cursor := (d.bufferAt n).nearest p }) :=
        h.edit rfl rfl rfl fun _ => rfl
      simp only
      split
      · next hheld =>
        -- The buffer becomes the active one and is checked up to its cursor.
        exact (speech takes distinct).check hn _ (hedit.note (hedit.bound.turn hheld) rfl)
      · exact hedit

/-- A new text is sent if the buffer is held. -/
theorem replaceText {n : Nat} (hn : n < uris.length) (text : String) :
    Ensures (Told P uris) (Desk.replaceText carrier.recorded n text) fun _ => Told P uris := by
  intro d h
  let b := (d.bufferAt n).replaceText text
  let d' := d.withBuffer n b
  have hlt : n < d.buffers.length := h.length ▸ hn
  have hb : d'.bufferAt n = b := by rw [bufferAt_withBuffer, if_pos ⟨rfl, hlt⟩]
  have hbound : d'.Bound := h.bound.withBuffer rfl rfl rfl
  have hnamed : d'.buffers.map Buffer.uri = uris := (map_uri_withBuffer (b := b) rfl).trans h.named
  rw [h.bound.run_replaceText]
  simp only
  split
  · next hheld =>
    obtain ⟨link, hp, hsend⟩ := run_send_recorded (d := d') takes h.alive "textDocument/didChange" (changing b)
    rw [run_report, hb, hsend]
    refine h.say rfl hp (hbound.of_eq rfl rfl rfl) hnamed fun uri => ?_
    rw [of?_changing]
    by_cases huri : b.uri = uri
    · have hold := h.bound.copy?_uri (h.named ▸ distinct) hlt
      have hnew := hbound.copy?_uri (hnamed ▸ distinct) (n := n) (by simpa [d', withBuffer] using hlt)
      rw [if_pos hheld] at hold
      rw [if_pos (show d'.Holds n from hheld), hb] at hnew
      rw [if_pos huri, ← huri]
      show Word.Hears (d.copy? (d.bufferAt n).uri) _ (d'.copy? b.uri)
      rw [hold, hnew]
      have hlater : ((d.bufferAt n).version : Int) < b.version := Int.ofNat_lt.mpr (Nat.lt_succ_self _)
      exact .changed _ hlater
    · rw [if_neg huri]
      exact h.bound.copy?_withBuffer huri
  · next hheld => exact h.edit rfl rfl rfl fun hheld' => absurd hheld' hheld

/-- The document is opened, and its buffer held. -/
theorem adopt {n : Nat} (hn : n < uris.length) :
    Ensures (Told P uris) (Desk.adopt carrier.recorded n) fun _ => Told P uris := by
  intro d h
  rw [run_adopt]
  split
  · exact h
  · next hout =>
    have hnone : (d.bufferAt n).uri ∉ Keyed.keys d.session.attachments := fun hmem =>
      hout (Keyed.has_eq_true.mpr hmem)
    obtain ⟨link, hp, hsend⟩ := takes.recorded "textDocument/didOpen" (opening (d.bufferAt n)) h.alive
    simp only [hsend]
    refine (speech takes distinct).check hn ((d.say link ("textDocument/didOpen", opening (d.bufferAt n))).holding n) ?_
    have hhold := h.bound.holding (h.length ▸ hn) hnone
    refine h.say rfl hp (hhold.of_eq rfl rfl rfl) ((map_uri_holding d n).trans h.named) fun uri => ?_
    have hcopy : ((d.say link ("textDocument/didOpen", opening (d.bufferAt n))).holding n).copy? uri = _ :=
      copy?_holding d n uri
    rw [of?_opening, hcopy]
    by_cases huri : (d.bufferAt n).uri = uri
    · rw [if_pos huri]
      show Word.Hears _ _ _
      rw [if_pos huri, copy?, ← huri, Keyed.get?_eq_none.mpr hnone]
      exact .opened _ _
    · rw [if_neg huri, if_neg huri]

/-- A request is about a buffer and its version. -/
theorem asking {n : Nat} (hn : n < uris.length) (timeout : Json) (request : Request) :
    Ensures (Told P uris) (ask carrier.recorded n timeout request) fun _ => Told P uris := by
  intro d h
  -- What is begun is noted, and changes no buffer.
  have hnoted : Noted fun d' : Desk (Recorded L) => Told P uris d' ∧ d'.buffers = d.buffers :=
    fun d' s h' hns hattachments hactive =>
      ⟨(speech takes distinct).note d' s h'.1 hns hattachments hactive, h'.2⟩
  have hbegun : Ensures _ (begin carrier.recorded n timeout request) _ := hnoted.begin n timeout request
  have hbegun := hbegun d ⟨h, rfl⟩
  have habout : ∀ q, ((begin carrier.recorded n timeout request).run.run d).1 = .ok q →
      IsAbout q.method q.params (d.bufferAt n) := fun q hq => (query_begin hq).1
  unfold ask
  simp only [run_bind]
  generalize (begin carrier.recorded n timeout request).run.run d = out at hbegun habout
  obtain ⟨r, d'⟩ := out
  cases r with
  | error cause => exact hbegun.1
  | ok q =>
    obtain ⟨htold, hbuffers⟩ := hbegun
    obtain ⟨link, hp, hsend⟩ := takes.recorded q.method q.params htold.alive
    simp only [run_get, hsend]
    refine htold.say_about distinct hn hp ?_
    rw [bufferAt, hbuffers]
    exact habout q rfl

theorem undergo (h : Told P uris d) {a : Affair (Recorded L)} (htells : a.Tells)
    (ha : ∀ n, a.buffer? = some n → n < uris.length) : Told P uris (d.undergo carrier.recorded a) := by
  have v := conduct takes distinct
  cases a with
  | befall e =>
    cases e with
    | attach n => exact htells.elim
    | detach n => exact htells.elim
    | shutdown => exact htells.elim
    | relink link => exact htells.elim
    | adopt n => exact adopt takes distinct (ha n rfl) d h
    | release n => exact release takes n d h
    | closeBuffer n => exact closeBuffer takes n d h
    | moveCursor n p => exact v.moveCursor (ha n rfl) trivial d h
    | replaceText n text => exact replaceText takes distinct (ha n rfl) text d h
    | updateSettings partialSettings => exact v.updateSettings partialSettings d h
    | toggleMode => exact v.toggleMode d h
    | hear params signal => exact v.hear params signal d h
  | interpret n p => exact v.interpretTo (ha n rfl) p d h
  | step n direction => exact v.step (ha n rfl) direction d h
  | ask n timeout request => exact asking takes distinct (ha n rfl) timeout request d h
  | finish q answer => exact v.note.finish q answer d h

end Operations

end Told

/-! ## After every run -/

theorem told_live (takes : carrier.Takes P) (distinct : uris.Nodup) (h : Told P uris d) (as : List (Affair (Recorded L)))
    (has : ∀ a ∈ as, a.Tells ∧ ∀ n, a.buffer? = some n → n < uris.length) :
    Told P uris (d.live carrier.recorded as) := by
  induction as generalizing d with
  | nil => exact h
  | cons a as ih =>
    obtain ⟨htells, ha⟩ := has a List.mem_cons_self
    exact ih (h.undergo takes distinct htells ha) fun a' ha' => has a' (List.mem_cons_of_mem _ ha')

theorem IsUnheard.told (h : d.IsUnheard) (alive : P d.link.link) (hsent : d.link.sent = []) :
    Told P (d.buffers.map Buffer.uri) d where
  bound := h.bound
  named := rfl
  alive := alive
  spoken uri := by
    rw [Recorded.words, hsent, copy?, h.attachments]
    rfl

/-- With a server that takes every message, whatever is done with a session and whatever it hears: the documents are
opened, changed and closed in turn, with rising versions. Open are those that are attached, and their last version and
text are the buffer's; what else is said of an open document names its last version. -/
theorem copies_kept (takes : carrier.Takes P) (h : d.IsUnheard) (distinct : (d.buffers.map Buffer.uri).Nodup)
    (alive : P d.link.link) (hsent : d.link.sent = []) (as : List (Affair (Recorded L)))
    (has : ∀ a ∈ as, a.Tells ∧ ∀ n, a.buffer? = some n → n < d.buffers.length) (uri : String) :
    let d' := d.live carrier.recorded as
    let words := d'.link.words uri
    (∃ rest, words.filterMap Word.letter? ++ rest ∈ Word.episodes.matches') ∧
    (∀ before middle after, words = before ++ middle ++ after → .closed ∉ middle →
      (middle.filterMap Word.version?).Pairwise (· < ·)) ∧
    (Word.IsOpen words ↔ d'.isAttached uri = true) ∧
    (∀ n, d'.attached? uri = some n → (d'.bufferAt n).uri = uri ∧ (words.filterMap Word.content?).getLast? =
      some (.int (d'.bufferAt n).version, .text (d'.bufferAt n).text)) ∧
    ∀ before after version, words = before ++ .named version :: after → Word.IsOpen before →
      ∃ text, (before.filterMap Word.content?).getLast? = some (version, text) := by
  intro d' words
  have htold : Told P _ d' := told_live takes distinct (h.told alive hsent) as (by simpa using has)
  have hspoken := htold.spoken uri
  refine ⟨hspoken.letters_prefix, fun _ _ _ => hspoken.versions_ascending, ?_, ?_, fun _ _ _ => hspoken.named_eq⟩
  · unfold copy? at hspoken
    unfold isAttached Keyed.has
    cases ha : Keyed.get? uri d'.session.attachments with
    | none =>
      rw [ha] at hspoken
      exact iff_of_false hspoken.last (by simp)
    | some a =>
      rw [ha] at hspoken
      exact iff_of_true hspoken.last.1 rfl
  · intro n hn
    obtain ⟨a, ha, rfl⟩ := Option.map_eq_some_iff.mp hn
    rw [copy?, ha] at hspoken
    exact ⟨htold.bound.uri_eq (Keyed.mem_of_get? ha), hspoken.last.2⟩

end Copies

theorem takes_wire : wire.Takes (· = true) := by
  rintro method params link rfl
  exact ⟨true, rfl, rfl⟩

/-- A buffer gets a new text and is checked to its end, is closed, gets another text unheard, and is opened again. -/
def reopened : List (Affair (Recorded Bool)) :=
  [.befall (.adopt 0), .befall (.replaceText 0 "Check O."), .step 0 .toEnd, .befall (.closeBuffer 0),
    .befall (.replaceText 0 "Check S."), .befall (.adopt 0)]

theorem copies_kept_reopened : ∃ s : Session, Session.create (.object []) "ns" = .ok s ∧
    let d : Desk (Recorded Bool) := ⟨s, [.ofText "a" "Check nat." Buffer.defaultLanguage], ⟨true, []⟩⟩
    let words := (d.live wire.recorded reopened).link.words "a"
    words.filterMap Word.letter? = [.opened, .changed, .closed, .opened] ∧
      words.filterMap Word.version? = [0, 1, 2] ∧
      (∃ rest, words.filterMap Word.letter? ++ rest ∈ Word.episodes.matches') ∧
      (words.filterMap Word.content?).getLast? = some (.int 2, .text "Check S.") := by
  obtain ⟨s, created⟩ : ∃ s, Session.create (.object []) "ns" = .ok s := ⟨_, rfl⟩
  refine ⟨s, created, ?_⟩
  have hreopened : ∀ a ∈ reopened, a.Tells ∧ ∀ n, a.buffer? = some n → n < 1 := by
    simp [reopened, Affair.Tells, Affair.buffer?, Event.buffer?]
  intro d words
  have hfresh : d.IsFresh := isFresh_create created [("a", "Check nat.")] (by decide) (⟨true, []⟩ : Recorded Bool)
  have hkept := copies_kept takes_wire hfresh.isUnheard hfresh.distinct rfl rfl reopened hreopened "a"
  have hattached : (d.live wire.recorded reopened).attached? "a" = some 0 := by
    cases created
    decide +kernel
  have hlast := (hkept.2.2.2.1 0 hattached).2
  have hversion : ((d.live wire.recorded reopened).bufferAt 0).version = 2 := by
    cases created
    decide +kernel
  have htext : ((d.live wire.recorded reopened).bufferAt 0).text = "Check S." := by
    cases created
    decide +kernel
  rw [hversion, htext] at hlast
  refine ⟨?_, ?_, hkept.1, hlast⟩
  all_goals
    cases created
    decide +kernel

end Desk
end CoqConsole
