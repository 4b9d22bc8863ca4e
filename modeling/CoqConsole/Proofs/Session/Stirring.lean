import CoqConsole.Proofs.Session.Aftermath
import CoqConsole.Proofs.Session.Tuning

/-!
# What a notification can change

The server moves the cursor of a buffer, and the session hears when a cursor moves and may then ask the server to check
up to it. That is in continuous mode, and the cursor is moved in manual mode only; so neither makes the other go on.

* `Desk.Stirs` : all that a notification can change; `Bound.stirs_hear`;
* `Bound.run_moveCursor_of_manual` : in manual mode a cursor is moved and nothing is sent;
* `Bound.hear_congr` : so nothing depends on what the link does with a message;
* `hear_unechoed` : after every run, with any settings.
-/

namespace CoqConsole.Desk

variable {L : Type} {carrier : Carrier L} {d : Desk L}

/-! ## All that a notification can change -/

/-- All that a notification can change: the marks or the cursor of a buffer that is attached under the address that it
names, or a pane. A buffer with a new cursor becomes the active one. -/
inductive Stirs (d : Desk L) (params : Json) : Signal → Desk L → Prop
  | nothing {signal : Signal} : Stirs d params signal d
  | marks {uri : String} {a : Attachment} {marks : List (String × List Mark)}
    (named : params.member "uri" = .ok (.text uri)) (held : (uri, a) ∈ d.session.attachments) :
    Stirs d params .progress (d.withBuffer a.buffer { d.bufferAt a.buffer with marks })
  | cursor {uri : String} {a : Attachment} {cursor : Position} (named : params.member "uri" = .ok (.text uri))
    (held : (uri, a) ∈ d.session.attachments) (manual : Settings.proofMode d.session.settings = .ok .manual) :
    Stirs d params .cursor { d.withBuffer a.buffer { d.bufferAt a.buffer with cursor } with
      session := { d.session with active := some uri } }
  | proofPane {proofPane : Pane} : Stirs d params .proofView { d with session := { d.session with proofPane } }
  | queryPane {queryPane : Pane} {shownSearch : Option Int} :
    Stirs d params .searchHit { d with session := { d.session with queryPane, shownSearch } }

namespace Stirs

variable {d' : Desk L} {params : Json} {signal : Signal}

theorem link (h : Stirs d params signal d') : d'.link = d.link := by
  cases h <;> rfl

/-- What neither marks nor the cursor decide is the same of each buffer. -/
theorem map_buffers {α : Type} {g : Buffer Reaction Mark → α} (h : Stirs d params signal d')
    (hmarks : ∀ b marks, g { b with marks } = g b) (hcursor : ∀ b cursor, g { b with cursor } = g b) :
    d'.buffers.map g = d.buffers.map g := by
  cases h with
  | nothing => rfl
  | marks => exact map_withBuffer (hmarks _ _)
  | cursor => exact map_withBuffer (hcursor _ _)
  | proofPane => rfl
  | queryPane => rfl

/-- A notification about a buffer that is not attached changes nothing. -/
theorem eq_of_not_attached (h : Stirs d params signal d') (hsignal : signal = .progress ∨ signal = .cursor)
    (hout : ∀ uri, params.member "uri" = .ok (.text uri) → uri ∉ Keyed.keys d.session.attachments) : d' = d := by
  cases h with
  | nothing => rfl
  | marks named held => exact absurd (List.mem_map.mpr ⟨_, held, rfl⟩) (hout _ named)
  | cursor named held => exact absurd (List.mem_map.mpr ⟨_, held, rfl⟩) (hout _ named)
  | proofPane => simp at hsignal
  | queryPane => simp at hsignal

end Stirs

/-! ## Cursors in manual mode -/

/-- In manual mode a cursor is moved, and the session notes which buffer is active; nothing is sent. -/
theorem Bound.run_moveCursor_of_manual (h : d.Bound) {uri : String} {a : Attachment} (p : Position)
    (held : (uri, a) ∈ d.session.attachments) (manual : Settings.proofMode d.session.settings = .ok .manual) :
    (moveCursor carrier a.buffer p).run.run d =
      match (d.bufferAt a.buffer).moveTo p with
      | .error cause => (.error cause, d)
      | .ok b => (.ok (), { d.withBuffer a.buffer b with session := { d.session with active := some uri } }) := by
  rw [h.run_moveCursor]
  cases hmove : (d.bufferAt a.buffer).moveTo p with
  | error cause => rfl
  | ok b =>
    have hmanual : Settings.proofMode (d.withBuffer a.buffer b).session.settings = .ok .manual := manual
    have huri : ((d.withBuffer a.buffer b).bufferAt a.buffer).uri = uri := by
      obtain rfl := Buffer.eq_of_moveTo hmove
      rw [← h.uri_eq held, bufferAt_withBuffer]
      split <;> rfl
    simp only
    rw [if_pos ⟨_, held, rfl⟩, run_follow_of_manual _ hmanual, huri]
    rfl

/-! ## Each kind of notification -/

theorem stirs_hearProgress (params : Json) (d : Desk L) :
    Stirs d params .progress ((hearProgress carrier params).run.run d).2 := by
  refine (looks_subject params).after .nothing fun found hfound => ?_
  cases found with
  | none => exact .nothing
  | some n =>
    obtain ⟨uri, a, named, held, rfl⟩ := run_subject_eq_some hfound
    refine (Looks.lift _).after .nothing fun highlights _ => looks_encoding.after .nothing fun e _ => ?_
    refine Looks.get.after .nothing fun d' hd' => (Looks.lift _).after .nothing fun b happly => ?_
    cases hd'
    rw [run_lift] at happly
    obtain ⟨marks, rfl⟩ := Progress.eq_of_apply happly
    exact .marks named held

theorem Bound.stirs_hearCursor (h : d.Bound) (params : Json) :
    Stirs d params .cursor ((hearCursor carrier params).run.run d).2 := by
  rw [hearCursor_eq]
  refine (looks_meant params).after .nothing fun found hfound => ?_
  cases found with
  | none => exact .nothing
  | some target =>
    obtain ⟨n, p⟩ := target
    have hmeant := meant_of_eq_some hfound
    obtain ⟨uri, a, named, held, rfl⟩ := hmeant.attached
    simp only [h.run_moveCursor_of_manual p held hmeant.manual]
    cases hmove : (d.bufferAt a.buffer).moveTo p with
    | error cause => exact .nothing
    | ok b =>
      obtain rfl := Buffer.eq_of_moveTo hmove
      exact .cursor named held hmeant.manual

theorem stirs_hearProofView (params : Json) (d : Desk L) :
    Stirs d params .proofView ((hearProofView params).run.run d).2 :=
  (Looks.lift _).after .nothing fun _ _ => .proofPane

theorem stirs_hearSearchHit (params : Json) (d : Desk L) :
    Stirs d params .searchHit ((hearSearchHit params).run.run d).2 := by
  rw [run_hearSearchHit]
  cases SearchHit.ofJson params with
  | error cause => exact .nothing
  | ok hit =>
    simp only [run_showSearch]
    split
    · cases hit.render with
      | error cause =>
        simp only
        split
        · exact .nothing
        · exact .queryPane
      | ok lines =>
        simp only
        split
        · exact .queryPane
        · exact .queryPane
    · exact .nothing

theorem Bound.stirs_hear (h : d.Bound) (params : Json) (signal : Signal) :
    Stirs d params signal ((hear carrier params signal).run.run d).2 := by
  cases signal with
  | progress => exact stirs_hearProgress params d
  | cursor => exact h.stirs_hearCursor params
  | proofView => exact stirs_hearProofView params d
  | searchHit => exact stirs_hearSearchHit params d

/-! ## Whatever the link does -/

section Carriers

variable {carrier' : Carrier L} (hencoding : carrier'.encoding = carrier.encoding)
include hencoding

theorem encoding_congr : encoding carrier' = encoding carrier := by
  unfold encoding
  rw [hencoding]

theorem meant_congr (params : Json) : meant carrier' params = meant carrier params := by
  unfold meant
  rw [encoding_congr hencoding]

theorem Bound.hearCursor_congr (h : d.Bound) (params : Json) :
    (hearCursor carrier' params).run.run d = (hearCursor carrier params).run.run d := by
  rw [hearCursor_eq, hearCursor_eq, meant_congr hencoding]
  refine (looks_meant params).congr fun found hfound => ?_
  cases found with
  | none => rfl
  | some target =>
    obtain ⟨n, p⟩ := target
    have hmeant := meant_of_eq_some hfound
    obtain ⟨uri, a, -, held, rfl⟩ := hmeant.attached
    simp only [h.run_moveCursor_of_manual p held hmeant.manual]

/-- What a link does with a message makes no difference, for none is given to it. -/
theorem Bound.hear_congr (h : d.Bound) (params : Json) (signal : Signal) :
    (hear carrier' params signal).run.run d = (hear carrier params signal).run.run d := by
  cases signal with
  | progress =>
    show (hearProgress carrier' params).run.run d = (hearProgress carrier params).run.run d
    rw [hearProgress, encoding_congr hencoding, ← hearProgress]
  | cursor => exact Bound.hearCursor_congr hencoding h params
  | proofView => rfl
  | searchHit => rfl

end Carriers

theorem Bound.withSettings (h : d.Bound) (settings : Json) : (d.withSettings settings).Bound := h.of_eq rfl rfl rfl

/-! ## After every run -/

/-- A notification sends nothing and leaves all texts, and one about a buffer that is not attached leaves everything. -/
structure Unechoed (carrier : Carrier L) (d : Desk L) (params : Json) (signal : Signal)
    (out : Except Failure Unit × Desk L) : Prop where
  link : out.2.link = d.link
  /-- It comes to the same whatever the link would do with a message. -/
  unsent : ∀ carrier' : Carrier L, carrier'.encoding = carrier.encoding → (hear carrier' params signal).run.run d = out
  texts : out.2.buffers.map (fun b => (b.lines, b.version)) = d.buffers.map fun b => (b.lines, b.version)
  unattached : signal = .progress ∨ signal = .cursor →
    (∀ uri, params.member "uri" = .ok (.text uri) → d.isAttached uri = false) → out.2 = d

theorem Bound.unechoed (h : d.Bound) (params : Json) (signal : Signal) :
    Unechoed carrier d params signal ((hear carrier params signal).run.run d) := by
  have hstirs : Stirs d params signal ((hear carrier params signal).run.run d).2 := h.stirs_hear params signal
  refine ⟨hstirs.link, fun _ hencoding => Bound.hear_congr hencoding h params signal, ?_, fun hsignal hout => ?_⟩
  · exact hstirs.map_buffers (fun _ _ => rfl) fun _ _ => rfl
  · refine hstirs.eq_of_not_attached hsignal fun uri named hmem => ?_
    have hattached : d.isAttached uri = true := Keyed.has_eq_true.mpr hmem
    rw [hout uri named] at hattached
    cases hattached

/-- In every state of a session, whatever has befallen it, and with any settings: a notification makes it send nothing,
whether it fails or not, and leaves the texts and the versions of all buffers; and one about a buffer that is not
attached changes nothing at all. -/
theorem hear_unechoed (carrier : Carrier L) (hd : d.IsUnheard) (as : List (Affair L))
    (has : ∀ a ∈ as, ∀ n, a.buffer? = some n → n < d.buffers.length) (settings params : Json) (signal : Signal) :
    let d' := (d.live carrier as).withSettings settings
    Unechoed carrier d' params signal ((hear carrier params signal).run.run d') :=
  ((bound_live carrier hd.bound as has).withSettings settings).unechoed params signal

def tally : Carrier Nat := ⟨fun _ _ sent => .ok (sent + 1), fun _ => .null⟩

/-- The server wants the cursor behind the third character. -/
def behindThree : Json :=
  .object [("uri", .text "a"), ("range", .object [("end", .object [("line", .int 0), ("character", .int 3)])])]

/-- In manual mode the cursor moves, in continuous mode it stays, and nothing follows the message that opened the
buffer. -/
theorem hear_unechoed_behindThree : ∃ s : Session, Session.create manual "ns" = .ok s ∧
    let d : Desk Nat := ⟨s, [.ofText "a" "Check nat." Buffer.defaultLanguage], 0⟩
    let d' := d.live tally [.befall (.adopt 0)]
    let out (settings : Json) := (hear tally behindThree .cursor).run.run (d'.withSettings settings)
    d'.link = 1 ∧ (∀ settings, (out settings).2.link = 1) ∧
      ((out s.settings).2.bufferAt 0).cursor = ⟨.whole 0, .whole 3⟩ ∧
      ((out Settings.defaults).2.bufferAt 0).cursor = .zero := by
  obtain ⟨s, created⟩ : ∃ s, Session.create manual "ns" = .ok s := ⟨_, rfl⟩
  refine ⟨s, created, ?_⟩
  have hunheard := (isFresh_create created [("a", "Check nat.")] (by decide) 0).isUnheard
  have hbuffers : ∀ a ∈ [Affair.befall (Event.adopt (L := Nat) 0)], ∀ n ∈ a.buffer?, n < 1 := by decide
  intro d d' out
  have hheard (settings : Json) := hear_unechoed tally hunheard _ hbuffers settings behindThree .cursor
  have hlink : d'.link = 1 := by
    cases created
    decide +kernel
  refine ⟨hlink, fun settings => (hheard settings).link.trans hlink, ?_, ?_⟩
  all_goals
    cases created
    decide +kernel

end CoqConsole.Desk
