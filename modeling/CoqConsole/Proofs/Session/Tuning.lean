import CoqConsole.Proofs.Json.Merging
import CoqConsole.Proofs.Session.Affairs

/-!
# Settings of a session, and whether they stay of use

New values are laid over the settings of a session before the server hears of them and before their proof mode is
read. So an update that fails can leave other settings behind, and ones whose mode cannot be read end all updates.

* `Settings.merge_modeUpdate` : a mode laid over settings whose mode can be read can be read in its turn;
* `run_updateSettings`, `run_toggleMode` : an update in two parts, the values laid over and what follows, `Desk.push`;
* `Position.IsWhole`, `Carrier.Lives` : where checking up to a cursor cannot fail, nor sending over a link;
* `Event.tune`, `settings_after` : what an update leaves of the settings, whether it fails or not;
* `settings_follow` : after every run of updates;
* `Event.tune_tune`, `settings_merge` : what objects laid over each other are, and that an update made again changes
  nothing.
-/

namespace CoqConsole

/-! ## Modes -/

theorem ProofMode.ofInt_number (mode : ProofMode) : ofInt mode.number = .ok mode := by
  cases mode <;> rfl

namespace Settings

/-- Where settings hold a mode that can be read. -/
theorem members_of_proofMode {settings : Json} {mode : ProofMode} (h : proofMode settings = .ok mode) :
    ∃ members proof, settings = .object members ∧ Keyed.get? "proof" members = some (.object proof) := by
  unfold proofMode at h
  cases settings with
  | object members =>
    cases hproof : Keyed.get? "proof" members with
    | none =>
      simp only [Json.member, hproof] at h
      cases h
    | some v =>
      simp only [Json.member, hproof] at h
      cases v with
      | object proof => exact ⟨members, proof, rfl, hproof⟩
      | _ => cases h
  | _ => cases h

theorem proofMode_put (members proof : List (String × Json)) (mode : ProofMode) :
    proofMode (.object (Keyed.put "proof" (.object (Keyed.put "mode" (.int mode.number) proof)) members)) =
      .ok mode := by
  have hproof := Keyed.get?_put "proof" "proof" (Json.object (Keyed.put "mode" (.int mode.number) proof)) members
  have hmode := Keyed.get?_put "mode" "mode" (Json.int mode.number) proof
  rw [if_pos rfl] at hproof hmode
  simp only [proofMode, Json.member, hproof, bind, Except.bind, hmode, Json.toInt]
  exact ProofMode.ofInt_number mode

def IsReadable (settings : Json) : Prop := ∃ mode, proofMode settings = .ok mode

/-- A mode can be laid over settings whose mode can be read, and is then read. -/
theorem merge_modeUpdate {settings : Json} {mode : ProofMode} (h : proofMode settings = .ok mode) (other : ProofMode) :
    ∃ merged, Json.merge settings (modeUpdate other) = .ok merged ∧ proofMode merged = .ok other := by
  obtain ⟨members, proof, rfl, hproof⟩ := members_of_proofMode h
  refine ⟨_, rfl, ?_⟩
  simp only [Json.mergeMembers, hproof, Json.mergeValue]
  exact proofMode_put members proof other

end Settings

/-! ## Where checking cannot fail -/

/-- The position counts whole lines and characters. -/
structure Position.IsWhole (p : Position) : Prop where
  row : p.row.index?.isSome = true
  col : p.col.index?.isSome = true

theorem Place.exists_toWire_cursor {lines : List String} {cursor : Position} (h : cursor.IsWhole) {encoding : Json}
    {e : Encoding} (he : Encoding.ofJson encoding = .ok e) :
    ∃ place, Place.cursor.toWire lines cursor encoding = .ok place := by
  obtain ⟨row, hrow⟩ := Option.isSome_iff_exists.mp h.row
  obtain ⟨col, hcol⟩ := Option.isSome_iff_exists.mp h.col
  have hline : ∃ line, lineAt lines cursor.row = .ok line := by
    unfold lineAt
    split
    · exact ⟨_, by rw [hrow]⟩
    · exact ⟨_, rfl⟩
  obtain ⟨line, hline⟩ := hline
  simp only [toWire, toWire.place, hline, bind, Except.bind]
  cases line with
  | none => exact ⟨_, rfl⟩
  | some line =>
    have hcharacter : ∃ units, characterAt line (.ok cursor.col) encoding = .ok units := by
      simp only [characterAt, he, bind, Except.bind]
      split
      · exact ⟨_, rfl⟩
      · exact ⟨_, by rw [hcol]; rfl⟩
    obtain ⟨units, hunits⟩ := hcharacter
    exact ⟨Position.wire cursor.row units, by simp only [hunits]; rfl⟩

/-- Links with the property take every notification, go on having it, and count in an encoding that there is. -/
structure Carrier.Lives {L : Type} (carrier : Carrier L) (P : L → Prop) : Prop where
  send : ∀ method params link, P link → ∃ link', carrier.send method params link = .ok link' ∧ P link'
  encoding : ∀ link, P link → ∃ e, Encoding.ofJson (carrier.named link) = .ok e

namespace Desk

variable {L : Type} {carrier : Carrier L} {d : Desk L}

/-- Only the link changes. -/
theorem relinked_interpretTo (n : Nat) (p : Place) (d : Desk L) :
    ∃ link, ((interpretTo carrier n p).run.run d).2 = { d with link } := by
  rw [run_interpretTo]
  split
  · rw [run_send]
    split
    · exact ⟨_, rfl⟩
    · exact ⟨d.link, rfl⟩
  · exact ⟨d.link, rfl⟩

theorem interpretTo_lives {P : L → Prop} (lives : carrier.Lives P) (hlink : P d.link) {n : Nat}
    (hcursor : (d.bufferAt n).cursor.IsWhole) :
    ((interpretTo carrier n .cursor).run.run d).1 = .ok () := by
  obtain ⟨e, he⟩ := lives.encoding _ hlink
  obtain ⟨place, hplace⟩ : ∃ place, Place.cursor.toWire (d.bufferAt n).lines _ _ = .ok place :=
    Place.exists_toWire_cursor hcursor he
  rw [run_interpretTo, hplace]
  obtain ⟨link, hsend, -⟩ := lives.send "vscoq/interpretToPoint"
    (.object [("textDocument", versioned (d.bufferAt n)), ("position", place)]) _ hlink
  simp only [run_send, hsend]

/-! ## Updates -/

/-- What follows once values were laid over the settings: they are sent, and on the way from manual to continuous mode
the active buffer is checked. -/
def push (carrier : Carrier L) (previous : ProofMode) (settings : Json) : Op L Unit := do
  send carrier "workspace/didChangeConfiguration" (.object [("settings", settings)])
  if previous = .manual then
    if (← proofMode) = .continuous then
      match (← get).active? with
      | some n => interpretTo carrier n .cursor
      | none => pure ()

def withSettings (d : Desk L) (settings : Json) : Desk L := { d with session := { d.session with settings } }

theorem run_updateSettings (update : Json) (d : Desk L) :
    (updateSettings carrier update).run.run d =
      match Settings.proofMode d.session.settings with
      | .error cause => (.error cause, d)
      | .ok previous =>
        match Json.merge d.session.settings update with
        | .error cause => (.error cause, d)
        | .ok merged => (push carrier previous merged).run.run (d.withSettings merged) := by
  unfold updateSettings
  simp only [run_bind, run_proofMode]
  cases Settings.proofMode d.session.settings with
  | error cause => rfl
  | ok previous =>
    simp only [run_get, run_lift]
    cases Json.merge d.session.settings update with
    | error cause => rfl
    | ok merged =>
      simp only [run_editSession, push, run_bind]
      rfl

variable (carrier) in
/-- The settings are changed by now, so only the link changes. -/
theorem relinked_push (previous : ProofMode) (settings : Json) (d : Desk L) :
    ∃ link, ((push carrier previous settings).run.run d).2 = { d with link } := by
  unfold push
  simp only [run_bind, run_send]
  cases carrier.send "workspace/didChangeConfiguration" (.object [("settings", settings)]) d.link with
  | error cause => exact ⟨d.link, rfl⟩
  | ok link =>
    simp only [run_ite, run_bind, run_proofMode, run_get]
    split
    · cases Settings.proofMode d.session.settings with
      | error cause => exact ⟨link, rfl⟩
      | ok mode =>
        simp only
        split
        · cases active? { d with link } with
          | none => exact ⟨link, rfl⟩
          | some n => exact relinked_interpretTo n .cursor { d with link }
        · exact ⟨link, rfl⟩
    · exact ⟨link, rfl⟩

theorem push_unsent {previous : ProofMode} {settings : Json} {cause : Failure}
    (h : carrier.send "workspace/didChangeConfiguration" (.object [("settings", settings)]) d.link = .error cause) :
    (push carrier previous settings).run.run d = (.error cause, d) := by
  simp only [push, run_bind, run_send, h]

/-- What is left to fail once the settings are sent: on the way from manual mode the new one is read. -/
def reading (previous : ProofMode) (settings : Json) : Except Failure Unit :=
  match previous with
  | .manual => (Settings.proofMode settings).map fun _ => ()
  | .continuous => .ok ()

theorem push_lives {P : L → Prop} (lives : carrier.Lives P) (hlink : P d.link)
    (hcursor : ∀ n, (d.bufferAt n).cursor.IsWhole) (previous : ProofMode) :
    ((push carrier previous d.session.settings).run.run d).1 = reading previous d.session.settings := by
  obtain ⟨link, hsend, hlink⟩ := lives.send "workspace/didChangeConfiguration"
    (.object [("settings", d.session.settings)]) _ hlink
  simp only [push, run_bind, run_send, hsend]
  cases previous with
  | continuous => rfl
  | manual =>
    simp only [run_ite, if_true, run_bind, run_proofMode, run_get, reading]
    cases Settings.proofMode d.session.settings with
    | error cause => rfl
    | ok mode =>
      simp only
      split
      · cases active? { d with link } with
        | none => rfl
        | some n => exact interpretTo_lives (d := { d with link }) lives hlink (hcursor n)
      · rfl

theorem run_toggleMode (d : Desk L) :
    (toggleMode carrier).run.run d =
      match Settings.proofMode d.session.settings with
      | .error cause => (.error cause, d)
      | .ok mode =>
        match (updateSettings carrier (Settings.modeUpdate mode.flip)).run.run d with
        | (.ok (), d) => (.ok mode.flip, d)
        | (.error cause, d) => (.error cause, d) := by
  unfold toggleMode
  simp only [run_bind, run_proofMode]
  cases hmode : Settings.proofMode d.session.settings with
  | error cause => rfl
  | ok mode =>
    simp only
    obtain ⟨merged, hmerged, hread⟩ := Settings.merge_modeUpdate hmode mode.flip
    obtain ⟨link, hpush⟩ := relinked_push carrier mode merged (d.withSettings merged)
    rw [run_updateSettings, hmode, hmerged]
    simp only
    generalize (push carrier mode merged).run.run (d.withSettings merged) = out at hpush
    obtain ⟨r, d'⟩ := out
    obtain rfl : d' = { d.withSettings merged with link } := hpush
    cases r with
    | error cause => rfl
    | ok u => exact congrArg (·, _) hread

/-! ## Runs of updates -/

/-- An event that is an update of the settings, or befalls the link. -/
def Event.Tunes : Event L → Prop
  | .updateSettings _ | .toggleMode | .relink _ => True
  | _ => False

/-- The values that an event lays over settings of that mode. -/
def Event.patch? (mode : ProofMode) : Event L → Option Json
  | .updateSettings update => some update
  | .toggleMode => some (Settings.modeUpdate mode.flip)
  | _ => none

/-- The settings after an event: what it lays over them is there, unless their mode cannot be read or it cannot be laid
over them. -/
def Event.tune (settings : Json) (e : Event L) : Json :=
  match Settings.proofMode settings with
  | .ok mode => ((e.patch? mode).bind fun patch => (Json.merge settings patch).toOption).getD settings
  | .error _ => settings

variable (carrier) in
/-- An event leaves the settings so and changes nothing else but the link. -/
theorem settings_after (d : Desk L) {e : Event L} (he : e.Tunes) :
    ∃ link, d.after carrier e = { d.withSettings (e.tune d.session.settings) with link } := by
  have hupdate (update : Json) : ∃ link, ((updateSettings carrier update).run.run d).2 =
      { d.withSettings (Event.tune d.session.settings (.updateSettings (L := L) update)) with link } := by
    rw [run_updateSettings]
    cases hmode : Settings.proofMode d.session.settings with
    | error cause => exact ⟨d.link, by simp only [Event.tune, hmode]; rfl⟩
    | ok previous =>
      cases hmerged : Json.merge d.session.settings update with
      | error cause =>
        exact ⟨d.link, by simp only [Event.tune, hmode, Event.patch?, Option.bind_some, hmerged]; rfl⟩
      | ok merged =>
        obtain ⟨link, hpush⟩ := relinked_push carrier previous merged (d.withSettings merged)
        exact ⟨link, by simp only [Event.tune, hmode, Event.patch?, Option.bind_some, hmerged]; exact hpush⟩
  cases e with
  | updateSettings update => exact hupdate update
  | relink link => exact ⟨link, by simp [after, Event.tune, Event.patch?, withSettings]; split <;> rfl⟩
  | toggleMode =>
    show ∃ link, ((toggleMode carrier).run.run d).2 = _
    rw [run_toggleMode]
    cases hmode : Settings.proofMode d.session.settings with
    | error cause => exact ⟨d.link, by simp only [Event.tune, hmode]; rfl⟩
    | ok mode =>
      obtain ⟨link, hupdate⟩ := hupdate (Settings.modeUpdate mode.flip)
      refine ⟨link, ?_⟩
      simp only [Event.tune, hmode, Event.patch?] at hupdate ⊢
      rw [← hupdate]
      rcases (updateSettings carrier (Settings.modeUpdate mode.flip)).run.run d with ⟨_ | _, _⟩ <;> rfl
  | _ => exact he.elim

variable (carrier) in
theorem settings_run (d : Desk L) (es : List (Event L)) (hes : ∀ e ∈ es, e.Tunes) :
    ∃ link, d.follow carrier es = { d.withSettings (es.foldl Event.tune d.session.settings) with link } := by
  induction es generalizing d with
  | nil => exact ⟨d.link, rfl⟩
  | cons e es ih =>
    obtain ⟨link, hafter⟩ := settings_after carrier d (hes e List.mem_cons_self)
    obtain ⟨link', hrun⟩ := ih (d.after carrier e) fun e' he' => hes e' (List.mem_cons_of_mem _ he')
    refine ⟨link', ?_⟩
    rw [show d.follow carrier (e :: es) = (d.after carrier e).follow carrier es from rfl, hrun, hafter]
    rfl

/-! ### Whether the mode can still be read -/

theorem Event.tune_of_unread {settings : Json} (h : ¬ Settings.IsReadable settings) (e : Event L) :
    e.tune settings = settings := by
  unfold Event.tune
  cases hmode : Settings.proofMode settings with
  | ok mode => exact absurd ⟨mode, hmode⟩ h
  | error cause => rfl

theorem Event.foldl_tune_of_unread {settings : Json} (h : ¬ Settings.IsReadable settings) (es : List (Event L)) :
    es.foldl Event.tune settings = settings := by
  induction es with
  | nil => rfl
  | cons e es ih => rw [List.foldl_cons, Event.tune_of_unread h, ih]

/-- Only an update can lay a mode over the settings that cannot be read. -/
theorem Event.isReadable_tune {settings : Json} (h : Settings.IsReadable settings) {e : Event L} (he : e.Tunes) :
    Settings.IsReadable (e.tune settings) ↔
      ∀ update merged, e = .updateSettings update → Json.merge settings update = .ok merged →
        Settings.IsReadable merged := by
  obtain ⟨mode, hmode⟩ := h
  simp only [Event.tune, hmode]
  cases e with
  | updateSettings update =>
    simp only [Event.patch?, Option.bind_some]
    cases hmerged : Json.merge settings update with
    | error cause =>
      refine ⟨fun _ update' merged he hm => ?_, fun _ => ⟨mode, hmode⟩⟩
      cases he
      rw [hmerged] at hm
      cases hm
    | ok merged =>
      refine ⟨fun hread update' merged' he hm => ?_, fun hread => hread update merged rfl hmerged⟩
      cases he
      rw [hmerged] at hm
      cases hm
      exact hread
  | toggleMode =>
    obtain ⟨merged, hmerged, hread⟩ := Settings.merge_modeUpdate hmode mode.flip
    refine ⟨fun _ update merged he => (by cases he), fun _ => ⟨mode.flip, ?_⟩⟩
    simp only [Event.patch?, Option.bind_some, hmerged]
    exact hread
  | relink link => exact ⟨fun _ update merged he => (by cases he), fun _ => ⟨mode, hmode⟩⟩
  | _ => exact he.elim

/-- The mode can be read after a run exactly if no update on the way laid one over the settings that cannot be. -/
theorem Event.isReadable_foldl {settings : Json} (h : Settings.IsReadable settings) (es : List (Event L))
    (hes : ∀ e ∈ es, e.Tunes) :
    Settings.IsReadable (es.foldl Event.tune settings) ↔
      ∀ fs update gs merged, es = fs ++ .updateSettings update :: gs →
        Json.merge (fs.foldl Event.tune settings) update = .ok merged → Settings.IsReadable merged := by
  induction es generalizing settings with
  | nil =>
    refine ⟨fun _ fs update gs merged hsplit => ?_, fun _ => h⟩
    cases fs <;> cases hsplit
  | cons e es ih =>
    have hstep := Event.isReadable_tune h (hes e List.mem_cons_self)
    have hrest : ∀ e' ∈ es, e'.Tunes := fun e' he' => hes e' (List.mem_cons_of_mem _ he')
    rw [List.foldl_cons]
    by_cases hread : Settings.IsReadable (e.tune settings)
    · rw [ih hread hrest]
      constructor
      · intro hall fs update gs merged hsplit hm
        cases fs with
        | nil =>
          obtain ⟨rfl, -⟩ := List.cons.inj hsplit
          exact hstep.mp hread update merged rfl hm
        | cons f fs =>
          obtain ⟨rfl, htail⟩ := List.cons.inj hsplit
          exact hall fs update gs merged htail hm
      · intro hall fs update gs merged hsplit hm
        exact hall (e :: fs) update gs merged (by rw [hsplit]; rfl) hm
    · rw [Event.foldl_tune_of_unread hread]
      refine ⟨fun h => absurd h hread, fun hall => hstep.mpr fun update merged he hm => ?_⟩
      exact hall [] update es merged (by rw [he]; rfl) hm

/-! ## What an update comes to -/

/-- How updates of the settings end in a state of a session. -/
structure Tunable (carrier : Carrier L) (d : Desk L) : Prop where
  /-- Where the mode cannot be read, all of them fail for that, and nothing happens. -/
  unread : ∀ cause, Settings.proofMode d.session.settings = .error cause →
    (∀ update, (updateSettings carrier update).run.run d = (.error cause, d)) ∧
      (toggleMode carrier).run.run d = (.error cause, d)
  /-- Values that cannot be laid over the settings are refused, and nothing happens. -/
  refused : ∀ previous update cause, Settings.proofMode d.session.settings = .ok previous →
    Json.merge d.session.settings update = .error cause → (updateSettings carrier update).run.run d = (.error cause, d)
  /-- All others are in the settings afterwards, whether the update fails or not. -/
  laid : ∀ previous update merged, Settings.proofMode d.session.settings = .ok previous →
    Json.merge d.session.settings update = .ok merged →
    ∃ link, ((updateSettings carrier update).run.run d).2 = { d.withSettings merged with link }
  /-- If they cannot be sent, the update fails with the settings changed. -/
  unsent : ∀ previous update merged cause, Settings.proofMode d.session.settings = .ok previous →
    Json.merge d.session.settings update = .ok merged →
    carrier.send "workspace/didChangeConfiguration" (.object [("settings", merged)]) d.link = .error cause →
    (updateSettings carrier update).run.run d = (.error cause, d.withSettings merged)
  /-- On a link that lives it fails exactly if the mode was manual and the new one cannot be read. -/
  lives : ∀ previous update merged P, Settings.proofMode d.session.settings = .ok previous →
    Json.merge d.session.settings update = .ok merged → carrier.Lives P → P d.link →
    ((updateSettings carrier update).run.run d).1 = reading previous merged
  /-- A toggle is an update by the other mode, which can be read. -/
  toggled : ∀ mode, Settings.proofMode d.session.settings = .ok mode → ∃ merged,
    Json.merge d.session.settings (Settings.modeUpdate mode.flip) = .ok merged ∧
    Settings.proofMode merged = .ok mode.flip ∧
    (toggleMode carrier).run.run d =
      match (updateSettings carrier (Settings.modeUpdate mode.flip)).run.run d with
      | (.ok (), d) => (.ok mode.flip, d)
      | (.error cause, d) => (.error cause, d)

theorem tunable (hcursor : ∀ b ∈ d.buffers, b.cursor.IsWhole) : Tunable carrier d := by
  have hcursor (n : Nat) : (d.bufferAt n).cursor.IsWhole := by
    unfold bufferAt
    cases hb : d.buffers[n]? with
    | none => exact ⟨rfl, rfl⟩
    | some b => exact hcursor b (List.mem_of_getElem? hb)
  constructor
  case unread =>
    intro cause hmode
    refine ⟨fun update => ?_, ?_⟩
    · rw [run_updateSettings, hmode]
    · rw [run_toggleMode, hmode]
  case refused =>
    intro previous update cause hmode hmerge
    simp only [run_updateSettings, hmode, hmerge]
  case laid =>
    intro previous update merged hmode hmerge
    simp only [run_updateSettings, hmode, hmerge]
    exact relinked_push carrier previous merged (d.withSettings merged)
  case unsent =>
    intro previous update merged cause hmode hmerge hsend
    simp only [run_updateSettings, hmode, hmerge]
    exact push_unsent hsend
  case lives =>
    intro previous update merged P hmode hmerge lives hlink
    simp only [run_updateSettings, hmode, hmerge]
    exact push_lives (d := d.withSettings merged) lives hlink hcursor previous
  case toggled =>
    intro mode hmode
    obtain ⟨merged, hmerged, hread⟩ := Settings.merge_modeUpdate hmode mode.flip
    refine ⟨merged, hmerged, hread, ?_⟩
    rw [run_toggleMode, hmode]

/-! ## After every run -/

/-- A session whose mode can be read, after every run of updates and toggles, with the server up or down in between.
The settings hold whatever could be laid over them, also by updates that failed; the mode can still be read exactly if
no update laid one over them that cannot be; and so each further update ends. -/
theorem settings_follow (carrier : Carrier L) (hread : Settings.IsReadable d.session.settings)
    (hcursor : ∀ b ∈ d.buffers, b.cursor.IsWhole) (es : List (Event L)) (hes : ∀ e ∈ es, e.Tunes) :
    let d' := d.follow carrier es
    d'.session = { d.session with settings := es.foldl Event.tune d.session.settings } ∧ d'.buffers = d.buffers ∧
    (Settings.IsReadable d'.session.settings ↔
      ∀ fs update gs merged, es = fs ++ .updateSettings update :: gs →
        Json.merge (d.follow carrier fs).session.settings update = .ok merged → Settings.IsReadable merged) ∧
    Tunable carrier d' := by
  obtain ⟨link, hrun⟩ := settings_run carrier d es hes
  intro d'
  have hsettings (fs : List (Event L)) (hfs : ∀ e ∈ fs, e.Tunes) :
      (d.follow carrier fs).session.settings = fs.foldl Event.tune d.session.settings := by
    obtain ⟨link, hrun⟩ := settings_run carrier d fs hfs
    rw [hrun]
    rfl
  refine ⟨by rw [show d' = _ from hrun]; rfl, by rw [show d' = _ from hrun]; rfl, ?_, ?_⟩
  · rw [hsettings es hes, Event.isReadable_foldl hread es hes]
    have hfs {fs gs : List (Event L)} {update : Json} (hsplit : es = fs ++ .updateSettings update :: gs) :
        ∀ e ∈ fs, e.Tunes := fun e he => hes e (by rw [hsplit]; exact List.mem_append_left _ he)
    constructor
    · intro hall fs update gs merged hsplit hm
      rw [hsettings fs (hfs hsplit)] at hm
      exact hall fs update gs merged hsplit hm
    · intro hall fs update gs merged hsplit hm
      rw [← hsettings fs (hfs hsplit)] at hm
      exact hall fs update gs merged hsplit hm
  · refine tunable fun b hb => ?_
    rw [show d' = _ from hrun] at hb
    exact hcursor b hb

/-- A wire that is up lives. -/
example : wire.Lives (· = true) := by
  refine ⟨fun method params link hlink => ⟨true, ?_, rfl⟩, fun link _ => ⟨.utf16, rfl⟩⟩
  rw [hlink]
  rfl

/-- Settings by which a session starts in manual mode. -/
def manual : Json := .object [("proof", .object [("mode", .int 0)])]

/-- An update by a number that is no mode fails with the settings changed and sent. From then on the mode cannot be
read, and an update by a good one fails. -/
theorem settings_follow_seven : ∃ s : Session, Session.create manual "ns" = .ok s ∧
    let d : Desk Bool := ⟨s, [.ofText "a" "Check nat." Buffer.defaultLanguage], true⟩
    let seven : Json := .object [("proof", .object [("mode", .int 7)])]
    let d' := d.follow wire [.toggleMode, .toggleMode, .updateSettings seven]
    ((updateSettings wire seven).run.run d).1 = .error (.unknownMode 7) ∧
      Settings.proofMode d'.session.settings = .error (.unknownMode 7) ∧
      (updateSettings wire manual).run.run d' = (.error (.unknownMode 7), d') := by
  obtain ⟨s, created⟩ : ∃ s, Session.create manual "ns" = .ok s := ⟨_, rfl⟩
  refine ⟨s, created, ?_⟩
  intro d seven d'
  have hread : Settings.IsReadable d.session.settings := by
    cases created
    exact ⟨.manual, rfl⟩
  have hcursor : ∀ b ∈ d.buffers, b.cursor.IsWhole := by
    intro b hb
    rw [List.mem_singleton.mp hb]
    exact ⟨rfl, rfl⟩
  have hmode : Settings.proofMode d'.session.settings = .error (.unknownMode 7) := by
    cases created
    rfl
  have hrun := settings_follow wire hread hcursor [.toggleMode, .toggleMode, .updateSettings seven]
    (by simp [Event.Tunes])
  refine ⟨?_, hmode, (hrun.2.2.2.unread _ hmode).1 manual⟩
  cases created
  rfl

/-! ## An update made again -/

/-- Values that change nothing when they are laid over the settings once more do not by an update made again, whether
their mode can be read or not. -/
theorem Event.tune_tune {settings update merged : Json} (h : Json.merge settings update = .ok merged)
    (hagain : Json.merge merged update = .ok merged) :
    Event.tune (Event.tune settings (.updateSettings (L := L) update)) (.updateSettings (L := L) update) =
      Event.tune settings (.updateSettings (L := L) update) := by
  have htune : ∀ {old : Json}, Json.merge old update = .ok merged →
      Event.tune old (.updateSettings (L := L) update) = old ∨
        Event.tune old (.updateSettings (L := L) update) = merged := by
    intro old hold
    unfold Event.tune
    cases Settings.proofMode old with
    | error cause => exact .inl rfl
    | ok mode =>
      simp only [Event.patch?, Option.bind_some, hold]
      exact .inr rfl
  rcases htune h with hsame | hmerged
  · rw [hsame, hsame]
  · rw [hmerged]
    exact (htune hagain).elim id id

/-- An object laid over another: what is in it and in which order, and that laying the same object over it once more,
or an object over itself, changes nothing. So a session has the same settings after an update as after the same update
made again. -/
theorem settings_merge {base patch : List (String × Json)} (hbase : (Json.object base).Distinct)
    (hpatch : (Json.object patch).Distinct) :
    ∃ merged, Json.merge (.object base) (.object patch) = .ok merged ∧
      Json.Merges (.object base) (.object patch) merged ∧
      Json.merge (.object base) (.object base) = .ok (.object base) ∧
      Json.merge merged (.object patch) = .ok merged ∧
      ∀ (L : Type) (carrier : Carrier L) (d : Desk L), d.session.settings = .object base →
        let once := ((updateSettings carrier (.object patch)).run.run d).2
        ((updateSettings carrier (.object patch)).run.run once).2.session.settings = once.session.settings := by
  have hmerge (old : List (String × Json)) (v : List (String × Json)) :
      Json.merge (.object old) (.object v) = .ok (Json.mergeValue (some (.object old)) (.object v)) := by
    rw [Json.merge, Json.mergeValue]
  have hagain : Json.merge (Json.mergeValue (some (.object base)) (.object patch)) (.object patch) =
      .ok (Json.mergeValue (some (.object base)) (.object patch)) := by
    have hidempotent := Json.mergeValue_mergeValue hpatch (some (.object base))
    rw [Json.mergeValue] at hidempotent ⊢
    rw [hmerge, hidempotent]
  refine ⟨_, hmerge base patch, Json.merges_mergeValue hbase hpatch, ?_, hagain, ?_⟩
  · rw [hmerge, Json.mergeValue_self hbase]
  · intro L carrier d hsettings once
    have hafter (d : Desk L) : ((updateSettings carrier (.object patch)).run.run d).2.session.settings =
        Event.tune d.session.settings (.updateSettings (L := L) (.object patch)) := by
      obtain ⟨link, hrun⟩ := settings_after carrier d (e := .updateSettings (.object patch)) trivial
      exact congrArg (·.session.settings) hrun
    rw [hafter once, hafter d, hsettings]
    exact Event.tune_tune (hmerge base patch) hagain

/-- A sticky cursor is hidden by a truth value in the place of its object; new keys come last. -/
theorem settings_merge_hidden :
    let base := [("proof", Json.object [("mode", .int 0), ("cursor", .object [("sticky", .bool true)])])]
    let patch := [("diagnostics", Json.null), ("proof", .object [("workers", .int 2), ("cursor", .bool false)])]
    let merged := Json.object [("proof", .object [("mode", .int 0), ("cursor", .bool false), ("workers", .int 2)]),
      ("diagnostics", .null)]
    Json.merge (.object base) (.object patch) = .ok merged ∧ Json.Merges (.object base) (.object patch) merged ∧
      Json.merge merged (.object patch) = .ok merged := by
  intro base patch merged
  have hnull : Json.null.Distinct := .leaf (by rintro ⟨_, ⟨⟩⟩)
  have hbool (b : Bool) : (Json.bool b).Distinct := .leaf (by rintro ⟨_, ⟨⟩⟩)
  have hint (n : Int) : (Json.int n).Distinct := .leaf (by rintro ⟨_, ⟨⟩⟩)
  have hbase : (Json.object base).Distinct := by
    refine .branch (by decide) (List.forall_mem_singleton.mpr (.branch (by decide) ?_))
    refine List.forall_mem_cons.mpr ⟨hint 0, List.forall_mem_singleton.mpr (.branch (by decide) ?_)⟩
    exact List.forall_mem_singleton.mpr (hbool true)
  have hpatch : (Json.object patch).Distinct := by
    refine .branch (by decide) (List.forall_mem_cons.mpr ⟨hnull, List.forall_mem_singleton.mpr ?_⟩)
    exact .branch (by decide) (List.forall_mem_cons.mpr ⟨hint 2, List.forall_mem_singleton.mpr (hbool false)⟩)
  obtain ⟨m, hm, hmerges, -, hagain, -⟩ := settings_merge hbase hpatch
  obtain rfl : merged = m := Except.ok.inj (Eq.trans rfl hm)
  exact ⟨rfl, hmerges, hagain⟩

end Desk
end CoqConsole
