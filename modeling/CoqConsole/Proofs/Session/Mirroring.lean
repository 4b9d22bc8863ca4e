import CoqConsole.Proofs.Console.Sanity
import CoqConsole.Proofs.Session.Aloof
import CoqConsole.Proofs.Session.Tuning

/-!
# The server's copy of the settings

A server knows of settings what it was told: all of them as it was greeted, and all of them again on each change.

* `settingsOf?`, `Wired.lastSettings?` : the settings that a message brings, and those that the server received last;
* `Wired.GoesOn` : what else happens on a line with the same server; `GoesOn.read` : such as a message that comes;
* `Desk.Mirrors` : the server has the settings of the session, as long as it runs; `lastSettings?_start` : so it has when
  it was started;
* `mirrors_undergo`, `mirrors_live` : every operation keeps it so, and every run;
* `Desk.Tells` : what an update of the settings sends; `settings_mirrored` : after every run.
-/

namespace CoqConsole

/-! ## What a server was told -/

def settingsOf? (message : Json) : Option Json :=
  match message.get? "method", message.get? "params" with
  | some (.text method), some params =>
    if method = Line.greetingMethod then params.get? "initializationOptions"
    else if method = "workspace/didChangeConfiguration" then params.get? "settings"
    else none
  | _, _ => none

theorem settingsOf?_notification {method : String} (h : method ∉ settingsMethods) (params : Json) :
    settingsOf? (Line.notification (.text method) params) = none := by
  simp only [settingsMethods, List.mem_cons, List.not_mem_nil, or_false, not_or] at h
  show (if method = Line.greetingMethod then _ else _) = none
  rw [if_neg h.1, if_neg h.2]

def changeOf (settings : Json) : Json :=
  Line.notification (.text "workspace/didChangeConfiguration") (.object [("settings", settings)])

theorem settingsOf?_changeOf (settings : Json) : settingsOf? (changeOf settings) = some settings := rfl

namespace Wired

variable {w w' w'' : Wired}

def settingsAt? (wire : List (Nat × Json)) (p : Nat) : Option Json :=
  (wire.filterMap fun m => if m.1 = p then settingsOf? m.2 else none).getLast?

def lastSettings? (w : Wired) : Option Json := w.line.process.bind (settingsAt? w.host.wire)

theorem settingsAt?_snoc (wire : List (Nat × Json)) (p : Nat) (message : Json) :
    settingsAt? (wire ++ [(p, message)]) p = (settingsOf? message).or (settingsAt? wire p) := by
  unfold settingsAt?
  rw [List.filterMap_append]
  cases h : settingsOf? message <;> simp [h]

/-- What is said between others, and brings no settings, leaves them as they were. -/
theorem settingsAt?_append (wire : List (Nat × Json)) {more : List (Nat × Json)} (h : ∀ m ∈ more, settingsOf? m.2 = none)
    (p : Nat) : settingsAt? (wire ++ more) p = settingsAt? wire p := by
  have hnone : (more.filterMap fun m => if m.1 = p then settingsOf? m.2 else none) = [] := by
    rw [List.filterMap_eq_nil_iff]
    intro m hm
    rw [h m hm, ite_self]
  rw [settingsAt?, List.filterMap_append, hnone, List.append_nil]
  rfl

/-- What else happens on a line with the same server: whatever is said to it brings no settings. -/
structure GoesOn (w w' : Wired) : Prop extends w.Abides w' where
  counts : w.Counts → w'.Counts
  wire : ∃ more, w'.host.wire = w.host.wire ++ more ∧ ∀ m ∈ more, settingsOf? m.2 = none

theorem GoesOn.lastSettings? (h : w.GoesOn w') : w'.lastSettings? = w.lastSettings? := by
  obtain ⟨more, hwire, hmore⟩ := h.wire
  unfold Wired.lastSettings?
  rw [h.process, hwire]
  cases w.line.process with
  | none => rfl
  | some p => exact settingsAt?_append _ hmore p

namespace GoesOn

/-- Messages come, and requests of the server are answered. -/
theorem read {handles : String → Bool} {handed : Option (String × Json)} (h : w.read handles = some (w', handed)) :
    w.GoesOn w' := by
  refine ⟨.read h, fun hcounts => hcounts.read h, ?_⟩
  have hsame {v : Wired} (hv : v.host.wire = w.host.wire) :
      ∃ more, v.host.wire = w.host.wire ++ more ∧ ∀ m ∈ more, settingsOf? m.2 = none :=
    ⟨[], by rw [hv, List.append_nil], List.forall_mem_nil _⟩
  rcases read_ends_or_heeds h with ⟨v, r, rfl | ⟨p, rest, rfl⟩, rfl⟩ | ⟨p, message, rest, hheeds⟩
  · exact hsame (wire_endReading _ _)
  · exact hsame (wire_endReading _ _)
  · cases hheeds with
    | request _ _ hanswer _ =>
      refine ⟨_, rfl, List.forall_mem_singleton.mpr ?_⟩
      rcases Line.key_answerFor hanswer with rfl | rfl <;> rfl
    | _ => exact hsame rfl

end GoesOn
end Wired

/-! ## The settings of a session and of its server -/

namespace Desk

variable {d : Desk Wired} {p : Nat}

/-- The server has the settings of the session, as long as it runs. -/
structure Mirrors (d : Desk Wired) : Prop where
  sound : d.Sound lineCarrier
  mirror : d.link.isRunning = true → d.link.lastSettings? = some d.session.settings

/-- Those settings, and a server that has them. -/
def Mirrored (settings : Json) (d : Desk Wired) : Prop :=
  d.session.settings = settings ∧ (d.link.isRunning = true → d.link.lastSettings? = some settings)

theorem lastSettings?_deliver {w : Wired} (hp : w.running? = some p) (message : Json) :
    ({ w with host := w.host.deliver p message } : Wired).lastSettings? =
      (settingsOf? message).or w.lastSettings? := by
  have hprocess := Wired.process_of_running hp
  unfold Wired.lastSettings?
  rw [hprocess]
  exact Wired.settingsAt?_snoc w.host.wire p message

theorem onSettings_mirrored (settings : Json) : OnSettings lineCarrier (Mirrored settings) where
  send {d method params link} hd hmethod hsend := by
    rw [lineCarrier_send] at hsend
    cases hp : d.link.running? with
    | none =>
      rw [hp] at hsend
      cases hsend
    | some p =>
      rw [hp] at hsend
      cases hsend
      refine ⟨hd.1, fun _ => ?_⟩
      rw [lastSettings?_deliver hp, settingsOf?_notification hmethod]
      exact hd.2 (Option.isSome_iff_exists.mpr ⟨p, hp⟩)
  session _ _ hd := hd
  serve _ hd := hd
  buffers _ hd := hd
  shows hd hs := ⟨hs.trans hd.1, hd.2⟩

/-! ### What an update sends -/

/-- The buffer that is checked after an update: on the way from manual to continuous mode it is the active one. -/
def checked? {L : Type} (d : Desk L) (previous : ProofMode) : Option Nat :=
  match previous, Settings.proofMode d.session.settings with
  | .manual, .ok .continuous => d.active?
  | _, _ => none

theorem run_push {L : Type} (carrier : Carrier L) (previous : ProofMode) (settings : Json) (d : Desk L) :
    (push carrier previous settings).run.run d =
      match (send carrier "workspace/didChangeConfiguration" (.object [("settings", settings)])).run.run d with
      | (.ok (), d) =>
        match d.checked? previous with
        | some n => (interpretTo carrier n .cursor).run.run d
        | none => (reading previous d.session.settings, d)
      | (.error cause, d) => (.error cause, d) := by
  unfold push
  rw [run_bind]
  rcases (send carrier "workspace/didChangeConfiguration" (.object [("settings", settings)])).run.run d with ⟨_ | _, d⟩
  · rfl
  cases previous with
  | continuous => rfl
  | manual =>
    simp only [run_ite, if_true, run_bind, run_proofMode, run_get, checked?, reading]
    rcases Settings.proofMode d.session.settings with cause | (_ | _)
    · rfl
    · rfl
    · simp only [if_true]
      cases d.active? <;> rfl

theorem reading_of_checked {L : Type} {d : Desk L} {previous : ProofMode} {n : Nat} (h : d.checked? previous = some n) :
    reading previous d.session.settings = .ok () := by
  unfold checked? at h
  unfold reading
  split at h
  · next hmode => rw [hmode]; rfl
  · cases h

/-- What asks for a check of a buffer up to a place. -/
def checkOf (b : Buffer Reaction Mark) (place : Json) : Json :=
  Line.notification (.text "vscoq/interpretToPoint") (.object [("textDocument", versioned b), ("position", place)])

/-- The place of a buffer's cursor, as the server is told. -/
def cursorPlace (d : Desk Wired) (n : Nat) : Except Failure Json :=
  Place.cursor.toWire (d.bufferAt n).lines (d.bufferAt n).cursor (lineCarrier.named d.link)

/-- What is written to a process is the settings, and then the check of the buffer that is to be checked, if there is
one. -/
inductive Announces (d : Desk Wired) (previous : ProofMode) : List Json → Prop
  | alone (hnone : d.checked? previous = none) : Announces d previous [changeOf d.session.settings]
  | checking {n : Nat} {place : Json} (hsome : d.checked? previous = some n) (hplace : d.cursorPlace n = .ok place) :
    Announces d previous [changeOf d.session.settings, checkOf (d.bufferAt n) place]

/-- The desk after a message was written to a process. -/
def written (d : Desk Wired) (p : Nat) (message : Json) : Desk Wired :=
  { d with link := { d.link with host := d.link.host.deliver p message } }

theorem run_send_running (hp : d.link.running? = some p) (method : String) (params : Json) :
    (send lineCarrier method params).run.run d =
      (.ok (), d.written p (Line.notification (.text method) params)) := by
  rw [run_send, lineCarrier_send, hp]
  rfl

theorem run_interpretTo_written {n : Nat} {place : Json} (hplace : d.cursorPlace n = .ok place) (message : Json) :
    (interpretTo lineCarrier n .cursor).run.run (d.written p message) =
      (send lineCarrier "vscoq/interpretToPoint"
        (.object [("textDocument", versioned (d.bufferAt n)), ("position", place)])).run.run (d.written p message) := by
  have hsame : Place.cursor.toWire ((d.written p message).bufferAt n).lines ((d.written p message).bufferAt n).cursor
      (lineCarrier.named (d.written p message).link) = .ok place := hplace
  rw [run_interpretTo, hsame]
  rfl

theorem run_send_dead (hp : d.link.running? = none) (method : String) (params : Json) :
    (send lineCarrier method params).run.run d = (.error .notRunning, d) := by
  rw [run_send, lineCarrier_send, hp]

theorem not_isRunning (hp : d.link.running? = none) : ¬ d.link.isRunning = true := by
  rw [Wired.isRunning, hp]
  exact Bool.false_ne_true

theorem run_push_running (hp : d.link.running? = some p) (previous : ProofMode) :
    (push lineCarrier previous d.session.settings).run.run d =
      let d₁ := d.written p (changeOf d.session.settings)
      match d.checked? previous with
      | some n => (interpretTo lineCarrier n .cursor).run.run d₁
      | none => (reading previous d.session.settings, d₁) := by
  rw [run_push, run_send_running hp]
  rfl

/-- On a server that goes on running, an update is announced. It fails only if the mode was manual and cannot be read any
more. -/
theorem push_announces (h : d.Sound lineCarrier) {previous : ProofMode}
    (hrunning : ((push lineCarrier previous d.session.settings).run.run d).2.link.isRunning = true) :
    ((push lineCarrier previous d.session.settings).run.run d).1 = reading previous d.session.settings ∧
      ∃ p messages, d.link.line.process = some p ∧ d.Announces previous messages ∧
        ((push lineCarrier previous d.session.settings).run.run d).2.link.host.wire =
          d.link.host.wire ++ messages.map (p, ·) := by
  cases hp : d.link.running? with
  | none =>
    rw [run_push, run_send_dead hp] at hrunning
    exact absurd hrunning (not_isRunning hp)
  | some p =>
    have hprocess := Wired.process_of_running hp
    rw [run_push_running hp] at hrunning ⊢
    let d₁ := d.written p (changeOf d.session.settings)
    cases hchecked : d.checked? previous with
    | none => exact ⟨rfl, p, _, hprocess, .alone hchecked, rfl⟩
    | some n =>
      obtain ⟨place, hplace⟩ : ∃ place, d.cursorPlace n = .ok place := h.exists_toWire n .cursor
      simp only [hchecked, run_interpretTo_written hplace] at hrunning ⊢
      cases hp₁ : d₁.link.running? with
      | none =>
        rw [run_send_dead hp₁] at hrunning
        exact absurd hrunning (not_isRunning hp₁)
      | some p₁ =>
        obtain rfl : p₁ = p := Option.some.inj ((Wired.process_of_running hp₁).symm.trans hprocess)
        rw [run_send_running hp₁]
        refine ⟨(reading_of_checked hchecked).symm, p₁, _, hprocess, .checking hchecked hplace, ?_⟩
        exact List.append_assoc _ _ _

/-! ### What keeps the copy -/

theorem Mirrors.of_mirrored {settings : Json} (hsound : d.Sound lineCarrier) (h : Mirrored settings d) : d.Mirrors :=
  ⟨hsound, fun hrunning => h.1 ▸ h.2 hrunning⟩

theorem Mirrors.mirrored (h : d.Mirrors) : Mirrored d.session.settings d := ⟨rfl, h.mirror⟩

/-- Values that are laid over the settings are sent, or the server does not run. -/
theorem mirrored_push (previous : ProofMode) (d : Desk Wired) :
    Mirrored d.session.settings ((push lineCarrier previous d.session.settings).run.run d).2 := by
  cases hp : d.link.running? with
  | none =>
    rw [run_push, run_send_dead hp]
    exact ⟨rfl, fun hrunning => absurd hrunning (not_isRunning hp)⟩
  | some p =>
    have hwritten : Mirrored d.session.settings (d.written p (changeOf d.session.settings)) := by
      refine ⟨rfl, fun _ => ?_⟩
      rw [written, lastSettings?_deliver hp, settingsOf?_changeOf]
      rfl
    rw [run_push_running hp]
    cases d.checked? previous with
    | none => exact hwritten
    | some n => exact (onSettings_mirrored _).interpretTo n .cursor _ hwritten

theorem exists_mirrored_update (h : d.Mirrors) (update : Json) :
    ∃ settings, Mirrored settings ((updateSettings lineCarrier update).run.run d).2 := by
  rw [run_updateSettings]
  cases Settings.proofMode d.session.settings with
  | error cause => exact ⟨_, h.mirrored⟩
  | ok previous =>
    cases Json.merge d.session.settings update with
    | error cause => exact ⟨_, h.mirrored⟩
    | ok merged => exact ⟨merged, mirrored_push previous (d.withSettings merged)⟩

theorem exists_mirrored_toggle (h : d.Mirrors) : ∃ settings, Mirrored settings ((toggleMode lineCarrier).run.run d).2 := by
  rw [run_toggleMode]
  cases Settings.proofMode d.session.settings with
  | error cause => exact ⟨_, h.mirrored⟩
  | ok mode =>
    obtain ⟨settings, hupdate⟩ := exists_mirrored_update h (Settings.modeUpdate mode.flip)
    refine ⟨settings, ?_⟩
    simp only
    generalize (updateSettings lineCarrier (Settings.modeUpdate mode.flip)).run.run d = out at hupdate
    rcases out with ⟨_ | _, d'⟩ <;> exact hupdate

/-! ## Runs -/

def Affair.IsWhole {L : Type} : Affair L → Prop
  | .befall (.moveCursor _ p) => p.IsWhole
  | _ => True

/-- An affair that can befall a session with so many buffers and such a line: it names one of the buffers, and what
happens on the line leaves the server there. -/
structure Affair.Fits (a : Affair Wired) (count : Nat) (w : Wired) : Prop where
  named : ∀ n, a.buffer? = some n → n < count
  whole : a.IsWhole
  goesOn : ∀ w', a = .befall (.relink w') → w.GoesOn w'

theorem sound_undergo (h : d.Sound lineCarrier) {a : Affair Wired} (ha : a.Fits d.buffers.length d.link) :
    (d.undergo lineCarrier a).Sound lineCarrier ∧ (d.undergo lineCarrier a).buffers.length = d.buffers.length := by
  have u := (Sound.upkeep steady_lineCarrier).sized d.buffers.length
  have hn := ha.named
  have hold (n : Nat) (d : Desk Wired) (hd : d.Sound lineCarrier) (hlt : n < d.buffers.length)
      (hout : (d.bufferAt n).uri ∉ Keyed.keys d.session.attachments) : (d.holding n).Sound lineCarrier := hd.holding hlt hout
  have both : d.Sound lineCarrier ∧ d.buffers.length = d.buffers.length := ⟨h, rfl⟩
  cases a with
  | befall e =>
    cases e with
    | attach n => exact (Sound.upkeep steady_lineCarrier).attach (hn n rfl) (hold n) d both
    | detach n => exact u.detach trivial d both
    | adopt n => exact (Sound.upkeep steady_lineCarrier).adopt (hn n rfl) (hold n) d both
    | release n => exact u.releasing trivial d both
    | shutdown => exact u.shutdown d both
    | closeBuffer n => exact u.closeBuffer trivial d both
    | moveCursor n p => exact u.moveCursor trivial ha.whole d both
    | replaceText n text => exact u.replaceText trivial text d both
    | updateSettings update => exact u.conduct.updateSettings update d both
    | toggleMode => exact u.conduct.toggleMode d both
    | hear params signal => exact u.conduct.hear params signal d both
    | relink w => exact ⟨⟨h.bound.of_eq rfl rfl rfl, h.whole, (ha.goesOn w rfl).counts h.counted⟩, rfl⟩
  | interpret n p => exact (u.speech fun _ => True).interpretTo trivial p d both
  | step n direction => exact (u.speech fun _ => True).step trivial direction d both
  | ask n timeout request => exact u.asking n timeout request d both
  | finish q answer => exact u.note.finish q answer d both

theorem method_begin {n : Nat} {timeout : Json} {r : Request} {q : Query}
    (h : ((begin lineCarrier n timeout r).run.run d).1 = .ok q) : q.method ∉ settingsMethods := by
  have hmethods : ∀ method ∈ "vscoq/search" :: "vscoq/resetCoq" :: questionKinds.map (fun k => "vscoq/" ++ (Json.text k).shown),
      method ∉ settingsMethods := by decide
  refine hmethods _ ?_
  cases r with
  | search pattern p =>
    simp only [begin, beginSearch, run_bind] at h
    generalize (issue searchChannel).run.run d = out at h
    obtain ⟨cause | ticket, d'⟩ := out
    · cases h
    · obtain ⟨place, hplace⟩ := run_wirePlace lineCarrier d' n p
      simp only [hplace] at h
      cases place <;> cases h
      exact List.mem_cons_self
  | question kind pattern p =>
    by_cases hk : isQuestion kind = true
    · simp only [begin, beginQuestion, run_bind, run_pure, if_pos hk] at h
      generalize (issue questionChannel).run.run d = out at h
      obtain ⟨cause | ticket, d'⟩ := out
      · cases h
      · obtain ⟨place, hplace⟩ := run_wirePlace lineCarrier d' n p
        simp only [hplace] at h
        cases place <;> cases h
        obtain ⟨k, hmem, rfl⟩ := exists_of_isQuestion hk
        exact List.mem_cons_of_mem _ (List.mem_cons_of_mem _ (List.mem_map.mpr ⟨k, hmem, rfl⟩))
    · simp only [begin, beginQuestion, run_bind, run_throw, if_neg hk] at h
      cases h
  | reset =>
    cases h
    exact List.mem_cons_of_mem _ List.mem_cons_self

theorem OnSettings.asking {I : Desk Wired → Prop} (o : OnSettings lineCarrier I) (n : Nat) (timeout : Json)
    (request : Request) : Ensures I (ask lineCarrier n timeout request) fun _ => I := by
  intro d hd
  have hbegun := o.begin n timeout request d hd
  have hmethod (q : Query) (hq : ((begin lineCarrier n timeout request).run.run d).1 = .ok q) := method_begin hq
  unfold ask
  rw [run_bind]
  generalize (begin lineCarrier n timeout request).run.run d = out at hbegun hmethod
  obtain ⟨cause | q, d'⟩ := out
  · exact hbegun
  · simp only [run_bind, run_get]
    cases hlink : lineCarrier.send q.method q.params d'.link with
    | ok link => exact o.send hbegun (hmethod q rfl) hlink
    | error cause =>
      have hfinish : Ensures I (Desk.finish q (.error cause) >>= fun _ => pure ()) fun _ => I :=
        .step (o.finish q _) (fun _ => .pure fun _ hd => hd) fun _ _ h => h
      exact hfinish d' hbegun

theorem exists_mirrored_undergo (h : d.Mirrors) {a : Affair Wired} (ha : a.Fits d.buffers.length d.link) :
    ∃ settings, Mirrored settings (d.undergo lineCarrier a) := by
  have o := onSettings_mirrored d.session.settings
  have hd := h.mirrored
  cases a with
  | befall e =>
    cases e with
    | attach n => exact ⟨_, o.attach n d hd⟩
    | detach n => exact ⟨_, o.detach n d hd⟩
    | adopt n => exact ⟨_, o.adopt n d hd⟩
    | release n => exact ⟨_, o.release n d hd⟩
    | shutdown => exact ⟨_, o.shutdown d hd⟩
    | closeBuffer n => exact ⟨_, o.closeBuffer n d hd⟩
    | moveCursor n p => exact ⟨_, o.moveCursor n p d hd⟩
    | replaceText n text => exact ⟨_, o.replaceText n text d hd⟩
    | updateSettings update => exact exists_mirrored_update h update
    | toggleMode => exact exists_mirrored_toggle h
    | hear params signal => exact ⟨_, o.hear params signal d hd⟩
    | relink w =>
      have hgoes := ha.goesOn w rfl
      exact ⟨_, rfl, fun hrunning => hgoes.lastSettings?.trans (h.mirror (hgoes.isRunning hrunning))⟩
  | interpret n p => exact ⟨_, o.interpretTo n p d hd⟩
  | step n direction => exact ⟨_, o.step n direction d hd⟩
  | ask n timeout request => exact ⟨_, o.asking n timeout request d hd⟩
  | finish q answer => exact ⟨_, o.finish q answer d hd⟩

theorem mirrors_undergo (h : d.Mirrors) {a : Affair Wired} (ha : a.Fits d.buffers.length d.link) :
    (d.undergo lineCarrier a).Mirrors := by
  obtain ⟨settings, hmirrored⟩ := exists_mirrored_undergo h ha
  exact .of_mirrored (sound_undergo h.sound ha).1 hmirrored

/-- Each affair of a run can befall the session then. -/
def Fits (d : Desk Wired) (as : List (Affair Wired)) : Prop :=
  ∀ before a after, as = before ++ a :: after → a.Fits d.buffers.length (d.live lineCarrier before).link

theorem mirrors_live (h : d.Mirrors) {as : List (Affair Wired)} (has : d.Fits as) : (d.live lineCarrier as).Mirrors := by
  induction as generalizing d with
  | nil => exact h
  | cons a as ih =>
    have ha := has [] a as rfl
    refine ih (mirrors_undergo h ha) fun before a' after hsplit => ?_
    rw [(sound_undergo h.sound ha).2]
    exact has (a :: before) a' after (by rw [hsplit]; rfl)

/-! ### The start -/

theorem eq_of_transmit (id : Nat) (method params timeout : Json) {w : Wired} {wait : Wait}
    (h : ((Line.transmit id method params timeout).run.run w).1 = .ok wait) :
    ∃ p, w.running? = some p ∧ ((Line.transmit id method params timeout).run.run w).2 =
      { w with host := w.host.deliver p (Line.request id method params) } := by
  have htransmits := Line.transmits id method params timeout w
  generalize (Line.transmit id method params timeout).run.run w = out at h htransmits
  obtain ⟨r, w'⟩ := out
  cases htransmits with
  | silent | broken | unlimited => cases h
  | held hp hhost | asked hp hhost => exact ⟨_, hp, by rw [hhost]⟩

/-- A server that was started was told the settings with which it was. -/
theorem lastSettings?_start {settings timeout : Json} {brief : Bool} {w w' : Wired} {standing : Standing}
    (idle : w.isRunning = false) (hsettings : settings.truthy = true)
    (started : (Line.start settings timeout brief).run.run w = (.ok standing, w')) : w'.lastSettings? = some settings := by
  simp only [Line.start, run_bind, run_get, idle, Bool.false_eq_true, if_false] at started
  generalize Line.spawn.run.run w = spawned at started
  obtain ⟨cause | u, w₁⟩ := spawned
  · cases started
  simp only [Line.run_post] at started
  have htransmit (wait : Wait) (hwait : ((Line.transmit w₁.line.nextId (.text Line.greetingMethod)
      (Line.greetingParams w₁ settings) timeout).run.run (Line.issued w₁)).1 = .ok wait) := eq_of_transmit _ _ _ _ hwait
  generalize (Line.transmit w₁.line.nextId (.text Line.greetingMethod) (Line.greetingParams w₁ settings) timeout).run.run
    (Line.issued w₁) = out at started htransmit
  obtain ⟨cause | wait, w₂⟩ := out
  · cases started
  obtain ⟨p, hp, rfl⟩ := htransmit wait rfl
  cases started
  have hgreeting : settingsOf? (Line.request w₁.line.nextId (.text Line.greetingMethod) (Line.greetingParams w₁ settings)) =
      some (if settings.truthy then settings else .object []) := rfl
  rw [lastSettings?_deliver hp, hgreeting, if_pos hsettings]
  rfl

end Desk

/-! ## Fresh settings -/

theorem Json.mergeMembers_ne_nil (patch : List (String × Json)) {base : List (String × Json)} (h : base ≠ []) :
    mergeMembers base patch ≠ [] := by
  induction patch generalizing base with
  | nil => exact h
  | cons entry patch ih =>
    obtain ⟨k, v⟩ := entry
    rw [mergeMembers]
    refine ih ?_
    cases base with
    | nil => exact absurd rfl h
    | cons entry base =>
      rw [Keyed.put]
      split <;> exact List.cons_ne_nil _ _

theorem Session.truthy_create {overrides : Json} {ns : String} {s : Session} (created : Session.create overrides ns = .ok s) :
    s.settings.truthy = true := by
  unfold Session.create at created
  cases hmake : Settings.make overrides with
  | error cause =>
    rw [hmake] at created
    cases created
  | ok settings =>
    rw [hmake] at created
    cases created
    obtain ⟨base, hbase, hdefaults⟩ : ∃ base, base ≠ [] ∧ Settings.defaults = .object base := ⟨_, List.cons_ne_nil _ _, rfl⟩
    unfold Settings.make at hmake
    cases hvalue : (if overrides.truthy = true then overrides else .object []) with
    | object patch =>
      rw [hvalue, hdefaults] at hmake
      cases hmake
      show (!(Json.mergeMembers base patch).isEmpty) = true
      rw [List.isEmpty_eq_false_iff.mpr (Json.mergeMembers_ne_nil patch hbase)]
      rfl
    | _ =>
      rw [hvalue] at hmake
      cases hmake

namespace Desk

variable {d : Desk Wired}

/-! ## After every run -/

/-- What updates of the settings do and send in a state of a session. -/
structure Tells (d : Desk Wired) : Prop where
  /-- Where the mode cannot be read, all of them fail for that, and nothing is changed or sent. -/
  unread : ∀ cause, Settings.proofMode d.session.settings = .error cause →
    (∀ update, (updateSettings lineCarrier update).run.run d = (.error cause, d)) ∧
      (toggleMode lineCarrier).run.run d = (.error cause, d)
  /-- Values that cannot be laid over the settings are refused, and nothing is changed or sent. -/
  refused : ∀ previous update cause, Settings.proofMode d.session.settings = .ok previous →
    Json.merge d.session.settings update = .error cause → (updateSettings lineCarrier update).run.run d = (.error cause, d)
  /-- On a server that goes on running, all others are announced, and that is all that is written. They succeed if the
  new mode can be read. -/
  told : ∀ previous update merged, Settings.proofMode d.session.settings = .ok previous →
    Json.merge d.session.settings update = .ok merged →
    let out := (updateSettings lineCarrier update).run.run d
    out.2.link.isRunning = true → out.2.session = { d.session with settings := merged } ∧ out.2.buffers = d.buffers ∧
      (Settings.IsReadable merged → out.1 = .ok ()) ∧
      ∃ p messages, d.link.line.process = some p ∧ (d.withSettings merged).Announces previous messages ∧
        out.2.link.host.wire = d.link.host.wire ++ messages.map (p, ·)
  /-- A toggle is an update that puts the other mode in the place of the mode. -/
  toggled : ∀ mode, Settings.proofMode d.session.settings = .ok mode →
    ∃ members proof, d.session.settings = .object members ∧ Keyed.get? "proof" members = some (.object proof) ∧
      let flipped := Json.object
        (Keyed.put "proof" (.object (Keyed.put "mode" (.int mode.flip.number) proof)) members)
      Json.merge d.session.settings (Settings.modeUpdate mode.flip) = .ok flipped ∧
      Settings.proofMode flipped = .ok mode.flip ∧
      (toggleMode lineCarrier).run.run d =
        match (updateSettings lineCarrier (Settings.modeUpdate mode.flip)).run.run d with
        | (.ok (), d) => (.ok mode.flip, d)
        | (.error cause, d) => (.error cause, d)

theorem reading_of_isReadable {settings : Json} (h : Settings.IsReadable settings) (previous : ProofMode) :
    reading previous settings = .ok () := by
  obtain ⟨mode, hmode⟩ := h
  cases previous with
  | manual => rw [reading, hmode]; rfl
  | continuous => rfl

theorem tells (h : d.Sound lineCarrier) : d.Tells := by
  constructor
  case unread =>
    intro cause hmode
    refine ⟨fun update => ?_, ?_⟩
    · rw [run_updateSettings, hmode]
    · rw [run_toggleMode, hmode]
  case refused =>
    intro previous update cause hmode hmerge
    simp only [run_updateSettings, hmode, hmerge]
  case told =>
    intro previous update merged hmode hmerge out hrunning
    have hout : out = (push lineCarrier previous merged).run.run (d.withSettings merged) := by
      simp only [out, run_updateSettings, hmode, hmerge]
    have hsound : (d.withSettings merged).Sound lineCarrier := h.of_eq rfl rfl rfl rfl
    obtain ⟨link, hpush⟩ := relinked_push lineCarrier previous merged (d.withSettings merged)
    rw [hout] at hrunning ⊢
    obtain ⟨hresult, hsent⟩ := push_announces hsound hrunning
    refine ⟨by rw [hpush]; rfl, by rw [hpush]; rfl, fun hread => ?_, hsent⟩
    exact hresult.trans (reading_of_isReadable hread previous)
  case toggled =>
    intro mode hmode
    obtain ⟨members, proof, hsettings, hproof⟩ := Settings.members_of_proofMode hmode
    refine ⟨members, proof, hsettings, hproof, ?_, Settings.proofMode_put members proof mode.flip, ?_⟩
    · rw [hsettings]
      simp only [Settings.modeUpdate, Json.merge, Json.mergeMembers, hproof, Json.mergeValue]
    · simp only [run_toggleMode, hmode]
      rcases (updateSettings lineCarrier (Settings.modeUpdate mode.flip)).run.run d with ⟨_ | _, _⟩ <;> rfl

/-- A session with a server that was started with its settings, after every run of whatever can befall it while that
server is on its line, updates that fail included. As long as it runs, the server has the settings of the session; and
each further update tells it no more and no less than it has to know. -/
theorem settings_mirrored {overrides timeout : Json} {ns : String} {s : Session} {brief : Bool} {w w' : Wired}
    {standing : Standing} (created : Session.create overrides ns = .ok s) (idle : w.isRunning = false) (counts : w.Counts)
    (started : (Line.start s.settings timeout brief).run.run w = (.ok standing, w')) (texts : List (String × String))
    (as : List (Affair Wired))
    (has : Fits ⟨s, texts.map fun t => .ofText t.1 t.2 Buffer.defaultLanguage, w'⟩ as) :
    let d : Desk Wired := ⟨s, texts.map fun t => .ofText t.1 t.2 Buffer.defaultLanguage, w'⟩
    let d' := d.live lineCarrier as
    (d'.link.isRunning = true → d'.link.lastSettings? = some d'.session.settings) ∧ d'.Tells := by
  intro d d'
  have hempty := Session.attachments_create created
  have hunheard : d.IsUnheard := by
    refine ⟨hempty.1, hempty.2, fun b hb => ?_⟩
    obtain ⟨t, -, rfl⟩ := List.mem_map.mp hb
    exact ⟨rfl, rfl⟩
  have hcounts := Wired.Counts.service.start s.settings timeout brief w counts
  rw [started] at hcounts
  have hsound : d.Sound lineCarrier := by
    refine ⟨hunheard.bound, fun b hb => ?_, hcounts⟩
    obtain ⟨t, -, rfl⟩ := List.mem_map.mp hb
    exact ⟨rfl, rfl⟩
  have hlast := lastSettings?_start idle (Session.truthy_create created) started
  have hmirrors := mirrors_live ⟨hsound, fun _ => hlast⟩ has
  exact ⟨hmirrors.mirror, tells hmirrors.sound⟩

/-- Settings by which the mode is changed. -/
def modeSeven : Json := .object [("proof", .object [("mode", .int 7)])]

/-- A document is opened, and the mode changed to manual, back to continuous, and to a number that is no mode. -/
def retuned : List (Affair Wired) :=
  [.befall (.adopt 0), .befall .toggleMode, .befall (.updateSettings (Settings.modeUpdate .continuous)),
    .befall (.updateSettings modeSeven)]

theorem settings_mirrored_retuned : ∃ s standing w', Session.create .null "ns" = .ok s ∧
    let w : Wired := ⟨Console.quiet.host, .fresh "/ws" ["vscoqtop"] .null [Encoding.defaultName]⟩
    (Line.start s.settings Line.startTimeout false).run.run w = (.ok standing, w') ∧
    let d : Desk Wired := ⟨s, [.ofText "a" "Check nat." Buffer.defaultLanguage], w'⟩
    let d' := d.live lineCarrier retuned
    d'.link.isRunning = true ∧ d'.link.lastSettings? = some d'.session.settings ∧
      ∃ cause, (updateSettings lineCarrier (Settings.modeUpdate .manual)).run.run d' = (.error cause, d') := by
  let w : Wired := ⟨Console.quiet.host, .fresh "/ws" ["vscoqtop"] .null [Encoding.defaultName]⟩
  obtain ⟨s, created⟩ : ∃ s, Session.create .null "ns" = .ok s := ⟨_, rfl⟩
  obtain ⟨standing, w', started⟩ : ∃ standing w', (Line.start s.settings Line.startTimeout false).run.run w =
      (.ok standing, w') := by
    cases created
    exact ⟨_, _, rfl⟩
  have hfits : Fits ⟨s, [("a", "Check nat.")].map fun t => .ofText t.1 t.2 Buffer.defaultLanguage, w'⟩ retuned := by
    intro before a after hsplit
    have hmem : a ∈ retuned := by simp [hsplit]
    have hall : ∀ a ∈ retuned, (∀ n, a.buffer? = some n → n < 1) ∧ a.IsWhole ∧ ∀ w, a ≠ .befall (.relink w) := by
      simp [retuned, Affair.buffer?, Event.buffer?, Affair.IsWhole]
    obtain ⟨hnamed, hwhole, hlink⟩ := hall a hmem
    exact ⟨hnamed, hwhole, fun w ha => absurd ha (hlink w)⟩
  have hmirrored := settings_mirrored created rfl ⟨.utf16, rfl⟩ started [("a", "Check nat.")] retuned hfits
  refine ⟨s, standing, w', created, started, ?_⟩
  intro d d'
  have hrunning : d'.link.isRunning = true := by
    cases created
    cases started
    decide +kernel
  have hunread : (Settings.proofMode d'.session.settings).isOk = false := by
    cases created
    cases started
    decide +kernel
  refine ⟨hrunning, hmirrored.1 hrunning, ?_⟩
  cases hmode : Settings.proofMode d'.session.settings with
  | error cause => exact ⟨cause, (hmirrored.2.unread cause hmode).1 _⟩
  | ok mode =>
    rw [hmode] at hunread
    cases hunread

end Desk
end CoqConsole
