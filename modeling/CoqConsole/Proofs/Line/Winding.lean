import CoqConsole.Proofs.Line.Attention

/-!
# Winding down

Whoever stops a server asks it to shut down, then to terminate, and kills it in the end. At each turn the call either
waits on, knowing its process, or leaves nothing of it; it fails only if the server answers the request to shut down
with an error that is no object, or may not be killed.

* `Wired.Abides` : the line keeps its process; so it does in all that is neither a start nor the end of a stop;
* `Wait.IsTimed`, `Wired.Minds` : what a waiting call knows of the line;
* `Line.refused_or_odd`, `Line.resultOf_of_odd` : what an answer with an error comes to;
* `Line.Winds`, `Line.Parts` : what a call that stops a server comes to; `winds_stop`, `parts_resume` : so it does from
  the first turn to the last;
* `Line.Begins` : what a call that starts a server comes to; `begins_start`, `greets_greeting`.
-/

namespace CoqConsole

namespace Wired

/-! ## The process of a line -/

/-- The line has the same process, and reads and hears no more than before; what has ended stays so. -/
structure Abides (w w' : Wired) : Prop where
  count : w.host.processes.length ≤ w'.host.processes.length
  ended : ∀ p, w.host.isAlive p = false → w'.host.isAlive p = false
  process : w'.line.process = w.line.process
  reading : w'.line.reading = true → w.line.reading = true
  listening : w'.line.listening ⊆ w.line.listening
  truthful : w.line.Truthful w'.line

variable {w w' w'' : Wired}

theorem Onward.abides (h : w.Onward w') : w.Abides w' where
  count := Nat.le_of_eq h.count.symm
  ended := fun _ => h.grows.not_alive h.count
  process := h.process
  reading := fun hreading => h.reading.symm.trans hreading
  listening := h.listening ▸ List.Subset.refl _
  truthful := h.truthful

namespace Abides

theorem refl (w : Wired) : w.Abides w := (Onward.refl w).abides

theorem trans (h : w.Abides w') (h' : w'.Abides w'') : w.Abides w'' where
  count := Nat.le_trans h.count h'.count
  ended := fun p hdead => h'.ended p (h.ended p hdead)
  process := h'.process.trans h.process
  reading := fun hreading => h.reading (h'.reading hreading)
  listening := List.Subset.trans h'.listening h.listening
  truthful := h.truthful.trans h'.truthful

theorem of_host {h : Host} (hgrows : w.host.Grows h) (hcount : h.processes.length = w.host.processes.length) :
    w.Abides { w with host := h } :=
  ⟨Nat.le_of_eq hcount.symm, fun _ => hgrows.not_alive hcount, rfl, fun hreading => hreading, List.Subset.refl _,
    .of_subset (List.Subset.refl _)⟩

theorem listen {p : Nat} (h : w.listen p = some w') : w.Abides w' := by
  obtain ⟨host, listening, rfl, hgrows, -, hcount, hsubset⟩ := eq_of_listen h
  exact ⟨Nat.le_of_eq hcount.symm, fun _ => hgrows.not_alive hcount, rfl, fun hreading => hreading, hsubset,
    .of_subset (List.Subset.refl _)⟩

theorem consumed (w : Wired) (p : Nat) (rest : List UInt8) : w.Abides (w.consumed p rest) := by
  refine ⟨Nat.le_of_eq (List.length_modify _ _ _).symm, fun n hdead => ?_, rfl, fun hreading => hreading, List.Subset.refl _,
    .of_subset (List.Subset.refl _)⟩
  rw [isAlive_consumed]
  exact hdead

theorem endReading (w : Wired) (r : Option Record) : w.Abides (w.endReading r) := by
  have htruthful : w.line.Truthful w.line.endReading :=
    Line.truthful_failPending (.inl rfl) { w.line with reading := false }
  obtain ⟨settled, hfail, -⟩ := Line.eq_of_failPending .lostConnection { w.line with reading := false }
  have hend : w.line.endReading = { w.line with reading := false, pending := [], settled } := hfail
  rw [hend] at htruthful
  cases r with
  | none =>
    show w.Abides ⟨w.host, w.line.endReading⟩
    rw [hend]
    exact ⟨Nat.le_refl _, fun _ h => h, rfl, nofun, List.Subset.refl _, htruthful⟩
  | some r =>
    show w.Abides ⟨w.host.record r, w.line.endReading⟩
    rw [hend]
    exact ⟨Nat.le_refl _, fun _ h => h, rfl, nofun, List.Subset.refl _, htruthful⟩

theorem read {handles : String → Bool} {handed : Option (String × Json)} (h : w.read handles = some (w', handed)) :
    w.Abides w' := by
  rcases read_ends_or_heeds h with ⟨v, r, rfl | ⟨p, rest, rfl⟩, rfl⟩ | ⟨p, message, rest, hheeds⟩
  · exact endReading v r
  · exact (consumed w p rest).trans (endReading _ r)
  · exact (consumed w p rest).trans hheeds.onward.abides

end Abides

theorem running?_of_isRunning (h : w.isRunning = true) : ∃ p, w.running? = some p ∧ w.line.process = some p := by
  obtain ⟨p, hp⟩ := Option.isSome_iff_exists.mp h
  exact ⟨p, hp, process_of_running hp⟩

/-- What runs ran before, if its process did not come back to life and is not read anew. -/
theorem isRunning_of_ended (hprocess : w'.line.process = w.line.process)
    (hreading : w'.line.reading = true → w.line.reading = true)
    (hended : ∀ p, w.line.process = some p → w.host.isAlive p = false → w'.host.isAlive p = false)
    (hrunning : w'.isRunning = true) : w.isRunning = true := by
  obtain ⟨p, hp, hprocess'⟩ := running?_of_isRunning hrunning
  rw [hprocess] at hprocess'
  unfold running? at hp
  rw [hprocess, hprocess'] at hp
  simp only at hp
  split at hp
  · next hreads =>
    obtain ⟨halive, hread⟩ := (Bool.and_eq_true _ _).mp hreads
    have halive := Host.alive_of_ended (hended p hprocess') halive
    unfold isRunning running?
    rw [hprocess']
    simp [halive, hreading hread]
  · cases hp

theorem Abides.isRunning (h : w.Abides w') : w'.isRunning = true → w.isRunning = true :=
  isRunning_of_ended h.process h.reading fun p _ => h.ended p

theorem Abides.not_isRunning (h : w.Abides w') (hdown : w.isRunning = false) : w'.isRunning = false :=
  Bool.eq_false_iff.mpr fun hup => Bool.eq_false_iff.mp hdown (h.isRunning hup)

/-- Reading leaves the host in its directory. -/
theorem cwd_read {handles : String → Bool} {handed : Option (String × Json)} (h : w.read handles = some (w', handed)) :
    w'.host.cwd = w.host.cwd := by
  have hend (v : Wired) (r : Option Record) : (v.endReading r).host.cwd = v.host.cwd := by cases r <;> rfl
  rcases read_ends_or_heeds h with ⟨v, r, rfl | ⟨p, rest, rfl⟩, rfl⟩ | ⟨p, message, rest, hheeds⟩
  · exact hend _ _
  · exact hend _ _
  · exact hheeds.onward.grows.cwd

end Wired

/-- What a call returns once it has stopped a server, if that is what it does. -/
def Plan.result? : Plan → Option Json
  | .parting _ result | .leaving result | .terminating result | .closing result => some result
  | _ => none

def Plan.tends : Plan → Bool
  | .request .. => false
  | _ => true

theorem Plan.tends_of_result? {plan : Plan} {result : Json} (h : plan.result? = some result) : plan.tends = true := by
  cases plan with
  | request id method params => cases h
  | _ => rfl

/-- There is a limit to the wait for an answer once its request gets through. -/
def Wait.IsTimed : Wait → Prop
  | .flush _ _ _ timeout => ∀ now, ∃ limit, Limit.after now timeout = .ok limit
  | _ => True

namespace Wired

variable {w w' : Wired}

/-- A request that takes a limit fails by the end of its wait only if the pipe broke while it was flushed. -/
theorem EndsAs.eq_brokenPipe {late : Bool} {wait : Wait} {cause : Failure} (h : w.EndsAs late wait (.failed cause))
    (htimed : wait.IsTimed) :
    cause = .brokenPipe ∧ late = true ∧ ∃ id p cleared timeout, wait = .flush id p cleared timeout := by
  generalize hending : Ending.failed cause = ending at h
  cases h with
  | plain _ => cases late <;> cases hending
  | broken hlate =>
    cases hending
    exact ⟨rfl, hlate, _, _, _, _, rfl⟩
  | unlimited hlimit =>
    obtain ⟨limit, hok⟩ := htimed w.host.now
    rw [hok] at hlimit
    cases hlimit
  | there _ _ => cases hending

theorem EndsAs.eq_ofLate {late : Bool} {wait : Wait} {ending : Ending} (h : w.EndsAs late wait ending)
    (hwait : wait.ids = []) : ending = .ofLate late := by
  cases h with
  | plain _ => rfl
  | broken _ | unlimited _ | there _ _ => cases hwait

/-- What a waiting call knows of the line: the process that it waits for, and that it has ended once its streams are
let go. -/
inductive Minds (w : Wired) : Suspended → Prop
  | request {wait : Wait} {id : Nat} {method params : Json} : Minds w ⟨wait, .request id method params⟩
  | greeting {wait : Wait} {id : Nat} {params : Json} {brief : Bool} : Minds w ⟨wait, .greeting id params brief⟩
  | parting {wait : Wait} {id : Nat} {result : Json} (htimed : wait.IsTimed) : Minds w ⟨wait, .parting id result⟩
  | leaving {p : Nat} {limit : Limit} {result : Json} (hp : w.line.process = some p) :
    Minds w ⟨.exit p limit, .leaving result⟩
  | terminating {p : Nat} {limit : Limit} {result : Json} (hp : w.line.process = some p) :
    Minds w ⟨.exit p limit, .terminating result⟩
  | closing {p : Nat} {result : Json} (hp : w.line.process = some p) (hdead : w.host.isAlive p = false) :
    Minds w ⟨.quiet p, .closing result⟩

theorem Minds.abides {s : Suspended} (h : w.Minds s) (habides : w.Abides w') : w'.Minds s := by
  cases h with
  | request => exact .request
  | greeting => exact .greeting
  | parting htimed => exact .parting htimed
  | leaving hp => exact .leaving (habides.process.trans hp)
  | terminating hp => exact .terminating (habides.process.trans hp)
  | closing hp hdead =>
    exact .closing (habides.process.trans hp) (habides.ended _ hdead)

/-- A call that waits for the answer to a request that got through minds no more than before. -/
theorem Minds.flushed {id p cleared : Nat} {timeout : Json} {plan : Plan}
    (h : w.Minds ⟨.flush id p cleared timeout, plan⟩) (limit : Limit) : w.Minds ⟨.answer id limit, plan⟩ := by
  cases h with
  | request => exact .request
  | greeting => exact .greeting
  | parting _ => exact .parting trivial

/-- Whoever sends a request knows nothing of the process, and need not. -/
theorem minds_of_not_tends (w : Wired) {s : Suspended} (h : s.plan.tends = false) : w.Minds s := by
  obtain ⟨wait, plan⟩ := s
  cases plan with
  | request id method params => exact .request
  | _ => cases h

end Wired

/-- An error answer that is no object. -/
def Json.IsOddRefusal (message : Json) : Prop :=
  ∃ error, message.get? "error" = some error ∧ error ≠ .null ∧ ∀ members, error ≠ .object members

namespace Line

/-- What an answer says that is an error: a refusal, or it is odd. -/
theorem refused_or_odd {method params message : Json} {cause : Failure}
    (h : resultOf method params message = .error cause) :
    (∃ code text, cause = .refused method params code text) ∨ message.IsOddRefusal := by
  unfold resultOf at h
  split at h
  · cases h
  · next error hnull herror =>
    cases h
    cases error with
    | object members => exact .inl ⟨_, _, rfl⟩
    | null => exact absurd rfl hnull
    | _ => exact .inr ⟨_, herror, nofun, nofun⟩
  · cases h

theorem resultOf_of_odd (method params : Json) {message : Json} (h : message.IsOddRefusal) :
    ∃ kind, resultOf method params message = .error (.noOperation kind "get") := by
  obtain ⟨error, herror, hnull, hobject⟩ := h
  refine ⟨error.kind, ?_⟩
  unfold resultOf
  rw [herror]
  cases error with
  | null => exact absurd rfl hnull
  | object members => exact absurd rfl (hobject members)
  | _ => rfl

/-- The process is there no more, and neither is anything that the line did for it. -/
structure Released (w w' : Wired) : Prop where
  count : w.host.processes.length ≤ w'.host.processes.length
  ended : ∀ p, w.host.isAlive p = false → w'.host.isAlive p = false
  process : w'.line.process = none
  pending : w'.line.pending = []
  reading : w'.line.reading = true → w.line.reading = true
  listening : w'.line.listening ⊆ w.line.listening
  truthful : w.line.Truthful w'.line
  gone : ∀ p, w.line.process = some p →
    w'.host.isAlive p = false ∧ w'.line.reading = false ∧ p ∉ w'.line.listening

/-- What a call that stops a server comes to: it waits on, or has released the process. -/
inductive Winds (w : Wired) (result : Json) : Except Failure Standing → Wired → Prop
  | waits {s : Suspended} {w' : Wired} (habides : w.Abides w') (hresult : s.plan.result? = some result)
      (hminds : w'.Minds s) : Winds w result (.ok (.waiting s)) w'
  | ends {w' : Wired} (hreleased : Released w w') : Winds w result (.ok (.finished result)) w'

/-- The same of a call that goes on stopping a server; it fails if the server answered with an odd error, or if it is
still there and may not be killed. -/
inductive Parts (w : Wired) (late : Bool) (plan : Plan) (result : Json) : Except Failure Standing → Wired → Prop
  | winds {r : Except Failure Standing} {w' : Wired} (hwinds : Winds w result r w') : Parts w late plan result r w'
  | refused {cause : Failure} {w' : Wired} {id : Nat} {message : Json} (habides : w.Abides w')
      (hplan : plan = .parting id result)
      (hanswer : Keyed.get? id w.line.settled = some (.ok message)) (hodd : message.IsOddRefusal)
      (hcause : resultOf (.text "shutdown") .null message = .error cause) : Parts w late plan result (.error cause) w'
  | withstood {p : Nat} {w' : Wired} (habides : w.Abides w') (hlate : late = true) (hplan : plan = .terminating result)
      (hp : w.line.process = some p) (hrefuses : w.host.refusesKill p = true) (halive : w'.host.isAlive p = true) :
    Parts w late plan result (.error .notPermitted) w'

variable {w w₁ w' : Wired} {result : Json} {r : Except Failure Standing}

theorem Winds.minds (h : Winds w result r w') {s : Suspended} (hs : r = .ok (.waiting s)) : w'.Minds s := by
  subst hs
  cases h with
  | waits _ _ hminds => exact hminds

theorem Parts.minds {late : Bool} {plan : Plan} (h : Parts w late plan result r w') {s : Suspended} (hs : r = .ok (.waiting s)) :
    w'.Minds s := by
  cases h with
  | winds hwinds => exact hwinds.minds hs
  | refused _ _ _ _ _ | withstood _ _ _ _ _ _ => cases hs

/-! ## The last turns -/

theorem winds_clear (h : w.Abides w₁) (hgone : ∀ p, w₁.line.process = some p →
    w₁.host.isAlive p = false ∧ w₁.line.reading = false ∧ p ∉ w₁.line.listening) :
    Winds w result ((clear result).run.run w₁).1 ((clear result).run.run w₁).2 := by
  have htruthful := truthful_failPending (.inr rfl) w₁.line
  obtain ⟨settled, hfail, -⟩ := eq_of_failPending .stopped w₁.line
  have hrun : (clear result).run.run w₁ = (.ok (.finished result),
      { w₁ with line := { w₁.line.failPending .stopped with closing := false, process := none } }) := rfl
  rw [hfail] at htruthful
  rw [hrun, hfail]
  exact .ends
    { count := h.count
      ended := h.ended
      process := rfl
      pending := rfl
      reading := h.reading
      listening := h.listening
      truthful := h.truthful.trans htruthful
      gone := fun p hp => hgone p (h.process.trans hp) }

theorem winds_close (h : w.Abides w₁) (hdead : ∀ p, w₁.line.process = some p → w₁.host.isAlive p = false) :
    Winds w result ((close result).run.run w₁).1 ((close result).run.run w₁).2 := by
  cases hp : w₁.line.process with
  | none =>
    have hrun : (close result).run.run w₁ = (clear result).run.run w₁ := by
      simp only [close, run_bind, run_get, hp]
    rw [hrun]
    refine winds_clear h fun p hsome => ?_
    rw [hp] at hsome
    cases hsome
  | some p =>
    have hrun : (close result).run.run w₁ =
        (.ok (.waiting ⟨.quiet p, .closing result⟩), { w₁ with line := { w₁.line with closing := true } }) := by
      simp only [close, run_bind, run_get]
      split
      · next hnone =>
        rw [hp] at hnone
        cases hnone
      · next hsome =>
        rw [hp] at hsome
        cases hsome
        rfl
    rw [hrun]
    exact .waits ⟨h.count, h.ended, h.process, h.reading, h.listening, h.truthful⟩ rfl (.closing hp (hdead p hp))

theorem winds_terminate (h : w.Abides w₁) :
    Winds w result ((terminate result).run.run w₁).1 ((terminate result).run.run w₁).2 := by
  cases hp : w₁.line.process with
  | none =>
    have hrun : (terminate result).run.run w₁ = (close result).run.run w₁ := by
      simp only [terminate, run_bind, run_get, hp]
    rw [hrun]
    refine winds_close h fun p hsome => ?_
    rw [hp] at hsome
    cases hsome
  | some p =>
    by_cases halive : w₁.host.isAlive p = true
    · have hrun : (terminate result).run.run w₁ =
          (.ok (awaitExit p (stopLimit w₁) (.terminating result)), { w₁ with host := w₁.host.terminate p }) := by
        simp only [terminate, run_bind, run_get, hp, if_pos halive]
        rfl
      rw [hrun]
      exact .waits (h.trans (.of_host (.terminate _ _) (List.length_modify _ _ _))) rfl (.terminating hp)
    · have hrun : (terminate result).run.run w₁ = (close result).run.run w₁ := by
        simp only [terminate, run_bind, run_get, hp, if_neg halive]
      rw [hrun]
      refine winds_close h fun p' hsome => ?_
      rw [hp] at hsome
      cases hsome
      exact Bool.not_eq_true _ |>.mp halive

/-! ## The first turn -/

/-- What writing a request comes to: it is made, or there is no process to write to, or the pipe to it breaks. -/
inductive Sends {α : Type} : Except Failure α → Wired → Prop
  | made {a : α} {w : Wired} : Sends (.ok a) w
  | silent {w : Wired} (hrunning : w.isRunning = false) : Sends (.error .notRunning) w
  | broken {w : Wired} {p : Nat} {message : Json} (hprocess : w.line.process = some p)
      (hbreaks : w.host.breaks p message = true) : Sends (.error .brokenPipe) w

section Sending

variable (method params : Json) {timeout : Json} (htimeout : ∀ now, ∃ limit, Limit.after now timeout = .ok limit)
include htimeout

theorem sends_transmit (id : Nat) (w : Wired) :
    Sends ((transmit id method params timeout).run.run w).1 ((transmit id method params timeout).run.run w).2 := by
  have htransmits := transmits id method params timeout w
  generalize (transmit id method params timeout).run.run w = out at htransmits
  obtain ⟨r, w'⟩ := out
  cases htransmits with
  | silent hp => exact .silent (Option.isSome_eq_false_iff.mpr (Option.isNone_iff_eq_none.mpr hp))
  | @broken p host hp _ hbreaks =>
    have hprocess : w.line.process = some p := Wired.process_of_running hp
    exact .broken hprocess hbreaks
  | held | asked => exact .made
  | @unlimited p host cause _ _ _ hlimit =>
    obtain ⟨limit, hlimit'⟩ := htimeout host.now
    rw [hlimit'] at hlimit
    cases hlimit

theorem isTimed_transmit {id : Nat} {wait : Wait} {w : Wired}
    (h : ((transmit id method params timeout).run.run w).1 = .ok wait) : wait.IsTimed := by
  have htransmits := transmits id method params timeout w
  generalize (transmit id method params timeout).run.run w = out at h htransmits
  obtain ⟨r, w'⟩ := out
  cases htransmits with
  | silent | broken | unlimited => cases h
  | held =>
    cases h
    exact htimeout
  | asked =>
    cases h
    trivial

theorem isTimed_post {id : Nat} {wait : Wait} {w : Wired}
    (h : ((post method params timeout).run.run w).1 = .ok (id, wait)) : wait.IsTimed := by
  have htimed := fun wait => @isTimed_transmit method params timeout htimeout w.line.nextId wait (issued w)
  rw [run_post] at h
  generalize (transmit w.line.nextId method params timeout).run.run (issued w) = out at h htimed
  obtain ⟨_ | wait', w'⟩ := out
  · cases h
  · cases h
    exact htimed _ rfl

/-- A request that takes a limit is made, or the line cannot be written to. -/
theorem sends_post (w : Wired) :
    Sends ((post method params timeout).run.run w).1 ((post method params timeout).run.run w).2 := by
  have htransmit := sends_transmit method params htimeout w.line.nextId (issued w)
  rw [run_post]
  generalize (transmit w.line.nextId method params timeout).run.run (issued w) = out at htransmit
  obtain ⟨r, w'⟩ := out
  cases htransmit with
  | made => exact .made
  | silent hrunning => exact .silent hrunning
  | broken hprocess hbreaks => exact .broken hprocess hbreaks

end Sending

theorem winds_stop (h : w.Abides w₁) :
    Winds w result ((stop result).run.run w₁).1 ((stop result).run.run w₁).2 := by
  by_cases hrunning : w₁.isRunning = true
  · have honward := (Wired.Onward.traffic w₁).post (.text "shutdown") .null (.ofScalar stopSeconds) w₁ (.refl w₁)
    have hlimit (now : Int) : ∃ limit, Limit.after now (.ofScalar stopSeconds) = .ok limit := ⟨_, rfl⟩
    have hsends := sends_post (.text "shutdown") .null hlimit w₁
    have htimed := fun id wait => @isTimed_post (.text "shutdown") .null _ hlimit id wait w₁
    simp only [stop, run_bind, run_get, if_pos hrunning, run_attempt]
    generalize (post (.text "shutdown") .null (.ofScalar stopSeconds)).run.run w₁ = out at honward hsends htimed
    obtain ⟨r, w₂⟩ := out
    cases r with
    | ok r => exact .waits (h.trans honward.abides) rfl (.parting (htimed _ _ rfl))
    | error cause =>
      have hforgiven : isForgiven cause = true := by
        cases hsends <;> rfl
      simp only [if_pos hforgiven]
      exact winds_terminate (h.trans honward.abides)
  · have hrun : (stop result).run.run w₁ = (terminate result).run.run w₁ := by
      simp only [stop, run_bind, run_get, if_neg hrunning]
    rw [hrun]
    exact winds_terminate h

/-! ## The turns between -/

/-- An error that keeps a server from being stopped is no object. -/
theorem odd_of_not_forgiven {method params message : Json} {cause : Failure}
    (h : resultOf method params message = .error cause) (hnot : isForgiven cause = false) : message.IsOddRefusal := by
  rcases refused_or_odd h with ⟨code, text, rfl⟩ | hodd
  · cases hnot
  · exact hodd

/-- A failure that keeps a server from being stopped comes from the answer to the request. -/
theorem odd_of_collect {id : Nat} {method params : Json} {ending : Ending} {cause : Failure}
    (htruthful : ∀ i cause, (i, .error cause) ∈ w.line.settled → isForgiven cause = true)
    (hending : ∀ cause, ending = .failed cause → isForgiven cause = true)
    (h : ((collect id method params ending).run.run w).1 = .error cause) (hnot : isForgiven cause = false) :
    ∃ message, Keyed.get? id w.line.settled = some (.ok message) ∧ message.IsOddRefusal ∧
      resultOf method params message = .error cause := by
  have hcollects := collects id method params ending w
  rw [h] at hcollects
  cases hcollects with
  | late => cases hnot
  | unsent =>
    rw [hending cause rfl] at hnot
    cases hnot
  | unanswered => cases hnot
  | failed hkept =>
    rw [htruthful id cause hkept] at hnot
    cases hnot
  | answered hkept hresult => exact ⟨_, hkept, odd_of_not_forgiven hresult hnot, hresult⟩

/-- A line that can be written to tells its server to exit, and waits for it. -/
theorem leave_cases (w : Wired) (result : Json) :
    (∃ p limit w', w'.line.process = some p ∧ w.Onward w' ∧
      (leave result).run.run w = (.ok (.waiting ⟨.exit p limit, .leaving result⟩), w')) ∨
    (leave result).run.run w = (.error .notRunning, w) := by
  have honward := (Wired.Onward.traffic w).notify (.text "exit") .null w (.refl w)
  simp only [leave, run_bind, notify, run_write] at honward ⊢
  cases hp : w.running? with
  | none => exact .inr rfl
  | some p =>
    simp only [hp] at honward
    have hprocess := Wired.process_of_running hp
    simp only [run_get]
    split
    · next p' hsome =>
      rw [hprocess] at hsome
      cases hsome
      exact .inl ⟨p, _, { w with host := w.host.deliver p (notification (.text "exit") .null) }, hprocess, honward, rfl⟩
    · next hnone =>
      rw [hprocess] at hnone
      cases hnone

theorem parts_parting {id : Nat} {late : Bool} {ending : Ending}
    (htruthful : ∀ i cause, (i, .error cause) ∈ w.line.settled → isForgiven cause = true)
    (hending : ∀ cause, ending = .failed cause → isForgiven cause = true) :
    Parts w late (.parting id result) result ((conclude ending (.parting id result)).run.run w).1
      ((conclude ending (.parting id result)).run.run w).2 := by
  have honward := (Wired.Onward.traffic w).collect id (.text "shutdown") .null ending w (.refl w)
  have hodd (cause : Failure) (h : ((collect id (.text "shutdown") .null ending).run.run w).1 = .error cause) :=
    odd_of_collect htruthful hending h
  simp only [conclude, run_bind, run_attempt]
  generalize (collect id (.text "shutdown") .null ending).run.run w = out at honward hodd
  obtain ⟨r, w₁⟩ := out
  cases r with
  | ok value =>
    rcases leave_cases w₁ result with ⟨p, limit, w₂, hp, honward', hrun⟩ | hrun
    · simp only [hrun, run_pure]
      exact .winds (.waits (honward.abides.trans honward'.abides) rfl (.leaving hp))
    · simp only [hrun, if_pos (show isForgiven .notRunning = true from rfl)]
      exact .winds (winds_terminate honward.abides)
  | error cause =>
    simp only
    by_cases hforgiven : isForgiven cause = true
    · rw [if_pos hforgiven]
      exact .winds (winds_terminate honward.abides)
    · rw [if_neg hforgiven, run_throw]
      obtain ⟨message, hanswer, hodd, hcause⟩ := hodd cause rfl (Bool.not_eq_true _ |>.mp hforgiven)
      exact .refused honward.abides rfl hanswer hodd hcause

/-- What is left of the attempt to kill a process. -/
theorem run_kill {p : Nat} (hp : w.line.process = some p) (result : Json) :
    (kill result).run.run w =
      if w.host.refusesKill p = true then (.error .notPermitted, { w with host := w.host.kill p })
      else (close result).run.run { w with host := w.host.kill p } := by
  simp only [kill, run_bind, run_get]
  split
  · next hnone =>
    rw [hp] at hnone
    cases hnone
  · next hsome =>
    rw [hp] at hsome
    cases hsome
    simp only [run_bind, editHost, run_modify, run_ite, run_throw]

/-- A process that does not end in time is killed, unless that is refused; otherwise the line is closed. -/
theorem parts_terminating {p : Nat} {limit : Limit} {late : Bool} (hp : w.line.process = some p)
    (hover : (if late then w.isLate (.exit p limit) else w.isMet (.exit p limit)) = true) :
    Parts w late (.terminating result) result ((conclude (.ofLate late) (.terminating result)).run.run w).1
      ((conclude (.ofLate late) (.terminating result)).run.run w).2 := by
  cases late with
  | true =>
    have hrun : (conclude (.ofLate true) (.terminating result)).run.run w = (kill result).run.run w := rfl
    have hgrows := Wired.Abides.of_host (w := w) (.kill w.host p) (List.length_modify _ _ _)
    rw [hrun, run_kill hp]
    by_cases hrefuses : w.host.refusesKill p = true
    · rw [if_pos hrefuses]
      exact .withstood hgrows rfl rfl hp hrefuses ((Host.isAlive_kill w.host p).trans hrefuses)
    · rw [if_neg hrefuses]
      refine .winds (winds_close hgrows fun p' hsome => ?_)
      rw [hp] at hsome
      cases hsome
      exact Host.not_alive_kill (Bool.not_eq_true _ |>.mp hrefuses)
  | false =>
    refine .winds (winds_close (.refl w) fun p' hsome => ?_)
    rw [hp] at hsome
    cases hsome
    exact Bool.not_eq_true' _ |>.mp hover

theorem parts_conclude {s : Suspended} {late : Bool} {ending : Ending} (hresult : s.plan.result? = some result)
    (hminds : w.Minds s) (hends : w.EndsAs late s.wait ending)
    (hover : (if late then w.isLate s.wait else w.isMet s.wait) = true)
    (htruthful : ∀ i cause, (i, .error cause) ∈ w.line.settled → isForgiven cause = true) :
    Parts w late s.plan result ((conclude ending s.plan).run.run w).1 ((conclude ending s.plan).run.run w).2 := by
  cases hminds with
  | request => cases hresult
  | greeting => cases hresult
  | parting htimed =>
    cases hresult
    refine parts_parting htruthful fun cause hcause => ?_
    subst hcause
    rw [(hends.eq_brokenPipe htimed).1]
    rfl
  | leaving hp =>
    cases hresult
    exact .winds (winds_terminate (.refl w))
  | terminating hp =>
    cases hresult
    rw [hends.eq_ofLate rfl]
    exact parts_terminating hp hover
  | @closing p _ hp hdead =>
    cases hresult
    cases late with
    | true => cases hover
    | false =>
      refine .winds (winds_clear (.refl w) fun p' hsome => ?_)
      rw [hp] at hsome
      cases hsome
      have hmet : w.isMet (.quiet p) = true := hover
      rw [Wired.isMet, Bool.and_eq_true, hp] at hmet
      exact ⟨hdead, by simpa using hmet.1, by simpa using hmet.2⟩

theorem parts_resume {s : Suspended} {late : Bool} (hresult : s.plan.result? = some result) (hminds : w.Minds s)
    (hover : (if late then w.isLate s.wait else w.isMet s.wait) = true)
    (htruthful : ∀ i cause, (i, .error cause) ∈ w.line.settled → isForgiven cause = true) :
    Parts w late s.plan result ((resume late s).run.run w).1 ((resume late s).run.run w).2 := by
  rcases resume_cases late s w with ⟨ending, hends, hrun⟩ | ⟨id, p, cleared, timeout, limit, hwait, -, -, hrun⟩
  · rw [hrun]
    exact parts_conclude hresult hminds hends hover htruthful
  · obtain ⟨wait, plan⟩ := s
    obtain rfl : wait = .flush id p cleared timeout := hwait
    rw [hrun]
    exact .winds (.waits (.refl w) hresult (hminds.flushed limit))

/-! ## Starting -/

/-- The line has a new process. -/
structure Spawned (w w' : Wired) (p : Nat) : Prop where
  fresh : w.host.processes.length ≤ p
  count : p < w'.host.processes.length
  process : w'.line.process = some p
  ended : ∀ n, n ≠ p → w.host.isAlive n = false → w'.host.isAlive n = false
  listening : w'.line.listening ⊆ w.line.listening ++ [p]
  truthful : w.line.Truthful w'.line

theorem Spawned.abides {p : Nat} (h : Spawned w w₁ p) (habides : w₁.Abides w') : Spawned w w' p where
  fresh := h.fresh
  count := Nat.lt_of_lt_of_le h.count habides.count
  process := habides.process.trans h.process
  ended := fun n hn hdead => habides.ended n (h.ended n hn hdead)
  listening := List.Subset.trans habides.listening h.listening
  truthful := h.truthful.trans habides.truthful

/-- What a call comes to that finds a server started: it ends, or, if it is a brief one, goes on to stop the server. -/
inductive Greets (w : Wired) (brief : Bool) : Except Failure Standing → Wired → Prop
  | ends {label : Json} {w' : Wired} (habides : w.Abides w') : Greets w brief (.ok (.finished label)) w'
  | fails {cause : Failure} {w' : Wired} (habides : w.Abides w') : Greets w brief (.error cause) w'
  | winds {result : Json} {r : Except Failure Standing} {w' : Wired} (hbrief : brief = true)
      (hwinds : Winds w result r w') : Greets w brief r w'

/-- What a call that starts a server comes to: nothing is spawned, or the line has a new process, whose answer the call
waits for unless it cannot ask. -/
inductive Begins (w : Wired) (brief : Bool) : Except Failure Standing → Wired → Prop
  | greets {r : Except Failure Standing} {w' : Wired} (hgreets : Greets w brief r w') : Begins w brief r w'
  | waits {p : Nat} {wait : Wait} {id : Nat} {params : Json} {w' : Wired} (hspawned : Spawned w w' p) :
    Begins w brief (.ok (.waiting ⟨wait, .greeting id params brief⟩)) w'
  | fails {p : Nat} {cause : Failure} {w' : Wired} (hspawned : Spawned w w' p) : Begins w brief (.error cause) w'

theorem Greets.minds {brief : Bool} (h : Greets w brief r w') {s : Suspended} (hs : r = .ok (.waiting s)) :
    w'.Minds s := by
  cases h with
  | ends _ => cases hs
  | fails _ => cases hs
  | winds _ hwinds => exact hwinds.minds hs

theorem Begins.minds {brief : Bool} (h : Begins w brief r w') {s : Suspended} (hs : r = .ok (.waiting s)) :
    w'.Minds s := by
  cases h with
  | greets hgreets => exact hgreets.minds hs
  | waits _ =>
    cases hs
    exact .greeting
  | fails _ => cases hs

theorem greets_greeted (h : w.Abides w₁) (label : String) (brief : Bool) :
    Greets w brief ((greeted label brief).run.run w₁).1 ((greeted label brief).run.run w₁).2 := by
  cases brief with
  | false => exact .ends h
  | true =>
    have hrun : (greeted label true).run.run w₁ = (stop (.bool w₁.isRunning)).run.run w₁ := by
      simp only [greeted, if_true, run_bind, run_get]
    rw [hrun]
    exact .winds rfl (winds_stop h)

/-- A process is spawned, or the line stays as it is. -/
theorem spawn_cases (w : Wired) :
    (∃ cause w', w.Abides w' ∧ spawn.run.run w = (.error cause, w')) ∨
      ∃ p w', Spawned w w' p ∧ spawn.run.run w = (.ok (), w') := by
  simp only [spawn, run_bind, run_get, run_lift]
  cases w.line.entries with
  | error cause => exact .inl ⟨cause, w, .refl w, rfl⟩
  | ok entries =>
    simp only
    generalize List.foldl _ w.host.environment entries = environment
    have halive := Host.not_alive_spawn w.host w.line.command w.line.workdir environment
    obtain ⟨hlength, hnumber⟩ := Host.count_spawn w.host w.line.command w.line.workdir environment
    generalize w.host.spawn w.line.command w.line.workdir environment = out at halive hlength hnumber
    obtain ⟨number, host⟩ := out
    have hcount : w.host.processes.length < host.processes.length := by
      rw [hlength]
      exact Nat.lt_succ_self _
    cases number with
    | none =>
      refine .inl ⟨_, { w with host }, ?_, rfl⟩
      exact ⟨Nat.le_of_lt hcount, fun n => halive n (Option.some_ne_none n).symm, rfl, fun h => h, List.Subset.refl _,
        .of_subset (List.Subset.refl _)⟩
    | some p =>
      obtain rfl := hnumber p rfl
      let p := w.host.processes.length
      let line := { w.line with process := some p, reading := true, listening := w.line.listening ++ [p] }
      refine .inr ⟨p, ⟨host, line⟩, ⟨Nat.le_refl _, hcount, rfl, fun n hn => ?_, List.Subset.refl _, ?_⟩, rfl⟩
      · exact halive n fun h => hn (Option.some.inj h).symm
      · exact .of_subset (List.Subset.refl _)

theorem begins_start (options timeout : Json) (brief : Bool) :
    Begins w brief ((start options timeout brief).run.run w).1 ((start options timeout brief).run.run w).2 := by
  by_cases hrunning : w.isRunning = true
  · have hrun : (start options timeout brief).run.run w =
        (greeted "vscoqtop already running" brief).run.run w := by
      simp only [start, run_bind, run_get, if_pos hrunning]
    rw [hrun]
    exact .greets (greets_greeted (.refl w) _ brief)
  · simp only [start, run_bind, run_get, if_neg hrunning]
    rcases spawn_cases w with ⟨cause, w', habides, hrun⟩ | ⟨p, w₁, hspawned, hrun⟩
    · simp only [hrun]
      exact .greets (.fails habides)
    · simp only [hrun]
      have honward := (Wired.Onward.traffic w₁).post (.text greetingMethod) (greetingParams w₁ options) timeout w₁ (.refl w₁)
      generalize (post (.text greetingMethod) (greetingParams w₁ options) timeout).run.run w₁ = out at honward
      obtain ⟨r, w₂⟩ := out
      cases r with
      | ok posted => exact .waits (hspawned.abides honward.abides)
      | error cause => exact .fails (hspawned.abides honward.abides)

theorem greets_greeting (id : Nat) (params : Json) (brief : Bool) (ending : Ending) :
    Greets w brief ((conclude ending (.greeting id params brief)).run.run w).1
      ((conclude ending (.greeting id params brief)).run.run w).2 := by
  have hcollect := (Wired.Onward.traffic w).collect id (.text greetingMethod) params ending w (.refl w)
  simp only [conclude, run_bind]
  generalize (collect id (.text greetingMethod) params ending).run.run w = out at hcollect
  obtain ⟨r, w₁⟩ := out
  cases r with
  | error cause => exact .fails hcollect.abides
  | ok answer =>
    have hlearn := (Wired.Onward.traffic w₁).learn answer w₁ (.refl w₁)
    simp only
    generalize (learn answer).run.run w₁ = out at hlearn
    obtain ⟨r, w₂⟩ := out
    cases r with
    | error cause => exact .fails (hcollect.trans hlearn).abides
    | ok label => exact greets_greeted (hcollect.trans hlearn).abides label brief

/-- A call that asks does no more than wait for its answer. -/
theorem plan_ask {method params timeout : Json} {s : Suspended}
    (h : ((ask method params timeout).run.run w).1 = .ok (.waiting s)) : s.plan.tends = false := by
  simp only [ask, run_bind] at h
  generalize (post method params timeout).run.run w = out at h
  obtain ⟨_ | ⟨id, wait⟩, w'⟩ := out
  · cases h
  · cases h
    rfl

end Line
end CoqConsole
