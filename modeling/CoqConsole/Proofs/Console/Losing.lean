import CoqConsole.Proofs.Console.Tending

/-!
# Which servers are lost

A run of the console is a list of events, in any order: tools are called, calls go on in time or too late, messages are
read, processes act, files change, time goes on.

* `Console.Event`, `Console.after`, `Console.afterAll` : the runs; `exists_afterAll_of_step?` : the machine with its queue
  runs so;
* `Console.Loses` : the events with which a server is left behind;
* `kept_after`, `kept_afterAll` : no event loses any other, and so no run does;
* `servers_attended` : every server that runs is looked after, or was lost with such an event.
-/

namespace CoqConsole.Console

/-- What can happen at the console and around it. -/
inductive Event
  | call (name : String) (args : Tool.Arguments)
  | move (move : Move)
  /-- A process does something of its own accord. -/
  | act (process : Nat) (acts : List Act)
  | tick (now : Int)
  | store (files : Files)
  | queue (rota : Rota Move)

def after (c : Console) : Event → Console
  | .call name args => (c.call name args).2
  | .move m => c.apply m
  | .act p acts => { c with host := c.host.command p acts }
  | .tick now => clockwork.setNow now c
  | .store files => { c with files }
  | .queue rota => { c with rota }

def afterAll (c : Console) (es : List Event) : Console := es.foldl after c

theorem afterAll_append (c : Console) (es fs : List Event) : c.afterAll (es ++ fs) = (c.afterAll es).afterAll fs :=
  List.foldl_append

/-- Each step of the machine with its queue is such a run. -/
theorem exists_afterAll_of_step? {c c' : Console} (h : clockwork.step? c = some c') : ∃ es, c' = c.afterAll es := by
  rcases roster.step?_cases h with ⟨rota, rfl | ⟨m, rfl | ⟨rota', rfl⟩⟩⟩
  · exact ⟨[.queue rota], rfl⟩
  · exact ⟨[.queue rota, .move m], rfl⟩
  · exact ⟨[.queue rota, .move m, .queue rota'], rfl⟩

/-! ## One event -/

/-- The events with which the server of a seat is left behind: its session is started anew, as its output is not read
any more, or a call goes on that drops it. -/
inductive Loses (c : Console) : Event → Nat → Prop
  | restarted {name : String} {args : Tool.Arguments} {tool : Tool} {session : Json} {k : Nat}
      (hcall : Tool.ofCall name args = .ok tool) (hstarts : starts? tool = some session)
      (hfind : c.find? session = .ok (some k)) (hrunning : (c.wired k).isRunning = false) : Loses c (.call name args) k
  | dropped {n k : Nat} {late : Bool} {e : Errand} (hs : Keyed.get? n c.calls = some e) (hdrops : Drops c late e k) :
    Loses c (.move (.resume n late)) k

variable {c : Console} {lost : List Nat} {k : Nat}

/-- What is lost was in somebody's hands until then. -/
theorem Loses.mem_attended {e : Event} (h : Loses c e k) : k ∈ c.attended := by
  cases h with
  | restarted _ _ hfind _ => exact mem_attended_of_find hfind
  | dropped hs hdrops =>
    cases hdrops with
    | displaced _ hfind => exact mem_attended_of_find hfind
    | refused htends _ _ | withstood htends _ _ _ => exact mem_attended_of_call (Keyed.mem_of_get? hs) htends

theorem abides_hear (h : c.Filed) (k : Nat) (method : String) (params : Json) : c.Abides (c.hear k method params) := by
  unfold hear
  cases Signal.ofMethod? method with
  | none => exact .refl h
  | some signal =>
    have hhear : Ensures c.Abides (withDesk k (Desk.hear lineCarrier params signal)) fun _ => c.Abides :=
      .withDesk fun _ u => u.conduct.hear params signal
    have habides := hhear c (.refl h)
    simp only
    generalize (withDesk k (Desk.hear lineCarrier params signal)).run.run c = out at habides
    obtain ⟨_ | _, c'⟩ := out
    · exact habides.trans (.of_host habides.filed (.record _ _) rfl)
    · exact habides

theorem abides_read (h : c.Filed) (k : Nat) : c.Abides (c.apply (.read k)) := by
  unfold apply
  simp only
  split
  · next w method params hread =>
    have habides : c.Abides (c.rewire k w) := .rewire h (.read hread)
    exact habides.trans (abides_hear habides.filed k method params)
  · next w hread => exact .rewire h (.read hread)
  · exact .refl h

theorem abides_listen (h : c.Filed) (k p : Nat) : c.Abides (c.apply (.listen k p)) := by
  unfold apply
  simp only
  split
  · next w hlisten => exact .rewire h (.listen hlisten)
  · exact .refl h

theorem kept_call (h : c.Kept lost) (name : String) (args : Tool.Arguments) :
    (c.call name args).2.Kept lost ∨ ∃ k, Loses c (.call name args) k ∧ (c.call name args).2.Kept (k :: lost) := by
  have hmade : c.made ∉ Keyed.keys c.calls := fun hmem => Nat.lt_irrefl _ (h.calls_made _ hmem)
  have hstand {lost : List Nat} {r : Except Failure Turn} {c' : Console} (hsettles : c.Settles lost r c') :
      (stand { c' with made := c.made + 1 } c.made r).Kept lost :=
    hsettles.kept_stand _ hmade (Nat.lt_succ_self _) (Nat.le_succ _)
  unfold call
  cases hcall : Tool.ofCall name args with
  | error cause => exact .inl (hstand (.error h cause))
  | ok tool =>
    rcases settles_run h tool with hsettles | ⟨session, k, hstarts, hfind, hrunning, hsettles⟩
    · exact .inl (hstand hsettles)
    · exact .inr ⟨k, .restarted hcall hstarts hfind hrunning, hstand hsettles⟩

theorem kept_resume (h : c.Kept lost) (n : Nat) (late : Bool) :
    (c.apply (.resume n late)).Kept lost ∨
      ∃ k, Loses c (.move (.resume n late)) k ∧ (c.apply (.resume n late)).Kept (k :: lost) := by
  unfold apply
  simp only
  cases hs : Keyed.get? n c.calls with
  | none => exact .inl h
  | some e =>
    simp only
    by_cases hover : (if late = true then c.isLate e else c.isMet e) = true
    · rw [if_pos hover]
      have hcall : (n, e) ∈ c.calls := Keyed.mem_of_get? hs
      let c₁ : Console := { c with calls := Keyed.erase n c.calls }
      have hstand {lost : List Nat} {r : Except Failure Turn} {c' : Console} (hsettles : c₁.Settles lost r c') :
          (c'.stand n r).Kept lost := by
        refine hsettles.kept_stand c'.made (fun hn => ?_) ?_ (Nat.le_of_eq hsettles.made.symm)
        · exact (Keyed.mem_keys_erase.mp hn).2 rfl
        · rw [hsettles.made]
          exact h.calls_made n (List.mem_map.mpr ⟨_, hcall, rfl⟩)
      rcases settles_resume (h.forgo hs) (h.not_lost hcall) (h.fits _ hcall) (h.minds _ hcall) hover with hsettles |
        ⟨k, hdrops, hsettles⟩
      · exact .inl (hstand hsettles)
      · refine .inr ⟨k, .dropped hs ?_, hstand hsettles⟩
        cases hdrops with
        | displaced hgreets hfind => exact .displaced hgreets hfind
        | refused htends hanswer hodd => exact .refused htends hanswer hodd
        | withstood htends hlate hp hrefuses => exact .withstood htends hlate hp hrefuses
    · rw [if_neg hover]
      exact .inl h

theorem kept_after (h : c.Kept lost) (e : Event) :
    (c.after e).Kept lost ∨ ∃ k, Loses c e k ∧ (c.after e).Kept (k :: lost) := by
  cases e with
  | call name args => exact kept_call h name args
  | move m =>
    cases m with
    | wake p => exact .inl (h.abides (.of_host h.filed (.wake _ _) (List.length_modify _ _ _)))
    | read k => exact .inl (h.abides (abides_read h.filed k))
    | listen k p => exact .inl (h.abides (abides_listen h.filed k p))
    | resume n late => exact kept_resume h n late
  | act p acts => exact .inl (h.abides (.of_host h.filed (.command _ _ _) (List.length_modify _ _ _)))
  | tick now => exact .inl (h.abides (.of_host h.filed (.of_eq rfl rfl) rfl))
  | store files => exact .inl (h.abides ⟨fun _ => .refl _, h.filed, rfl, rfl, rfl⟩)
  | queue rota => exact .inl (h.abides ⟨fun _ => .refl _, h.filed, rfl, rfl, rfl⟩)

theorem exists_kept_after (h : c.Kept lost) (e : Event) : ∃ lost', (c.after e).Kept lost' := by
  rcases kept_after h e with hkept | ⟨k, -, hkept⟩
  · exact ⟨_, hkept⟩
  · exact ⟨_, hkept⟩

/-! ## Runs -/

/-- What is lost with a run was lost before, or is lost with one of its events. -/
theorem kept_afterAll (h : c.Kept lost) (es : List Event) :
    ∃ more, (c.afterAll es).Kept (more ++ lost) ∧
      ∀ k ∈ more, ∃ before e later, es = before ++ e :: later ∧ Loses (c.afterAll before) e k ∧
        k ∉ ((c.afterAll before).after e).attended := by
  induction es generalizing c lost with
  | nil => exact ⟨[], h, fun k hk => absurd hk List.not_mem_nil⟩
  | cons e es ih =>
    have hlater {more : List Nat} (hmore : ∀ k ∈ more, ∃ before e' later, es = before ++ e' :: later ∧
        Loses ((c.after e).afterAll before) e' k ∧ k ∉ (((c.after e).afterAll before).after e').attended) :
        ∀ k ∈ more, ∃ before e' later, e :: es = before ++ e' :: later ∧ Loses (c.afterAll before) e' k ∧
          k ∉ ((c.afterAll before).after e').attended := by
      intro k hk
      obtain ⟨before, e', later, rfl, hloses⟩ := hmore k hk
      exact ⟨e :: before, e', later, rfl, hloses⟩
    rcases kept_after h e with hkept | ⟨k, hloses, hkept⟩
    · obtain ⟨more, hmore, hlost⟩ := ih hkept
      exact ⟨more, hmore, hlater hlost⟩
    · obtain ⟨more, hmore, hlost⟩ := ih hkept
      refine ⟨more ++ [k], ?_, fun j hj => ?_⟩
      · rw [List.append_assoc]
        exact hmore
      · rcases List.mem_append.mp hj with hj | hj
        · exact hlater hlost j hj
        · rw [List.mem_singleton.mp hj]
          exact ⟨[], e, es, rfl, hloses, (hkept.gone k List.mem_cons_self).1⟩

/-- A console without seats, sessions and calls, on a host without processes. -/
structure IsUnused (c : Console) : Prop where
  processes : c.host.processes = []
  seats : c.seats = []
  registry : c.registry = []
  calls : c.calls = []

theorem IsUnused.kept (h : c.IsUnused) : c.Kept [] := by
  have hseat (k : Nat) : c.seatAt k = nobody := by
    rw [seatAt, h.seats]
    rfl
  have hprocess (k : Nat) {p : Nat} : (c.seatAt k).line.process ≠ some p := by
    rw [hseat]
    exact (Option.some_ne_none p).symm
  have hattended : c.attended = [] := by
    rw [attended, h.registry, h.calls]
    rfl
  constructor
  case numbered => exact fun k p hp => absurd hp (hprocess k)
  case sole => exact fun j k p hj _ => absurd hj (hprocess j)
  case held =>
    intro p hp
    rw [Host.isAlive, Host.process?, h.processes] at hp
    cases hp
  case reached => exact fun k p hp _ => absurd hp (hprocess k)
  case single =>
    rw [hattended]
    exact List.nodup_nil
  case seated =>
    rw [hattended]
    exact fun k hk => absurd hk List.not_mem_nil
  case gone => exact fun k hk => absurd hk List.not_mem_nil
  case named =>
    rw [h.registry]
    exact List.nodup_nil
  case calls_single =>
    rw [h.calls]
    exact List.nodup_nil
  case calls_made | fits | minds =>
    rw [h.calls]
    exact fun _ hmem => absurd hmem List.not_mem_nil
  case truthful =>
    intro k i cause hmem
    rw [hseat] at hmem
    cases hmem
  case filed =>
    intro k
    have hattachments : (c.desk k).session.attachments = [] := by
      show (c.seatAt k).session.attachments = []
      rw [hseat]
      rfl
    exact .of_empty hattachments

/-- Where the servers are that run after a run. -/
structure Accounted (c : Console) (es : List Event) : Prop where
  /-- Every process that runs has one seat. -/
  held : ∀ p, (c.afterAll es).host.isAlive p = true →
    ∃ k, ∀ j, ((c.afterAll es).seatAt j).line.process = some p ↔ j = k
  /-- The seat is that of a registered session, or a call is about to start or to stop its server; or it was lost, when
  it was in somebody's hands until then. -/
  attended : ∀ k p, ((c.afterAll es).seatAt k).line.process = some p → (c.afterAll es).host.isAlive p = true →
    (∃ entry ∈ (c.afterAll es).registry, entry.2.seat = k) ∨
      (∃ call ∈ (c.afterAll es).calls, call.2.purpose.tends = true ∧ call.2.seat = k) ∨
        ∃ before e later, es = before ++ e :: later ∧ Loses (c.afterAll before) e k ∧
          k ∈ (c.afterAll before).attended ∧ k ∉ ((c.afterAll before).after e).attended
  /-- What is out of all hands stays so. -/
  forsaken : ∀ before later k, es = before ++ later → k < (c.afterAll before).seats.length →
    k ∉ (c.afterAll before).attended → k ∉ (c.afterAll es).attended

theorem servers_attended (hc : c.IsUnused) (es : List Event) : Accounted c es := by
  obtain ⟨lost, hkept, hlost⟩ := kept_afterAll hc.kept es
  rw [List.append_nil] at hkept
  refine ⟨fun p hp => ?_, fun k p hk hp => ?_, ?_⟩
  · obtain ⟨k, hk⟩ := hkept.held p hp
    exact ⟨k, fun j => ⟨fun hj => hkept.sole j k p hj hk, fun hj => hj ▸ hk⟩⟩
  · rcases hkept.reached k p hk hp with hmem | hmem
    · rcases List.mem_append.mp hmem with hmem | hmem
      · obtain ⟨entry, hentry, hseat⟩ := List.mem_map.mp hmem
        exact .inl ⟨entry, hentry, hseat⟩
      · obtain ⟨call, hcall, hseat⟩ := List.mem_flatMap.mp hmem
        exact .inr (.inl ⟨call, hcall, Errand.mem_tended.mp hseat⟩)
    · obtain ⟨before, e, later, hes, hloses, hout⟩ := hlost k hmem
      exact .inr (.inr ⟨before, e, later, hes, hloses, hloses.mem_attended, hout⟩)
  · intro before later k hes hlt hout
    obtain ⟨lost', hkept', -⟩ := kept_afterAll hc.kept before
    obtain ⟨more, hmore, -⟩ := kept_afterAll (hkept'.lose hout hlt) later
    rw [hes, afterAll_append]
    exact (hmore.gone k (List.mem_append_right _ List.mem_cons_self)).1

/-! ## Runs that lose a server -/

/-- A console whose servers say nothing of their own accord. -/
def quiet : Console :=
  let behaviour : Behaviour := ⟨fun _ _ => [], true, .ends, fun _ => false, false⟩
  let host : Host := ⟨0, ⟨["ws"]⟩, [], 1, 2, fun _ => behaviour, [], [], [], []⟩
  ⟨host, ⟨[], [⟨["ws"]⟩]⟩, [], [], [], 0, [], .none⟩

def starting : Event := .call "coq_start" [("workdir", .text "/ws")]

/-- The process of a seat, of the same number, writes a message, and it is read. -/
def told (k : Nat) (message : Json) : List Event := [.act k [.emit (Frame.encode message)], .move (.read k)]

/-- It answers the greeting, and the call of that number goes on. -/
def welcomed (k : Nat) : List Event :=
  told k (.object [("id", .int 1), ("result", .object [])]) ++ [.move (.resume k false)]

/-- The output of a server ends while it runs, and its session is started again. -/
def startedAnew : List Event := [starting] ++ welcomed 0 ++ [.act 0 [.closeOutput], .move (.read 0), starting]

def startedTwice : List Event := [starting, starting] ++ welcomed 0 ++ welcomed 1

/-- A server answers the request to shut down with an error that is a text. -/
def rebuffed : List Event :=
  [starting] ++ welcomed 0 ++ [.call "coq_stop" []] ++ told 0 (.object [("id", .int 2), ("error", .text "no")]) ++
    [.move (.resume 1 false)]

theorem servers_attended_startedAnew :
    let c := quiet.afterAll startedAnew
    c.host.isAlive 0 = true ∧ (c.seatAt 0).line.process = some 0 ∧ c.attended = [1] ∧ Accounted quiet startedAnew := by
  refine ⟨?_, ?_, ?_, servers_attended ⟨rfl, rfl, rfl, rfl⟩ startedAnew⟩
  all_goals decide +kernel

example : (quiet.afterAll startedTwice).host.isAlive 0 = true ∧
    ((quiet.afterAll startedTwice).seatAt 0).line.process = some 0 ∧ (quiet.afterAll startedTwice).attended = [1] := by
  decide +kernel

example : (quiet.afterAll rebuffed).host.isAlive 0 = true ∧
    ((quiet.afterAll rebuffed).seatAt 0).line.process = some 0 ∧ (quiet.afterAll rebuffed).attended = [] := by
  decide +kernel

end CoqConsole.Console
