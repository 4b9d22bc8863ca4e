import CoqConsole.Console.Schedule
import CoqConsole.Proofs.Keyed

/-!
# Calls with the arguments that tools declare

A call that gives a tool the arguments it needs, and all of the kinds it declares, is a call of that tool; texts are
then texts, and numbers numbers, wherever the tool looks at them.

* `Tool.kinds`, `Tool.isDeclared` : the kinds of arguments, and the calls that keep to them;
* `Task.IsApt`, `Visit.IsApt`, `Tool.IsApt` : tools whose arguments can be used;
* `isApt_ofCall` : what such a call calls for.
-/

namespace CoqConsole

namespace Tool

def kinds : String → List Json.Kind
  | "line" | "col" | "max_output" => [.int]
  | "timeout" | "wait" => [.int, .real]
  | "config" | "env" | "update" => [.object]
  | "toggle_manual" => [.bool]
  | _ => [.text]

/-- The arguments are those that the tool needs or takes, each of a kind that is declared for it. -/
def isDeclared (name : String) (args : Arguments) : Bool :=
  match Keyed.get? name parameters with
  | some (needed, optional) => fits needed optional args && args.all fun (k, v) => (kinds k).contains v.kind
  | none => false

end Tool

/-! ## Arguments that can be used -/

def Json.IsSeconds (v : Json) : Prop := ∃ x, v.toScalar = .ok x

/-- An object, or nothing. -/
def Json.IsOverlay (v : Json) : Prop := v = .null ∨ ∃ members, v = .object members

theorem Json.IsSeconds.exists_limit {timeout : Json} (h : timeout.IsSeconds) (now : Int) :
    ∃ limit, Limit.after now timeout = .ok limit := by
  obtain ⟨x, hx⟩ := h
  cases timeout with
  | null => exact ⟨_, rfl⟩
  | _ => exact ⟨_, congrArg (Except.map (Limit.afterSeconds now)) hx⟩

/-- Where a task is about a line and a column, both are whole numbers, or there is no line; rooms are whole numbers, and
times are seconds. -/
inductive Task.IsApt : Task → Prop
  | report : IsApt .report
  | moveTo {line col room : Int} {timeout : Json} (htimeout : timeout.IsSeconds) :
    IsApt (.moveTo (.int line) (.int col) timeout (.int room))
  | interpret {line timeout : Json} {col room : Int} (hline : line = .null ∨ ∃ n, line = .int n)
      (htimeout : timeout.IsSeconds) : IsApt (.interpret line (.int col) timeout (.int room))
  | step {direction : Direction} {timeout : Json} {room : Int} (htimeout : timeout.IsSeconds) :
    IsApt (.step direction timeout (.int room))
  | search {pattern line wait timeout : Json} {col room : Int} (hline : line = .null ∨ ∃ n, line = .int n)
      (hwait : wait.IsSeconds) (htimeout : timeout.IsSeconds) :
    IsApt (.search pattern line (.int col) wait timeout (.int room))
  | question {kind pattern line timeout : Json} {col room : Int} (hkind : isQuestion kind = true)
      (hline : line = .null ∨ ∃ n, line = .int n) (htimeout : timeout.IsSeconds) :
    IsApt (.question kind pattern line (.int col) timeout (.int room))
  | reset {timeout : Json} (htimeout : timeout.IsSeconds) : IsApt (.reset timeout)

/-- The file, the directory and the session are named by texts. -/
structure Visit.IsApt (v : Visit) : Prop where
  file : ∃ s, v.file = .text s
  workdir : v.workdir = .null ∨ ∃ s, v.workdir = .text s
  session : ∃ s, v.session = .text s
  task : v.task.IsApt

/-- Everything that the tool looks at is of a kind it can use. -/
inductive Tool.IsApt : Tool → Prop
  | start {workdir name : String} {config environment : Json} (hconfig : config.IsOverlay) :
    IsApt (.start (.text workdir) (.text name) config environment)
  | sessions : IsApt .sessions
  | stop {name : String} : IsApt (.stop (.text name))
  | visit {v : Visit} (h : v.IsApt) : IsApt (.visit v)
  | close {file name : String} : IsApt (.close (.text file) (.text name))
  | reload {file name : String} : IsApt (.reload (.text file) (.text name))
  | view {room : Int} {name : String} : IsApt (.view (.int room) (.text name))
  | highlights {file name : String} : IsApt (.highlights (.text file) (.text name))
  | configure {update : Json} {toggle : Bool} {name : String} (hupdate : update.IsOverlay) :
    IsApt (.configure update toggle (.text name))
  | refuse {text : String} : IsApt (.refuse text)

/-! ## What calls call for -/

namespace Json

theorem eq_text_of_kind {v : Json} (h : v.kind = .text) : ∃ s, v = .text s := by
  cases v with
  | text s => exact ⟨s, rfl⟩
  | _ => cases h

theorem eq_int_of_kind {v : Json} (h : v.kind = .int) : ∃ n, v = .int n := by
  cases v with
  | int n => exact ⟨n, rfl⟩
  | _ => cases h

theorem eq_object_of_kind {v : Json} (h : v.kind = .object) : ∃ members, v = .object members := by
  cases v with
  | object members => exact ⟨members, rfl⟩
  | _ => cases h

theorem isSeconds_of_kind {v : Json} (h : v.kind ∈ [Kind.int, .real]) : v.IsSeconds := by
  cases v with
  | int n => exact ⟨_, rfl⟩
  | real x => exact ⟨_, rfl⟩
  | _ => simp [Json.kind] at h

end Json

namespace Tool

/-- All arguments are of their kinds, and those that are needed are there. -/
structure Declared (needed : List String) (args : Arguments) : Prop where
  given : ∀ key ∈ needed, Keyed.has key args = true
  kind : ∀ key v, (key, v) ∈ args → v.kind ∈ kinds key

namespace Declared

variable {needed : List String} {args : Arguments} (h : Declared needed args)
include h

/-- An argument is of its kind, or is not given. -/
theorem arg_cases (key : String) (default : Json) :
    (arg args key default).kind ∈ kinds key ∨ arg args key default = default ∧ key ∉ needed := by
  unfold arg
  cases hget : Keyed.get? key args with
  | some v => exact .inl (h.kind key v (Keyed.mem_of_get? hget))
  | none =>
    refine .inr ⟨rfl, fun hneeded => ?_⟩
    have hgiven := h.given key hneeded
    rw [Keyed.has, hget] at hgiven
    cases hgiven

theorem text_of_needed (key : String) (hneeded : key ∈ needed) (hkinds : kinds key = [.text]) (default : Json) :
    ∃ s, arg args key default = .text s := by
  refine Json.eq_text_of_kind ?_
  rcases h.arg_cases key default with hkind | ⟨-, hnot⟩
  · rw [hkinds] at hkind
    exact List.mem_singleton.mp hkind
  · exact absurd hneeded hnot

theorem text_or_default (key : String) (hkinds : kinds key = [.text]) (default : Json) :
    arg args key default = default ∨ ∃ s, arg args key default = .text s := by
  rcases h.arg_cases key default with hkind | ⟨hdefault, -⟩
  · rw [hkinds] at hkind
    exact .inr (Json.eq_text_of_kind (List.mem_singleton.mp hkind))
  · exact .inl hdefault

theorem text_arg (key : String) (hkinds : kinds key = [.text]) (default : String) :
    ∃ s, arg args key (.text default) = .text s :=
  (h.text_or_default key hkinds (.text default)).elim (fun hdefault => ⟨default, hdefault⟩) fun htext => htext

theorem int_arg (key : String) (hkinds : kinds key = [.int]) (default : Int) :
    ∃ n, arg args key (.int default) = .int n := by
  rcases h.arg_cases key (.int default) with hkind | ⟨hdefault, -⟩
  · rw [hkinds] at hkind
    exact Json.eq_int_of_kind (List.mem_singleton.mp hkind)
  · exact ⟨default, hdefault⟩

theorem int_of_needed (key : String) (hneeded : key ∈ needed) (hkinds : kinds key = [.int]) (default : Json) :
    ∃ n, arg args key default = .int n := by
  refine Json.eq_int_of_kind ?_
  rcases h.arg_cases key default with hkind | ⟨-, hnot⟩
  · rw [hkinds] at hkind
    exact List.mem_singleton.mp hkind
  · exact absurd hneeded hnot

theorem session : ∃ s, sessionArg args = .text s := h.text_arg "session" rfl _

theorem file (hfile : "file" ∈ needed) : ∃ s, fileArg args = .text s := h.text_of_needed "file" hfile rfl _

theorem room : ∃ n, roomArg args = .int n := h.int_arg "max_output" rfl 4096

theorem col : ∃ n, colArg args = .int n := h.int_arg "col" rfl 1

theorem line : lineArg args = .null ∨ ∃ n, lineArg args = .int n := by
  rcases h.arg_cases "line" .null with hkind | ⟨hdefault, -⟩
  · exact .inr (Json.eq_int_of_kind (List.mem_singleton.mp hkind))
  · exact .inl hdefault

theorem overlay (key : String) (hkinds : kinds key = [.object]) : (arg args key .null).IsOverlay := by
  rcases h.arg_cases key .null with hkind | ⟨hdefault, -⟩
  · rw [hkinds] at hkind
    exact .inr (Json.eq_object_of_kind (List.mem_singleton.mp hkind))
  · exact .inl hdefault

theorem seconds (key : String) (hkinds : kinds key = [.int, .real]) {default : Json} (hdefault : default.IsSeconds) :
    (arg args key default).IsSeconds := by
  rcases h.arg_cases key default with hkind | ⟨hsame, -⟩
  · rw [hkinds] at hkind
    exact Json.isSeconds_of_kind hkind
  · rw [hsame]
    exact hdefault

theorem timeout (default : Double) : (timeoutArg args (.real default)).IsSeconds := h.seconds "timeout" rfl ⟨_, rfl⟩

theorem isApt_visiting (hfile : "file" ∈ needed) {task : Task} (htask : task.IsApt) : (visiting args task).IsApt :=
  .visit ⟨h.file hfile, h.text_or_default "workdir" rfl _, h.session, htask⟩

theorem isApt_stepCall (hfile : "file" ∈ needed) : ∃ tool, stepCall args = .ok tool ∧ tool.IsApt := by
  obtain ⟨named, hnamed⟩ := h.text_arg "direction" rfl Direction.forward.name
  obtain ⟨room, hroom⟩ := h.room
  unfold stepCall
  simp only [hnamed, bind, Except.bind, Json.key]
  cases Direction.named? (.text named) with
  | none => exact ⟨_, rfl, .refuse⟩
  | some direction =>
    refine ⟨_, rfl, h.isApt_visiting hfile ?_⟩
    rw [hroom]
    exact .step (h.timeout _)

theorem isApt_questionCall (hfile : "file" ∈ needed) : (questionCall args).IsApt := by
  obtain ⟨room, hroom⟩ := h.room
  obtain ⟨col, hcol⟩ := h.col
  unfold questionCall
  extract_lets kind
  split
  · next hkind =>
    refine h.isApt_visiting hfile ?_
    rw [hroom, hcol]
    exact .question hkind h.line (h.timeout _)
  · exact .refuse

end Declared

/-- A call that keeps to what is declared is one of the tools of the table, with arguments that fit it. -/
theorem exists_declared {name : String} {args : Arguments} (h : isDeclared name args = true) :
    ∃ needed optional, (name, needed, optional) ∈ parameters ∧ Declared needed args ∧
      ofCall name args = ofArguments name args := by
  unfold isDeclared at h
  unfold ofCall
  cases hget : Keyed.get? name parameters with
  | none =>
    rw [hget] at h
    cases h
  | some entry =>
    obtain ⟨needed, optional⟩ := entry
    rw [hget] at h
    simp only [Bool.and_eq_true] at h
    obtain ⟨hfits, hkinds⟩ := h
    refine ⟨needed, optional, Keyed.mem_of_get? hget, ⟨fun key hkey => ?_, fun key v hmem => ?_⟩, if_pos hfits⟩
    · unfold fits at hfits
      rw [Bool.and_eq_true] at hfits
      exact List.all_eq_true.mp hfits.2 key hkey
    · exact List.contains_iff_mem.mp (List.all_eq_true.mp hkinds (key, v) hmem)

/-- A call with the arguments that are declared is one of a tool that can use them. -/
theorem isApt_ofCall {name : String} {args : Arguments} (h : isDeclared name args = true) :
    ∃ tool, ofCall name args = .ok tool ∧ tool.IsApt := by
  obtain ⟨needed, optional, hmem, hargs, hcall⟩ := exists_declared h
  rw [hcall]
  obtain ⟨session, hsession⟩ := hargs.session
  obtain ⟨room, hroom⟩ := hargs.room
  obtain ⟨col, hcol⟩ := hargs.col
  simp only [parameters, List.mem_cons, Prod.mk.injEq, List.not_mem_nil, or_false] at hmem
  rcases hmem with ⟨rfl, rfl, rfl⟩ | ⟨rfl, rfl, rfl⟩ | ⟨rfl, rfl, rfl⟩ | ⟨rfl, rfl, rfl⟩ | ⟨rfl, rfl, rfl⟩ |
    ⟨rfl, rfl, rfl⟩ | ⟨rfl, rfl, rfl⟩ | ⟨rfl, rfl, rfl⟩ | ⟨rfl, rfl, rfl⟩ | ⟨rfl, rfl, rfl⟩ | ⟨rfl, rfl, rfl⟩ |
    ⟨rfl, rfl, rfl⟩ | ⟨rfl, rfl, rfl⟩ | ⟨rfl, rfl, rfl⟩ | ⟨rfl, rfl, rfl⟩
  · obtain ⟨workdir, hworkdir⟩ := hargs.text_of_needed "workdir" (by simp) rfl .null
    obtain ⟨name, hname⟩ := hargs.text_arg "name" rfl defaultSession
    refine ⟨_, rfl, ?_⟩
    rw [hworkdir, hname]
    exact .start (hargs.overlay "config" rfl)
  · exact ⟨_, rfl, .sessions⟩
  · refine ⟨_, rfl, ?_⟩
    rw [hsession]
    exact .stop
  · exact ⟨_, rfl, hargs.isApt_visiting (by simp) .report⟩
  · obtain ⟨file, hfile⟩ := hargs.file (by simp)
    refine ⟨_, rfl, ?_⟩
    rw [hfile, hsession]
    exact .close
  · obtain ⟨file, hfile⟩ := hargs.file (by simp)
    refine ⟨_, rfl, ?_⟩
    rw [hfile, hsession]
    exact .reload
  · obtain ⟨line, hline⟩ := hargs.int_of_needed "line" (by simp) rfl .null
    have hline : lineArg args = .int line := hline
    refine ⟨_, rfl, hargs.isApt_visiting (by simp) ?_⟩
    rw [hline, hcol, hroom]
    exact .moveTo (hargs.timeout _)
  · refine ⟨_, rfl, hargs.isApt_visiting (by simp) ?_⟩
    rw [hcol, hroom]
    exact .interpret hargs.line (hargs.timeout _)
  · exact hargs.isApt_stepCall (by simp)
  · refine ⟨_, rfl, ?_⟩
    rw [hroom, hsession]
    exact .view
  · refine ⟨_, rfl, hargs.isApt_visiting (by simp) ?_⟩
    rw [hcol, hroom]
    exact .search hargs.line (hargs.seconds "wait" rfl ⟨_, rfl⟩) (hargs.timeout _)
  · exact ⟨_, rfl, hargs.isApt_questionCall (by simp)⟩
  · exact ⟨_, rfl, hargs.isApt_visiting (by simp) (.reset (hargs.timeout _))⟩
  · obtain ⟨file, hfile⟩ := hargs.file (by simp)
    refine ⟨_, rfl, ?_⟩
    rw [hfile, hsession]
    exact .highlights
  · refine ⟨_, rfl, ?_⟩
    rw [hsession]
    exact .configure (hargs.overlay "update" rfl)

end Tool
end CoqConsole
