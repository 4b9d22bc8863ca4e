import CoqConsole.Json.Value
import Mathlib.Computability.RegularExpressions

/-!
# What messages say of a document

A server knows the text of a document only from three kinds of message: one opens it, others bring new texts, one
closes it. All other messages that name it say which version they are about.

* `Word`, `Word.of?` : what a message says of a document, its versions and texts as they were written;
* `Word.Hears`, `Word.Spoken` : how the copy that the server has changes with a word, and with words that are in order;
* `Word.episodes` : the language of documents that are opened, changed and closed;
* `Spoken.letters_prefix`, `Spoken.versions_ascending`, `Spoken.last`, `Spoken.named_eq` : what words in order come to.
-/

namespace CoqConsole

/-- What a message says of a document. -/
inductive Word
  | opened (version text : Json)
  | changed (version text : Json)
  | closed
  /-- Anything else that is about a version of it. -/
  | named (version : Json)

namespace Word

/-! ## Reading messages -/

/-- The text that the one change of a message brings. -/
def newText (params : Json) : Json :=
  match params.get? "contentChanges" with
  | some (.array [change]) => (change.get? "text").getD .null
  | _ => .null

/-- What a message says of the document that it names. -/
def ofMethod (method : String) (params document : Json) : Word :=
  let version := (document.get? "version").getD .null
  if method = "textDocument/didOpen" then .opened version ((document.get? "text").getD .null)
  else if method = "textDocument/didChange" then .changed version (newText params)
  else if method = "textDocument/didClose" then .closed
  else .named version

/-- What a message says of the document of an address, if it names it. -/
def of? (uri : String) (message : String × Json) : Option Word :=
  match message.2.get? "textDocument" with
  | none => none
  | some document =>
    match document.get? "uri" with
    | some (.text address) => if address = uri then some (ofMethod message.1 message.2 document) else none
    | _ => none

/-! ## Words in order -/

/-- How a word changes the copy that the server has, a version and a text, if it may come at all. A change brings a
later version, and what else is about the document is about the version of the copy. -/
inductive Hears : Option (Int × String) → Word → Option (Int × String) → Prop
  | opened (version : Int) (text : String) : Hears none (.opened (.int version) (.text text)) (some (version, text))
  | changed {version later : Int} {text : String} (next : String) (h : version < later) :
    Hears (some (version, text)) (.changed (.int later) (.text next)) (some (later, next))
  | closed (copy : Int × String) : Hears (some copy) .closed none
  | named (version : Int) (text : String) :
    Hears (some (version, text)) (.named (.int version)) (some (version, text))
  | stray (version : Json) : Hears none (.named version) none

/-- The words can come one after the other, and take one copy to the other. -/
def Spoken : Option (Int × String) → List Word → Option (Int × String) → Prop
  | copy, [], copy' => copy' = copy
  | copy, w :: ws, copy' => ∃ next, Hears copy w next ∧ Spoken next ws copy'

theorem spoken_append {copy copy' : Option (Int × String)} {ws vs : List Word} :
    Spoken copy (ws ++ vs) copy' ↔ ∃ next, Spoken copy ws next ∧ Spoken next vs copy' := by
  induction ws generalizing copy with
  | nil => exact ⟨fun h => ⟨copy, rfl, h⟩, fun ⟨_, he, h⟩ => he ▸ h⟩
  | cons w ws ih =>
    constructor
    · rintro ⟨next, hw, h⟩
      obtain ⟨last, hws, hvs⟩ := ih.mp h
      exact ⟨last, ⟨next, hw, hws⟩, hvs⟩
    · rintro ⟨last, ⟨next, hw, hws⟩, hvs⟩
      exact ⟨next, hw, ih.mpr ⟨last, hws, hvs⟩⟩

theorem spoken_snoc {copy copy' : Option (Int × String)} {ws : List Word} {w : Word} :
    Spoken copy (ws ++ [w]) copy' ↔ ∃ next, Spoken copy ws next ∧ Hears next w copy' := by
  rw [spoken_append]
  constructor
  · rintro ⟨next, hws, last, hw, rfl⟩
    exact ⟨next, hws, hw⟩
  · rintro ⟨next, hws, hw⟩
    exact ⟨next, hws, copy', hw, rfl⟩

/-! ## What they come to -/

inductive Letter
  | opened
  | changed
  | closed
  deriving DecidableEq

def letter? : Word → Option Letter
  | opened .. => some .opened
  | changed .. => some .changed
  | closed => some .closed
  | named _ => none

def content? : Word → Option (Json × Json)
  | opened version text | changed version text => some (version, text)
  | _ => none

/-- The version that a word brings, as a number. -/
def version? : Word → Option Int
  | opened (.int version) _ | changed (.int version) _ => some version
  | _ => none

/-- A document is opened, changed any number of times and closed, again and again. -/
def episodes : RegularExpression Letter :=
  (.char .opened * (RegularExpression.char .changed).star * .char .closed).star

/-- The copy is there exactly while the last of the three kinds was not a closing. -/
def IsOpen (ws : List Word) : Prop :=
  (ws.filterMap letter?).getLast? = some .opened ∨ (ws.filterMap letter?).getLast? = some .changed

theorem changes_mem (k : Nat) : List.replicate k Letter.changed ∈ (RegularExpression.char Letter.changed).star.matches' := by
  rw [RegularExpression.matches'_star, Language.mem_kstar]
  refine ⟨List.replicate k [Letter.changed], by simp, fun y hy => ?_⟩
  rw [(List.mem_replicate.mp hy).2]
  rfl

theorem mem_episodes_append {before : List Letter} (h : before ∈ episodes.matches') (k : Nat) :
    before ++ .opened :: List.replicate k .changed ++ [.closed] ∈ episodes.matches' := by
  unfold episodes at h ⊢
  rw [RegularExpression.matches'_star] at h ⊢
  obtain ⟨parts, rfl, hparts⟩ := Language.mem_kstar.mp h
  refine Language.mem_kstar.mpr
    ⟨parts ++ [.opened :: List.replicate k .changed ++ [.closed]], by simp, fun y hy => ?_⟩
  rcases List.mem_append.mp hy with hy | hy
  · exact hparts y hy
  · rw [List.mem_singleton.mp hy, RegularExpression.matches'_mul, RegularExpression.matches'_mul]
    have hopened : [Letter.opened] ∈ (RegularExpression.char Letter.opened).matches' := rfl
    have hclosed : [Letter.closed] ∈ (RegularExpression.char Letter.closed).matches' := rfl
    exact Language.append_mem_mul (Language.append_mem_mul hopened (changes_mem k)) hclosed

namespace Spoken

variable {ws : List Word} {copy : Option (Int × String)}

/-- While there is no copy the episodes are over; while there is one the last of them goes on. -/
theorem letters_eq (h : Spoken none ws copy) :
    match copy with
    | none => ws.filterMap letter? ∈ episodes.matches'
    | some _ => ∃ before k, before ∈ episodes.matches' ∧
        ws.filterMap letter? = before ++ .opened :: List.replicate k .changed := by
  induction ws using List.reverseRecOn generalizing copy with
  | nil =>
    obtain rfl : copy = none := h
    exact Language.nil_mem_kstar _
  | append_singleton ws w ih =>
    obtain ⟨next, hws, hw⟩ := spoken_snoc.mp h
    have ih := ih hws
    rw [List.filterMap_append]
    cases hw with
    | opened version text => exact ⟨_, 0, ih, rfl⟩
    | changed text hlater =>
      obtain ⟨before, k, hbefore, hletters⟩ := ih
      refine ⟨before, k + 1, hbefore, ?_⟩
      rw [hletters, List.replicate_succ', List.append_assoc]
      rfl
    | closed copy =>
      obtain ⟨before, k, hbefore, hletters⟩ := ih
      rw [hletters]
      exact mem_episodes_append hbefore k
    | named version text => simpa [List.filterMap_cons, letter?] using ih
    | stray version => simpa [List.filterMap_cons, letter?] using ih

theorem letters_prefix (h : Spoken none ws copy) : ∃ rest, ws.filterMap letter? ++ rest ∈ episodes.matches' := by
  have hletters := h.letters_eq
  cases copy with
  | none => exact ⟨[], by simpa using hletters⟩
  | some c =>
    obtain ⟨before, k, hbefore, hletters⟩ := hletters
    exact ⟨[.closed], by rw [hletters]; exact mem_episodes_append hbefore k⟩

/-- Up to the next closing each version that comes is later than those before. -/
theorem versions_eq {first : Option (Int × String)} (h : Spoken first ws copy) (hopen : .closed ∉ ws) :
    match copy with
    | none => ws.filterMap version? = []
    | some c => (ws.filterMap version?).Pairwise (· < ·) ∧ ∀ v ∈ ws.filterMap version?, v ≤ c.1 := by
  induction ws using List.reverseRecOn generalizing copy with
  | nil => cases copy <;> simp
  | append_singleton ws w ih =>
    obtain ⟨next, hws, hw⟩ := spoken_snoc.mp h
    have ih := ih hws fun hmem => hopen (List.mem_append_left _ hmem)
    rw [List.filterMap_append]
    cases hw with
    | opened version text =>
      rw [show ws.filterMap version? = [] from ih]
      simp [version?]
    | changed text hlater =>
      obtain ⟨hpairwise, hle⟩ := ih
      have hlt : ∀ v ∈ ws.filterMap version?, v < _ := fun v hv => Int.lt_of_le_of_lt (hle v hv) hlater
      refine ⟨List.pairwise_append.mpr ⟨hpairwise, by simp [version?], ?_⟩, ?_⟩
      · simpa [version?] using hlt
      · intro v hv
        rcases List.mem_append.mp hv with hv | hv
        · exact Int.le_of_lt (hlt v hv)
        · exact Int.le_of_eq (List.mem_singleton.mp hv)
    | closed copy => exact absurd (List.mem_append_right _ (List.mem_singleton_self _)) hopen
    | named version text => simpa [List.filterMap_cons, version?] using ih
    | stray version => simpa [List.filterMap_cons, version?] using ih

theorem versions_ascending (h : Spoken none ws copy) {before middle after : List Word}
    (hsplit : ws = before ++ middle ++ after) (hopen : .closed ∉ middle) :
    (middle.filterMap version?).Pairwise (· < ·) := by
  rw [hsplit] at h
  obtain ⟨_, h, -⟩ := spoken_append.mp h
  obtain ⟨_, -, h⟩ := spoken_append.mp h
  have hversions := h.versions_eq hopen
  split at hversions
  · rw [hversions]
    exact List.Pairwise.nil
  · exact hversions.1

/-- The copy is what came last. -/
theorem last (h : Spoken none ws copy) :
    match copy with
    | none => ¬ IsOpen ws
    | some (version, text) =>
      IsOpen ws ∧ (ws.filterMap content?).getLast? = some (.int version, .text text) := by
  induction ws using List.reverseRecOn generalizing copy with
  | nil =>
    obtain rfl : copy = none := h
    simp [IsOpen]
  | append_singleton ws w ih =>
    obtain ⟨next, hws, hw⟩ := spoken_snoc.mp h
    have ih := ih hws
    unfold IsOpen at ih ⊢
    rw [List.filterMap_append, List.filterMap_append]
    cases hw with
    | opened version text => simp [letter?, content?]
    | changed text hlater => simp [letter?, content?]
    | closed copy => simp [letter?]
    | named version text => simpa [List.filterMap_cons, letter?, content?] using ih
    | stray version => simpa [List.filterMap_cons, letter?] using ih

theorem named_eq (h : Spoken none ws copy) {before after : List Word} {version : Json}
    (hsplit : ws = before ++ .named version :: after) (hopen : IsOpen before) :
    ∃ text, (before.filterMap content?).getLast? = some (version, text) := by
  rw [hsplit] at h
  obtain ⟨next, hbefore, _, hw, -⟩ := spoken_append.mp h
  have hlast := hbefore.last
  cases hw with
  | named version text => exact ⟨_, hlast.2⟩
  | stray version => exact absurd hopen hlast

end Spoken

end Word
end CoqConsole
