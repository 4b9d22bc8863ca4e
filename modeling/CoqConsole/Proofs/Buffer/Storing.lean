import CoqConsole.Files
import CoqConsole.Proofs.Buffer.Soundness
import CoqConsole.Proofs.Utf8

/-!
# The text that a buffer stores

A buffer keeps the lines of the text that it was last given, and is told apart from other texts by their digests. A
digest drops the return before each newline, and so does the buffer before its own text is digested: where two returns
stand before a newline the two digests are of different texts.

* `stampOf`, `digest_eq` : the digest of a text is the stamp of its lines put together again;
* `given` : the text that was set last in a play;
* `Stores` : what a buffer shows of the text that it was given;
* `stores_throughout` : every buffer stores so, whoever gave it the text.
-/

namespace CoqConsole.Buffer

variable {κ μ : Type} {b : Buffer κ μ} {t : String}

/-- The digest of a text as it stands. -/
def stampOf (s : String) : String := Sha256.hexDigest (Utf8.encode s.toList)

theorem digest_eq (s : String) : digest s = stampOf (Text.normal s) := rfl

theorem text_eq_normal (h : b.lines = Text.lines t) : b.text = Text.normal t := by
  rw [text, h, Text.normal]

/-! ## What is stored -/

/-- A buffer holds the lines of the text that it was given. Its digest is that of the text, being taken of the same
characters, if no two returns stand before a newline; then its own text has its lines, and otherwise it has not. -/
structure Stores (t : String) (b : Buffer κ μ) : Prop where
  lines : b.lines = Text.lines t
  text : b.text = Text.normal t
  hashed : b.hash = stampOf (Text.normal b.text)
  digested : digest t = stampOf (Text.normal t)
  same_iff : Text.normal b.text = Text.normal t ↔ Text.Settled t
  agrees : Text.Settled t → b.hash = digest t
  again_iff : (b.replaceText b.text).lines = b.lines ↔ Text.Settled t

theorem stores_of_lines (h : b.lines = Text.lines t) : Stores t b where
  lines := h
  text := text_eq_normal h
  hashed := rfl
  digested := rfl
  same_iff := by rw [text_eq_normal h, Text.normal_normal_iff]
  agrees hsettled := by rw [hash, digest_eq, digest_eq, text_eq_normal h, Text.normal_normal_iff.mpr hsettled]
  again_iff := by
    show Text.lines b.text = b.lines ↔ _
    rw [text_eq_normal h, h, Text.lines_normal_iff]

/-! ## What is given -/

def Move.text? : Move κ μ → Option String
  | act (.setText t) => some t
  | _ => none

/-- The text that was set last, or that the buffer was made of. -/
def given (text : String) (ms : List (Move κ μ)) : String := (ms.filterMap Move.text?).getLastD text

theorem given_append (text : String) (ms : List (Move κ μ)) (m : Move κ μ) :
    given text (ms ++ [m]) = m.text?.getD (given text ms) := by
  rw [given, List.filterMap_append, given]
  cases hm : m.text? <;> simp [hm]

/-- Nothing but a new text changes the lines. -/
theorem lines_apply (b : Buffer κ μ) (d : Deed κ μ) :
    (d.apply b).lines = ((Move.act d).text?.map Text.lines).getD b.lines := by
  cases d with
  | setCursor p =>
    obtain ⟨cursor, hmoved⟩ := Deed.apply_setCursor b p
    rw [hmoved]
    rfl
  | cancel handle =>
    obtain ⟨subscriptions, rolls, hcancel⟩ := Deed.apply_cancel b handle
    rw [hcancel]
    rfl
  | _ => rfl

namespace Scene

theorem lines_stepped {s s' : Scene κ μ} {m : Move κ μ} {t : String} (h : s.buffer.lines = Text.lines t)
    (hstep : Stepped s m s') : s'.buffer.lines = Text.lines (m.text?.getD t) := by
  have hdeed (d : Deed κ μ) : (d.apply s.buffer).lines = Text.lines ((Move.act d).text?.getD t) := by
    rw [lines_apply, h]
    cases (Move.act d).text? <;> rfl
  cases hstep with
  | quiet => exact hdeed _
  | emitting => exact hdeed _
  | _ => exact h

/-- The buffer has the lines of the text that it was last given. -/
theorem lines_play {uri text language : String} {ms : List (Move κ μ)} {s : Scene κ μ}
    (h : (opening (ofText uri text language)).play ms = some s) : s.buffer.lines = Text.lines (given text ms) := by
  refine play_induction (P := fun ms s => s.buffer.lines = Text.lines (given text ms)) rfl ?_ h
  intro ms s m s' hlines hstep
  rw [given_append]
  exact lines_stepped hlines hstep

end Scene

/-- Whatever is done to a buffer, by its owner and by the listeners that are called, it stores the text that it was last
given. So it is after every run of scripts; and the digest of what is read from a file is that of the buffer that it
is given to. -/
theorem stores_throughout (uri text language : String) :
    (∀ (ms : List (Move κ μ)) (s : Scene κ μ), (Scene.opening (ofText uri text language)).play ms = some s →
      Stores (given text ms) s.buffer) ∧
    (∀ (depth : Nat) (scripts : List (Script μ)),
      let stage := Stage.follow depth (Stage.start (ofText uri text language)) scripts
      ∃ ms s, (Scene.opening (ofText uri text language)).play ms = some s ∧ s.underWay = [] ∧ stage.Shows s ∧
        Stage.Follows depth scripts (Stage.start (ofText uri text language)) ms stage ∧
        Stores (given text ms) stage.buffer) ∧
    ∀ (files : Files) (p : Path) (t : String), files.readText p = .ok t → Text.Settled t := by
  refine ⟨fun ms s h => stores_of_lines (Scene.lines_play h), fun depth scripts => ?_, fun files p t h => ?_⟩
  · obtain ⟨ms, s, hplay, hunder, hshows, hfollows⟩ := Stage.exists_play (ofText uri text language) depth scripts
    exact ⟨ms, s, hplay, hunder, hshows, hfollows, stores_of_lines (hshows.1 ▸ Scene.lines_play hplay)⟩
  · unfold Files.readText at h
    split at h
    · split at h
      · cases h
        refine Text.settled_of_return_notMem ?_
        rw [String.toList_ofList]
        exact Text.return_notMem_universalEnds _
      · cases h
    · split at h <;> cases h

/-- Two returns before a newline: the buffer stores one of them, digests none, and loses it when it is given its own
text. Read from a file the same text has neither. -/
theorem stores_throughout_doubled :
    let t := "a\r\r\nb"
    let ms : List (Move Unit Mark) := [.act (.setText t), .finish]
    let files : Files := ⟨[(⟨["A.v"]⟩, Utf8.encode t.toList)], []⟩
    ∃ s, (Scene.opening (ofText "u" "" "coq")).play ms = some s ∧ Stores t s.buffer ∧ ¬ Text.Settled t ∧
      s.buffer.text = "a\r\nb" ∧ s.buffer.hash = stampOf "a\nb" ∧ s.buffer.hash ≠ digest t ∧
      (s.buffer.replaceText s.buffer.text).lines = ["a", "b"] ∧
      files.readText ⟨["A.v"]⟩ = .ok "a\n\nb" ∧ Text.Settled "a\n\nb" := by
  intro t ms files
  have hread : files.readText ⟨["A.v"]⟩ = .ok "a\n\nb" := by
    have hfound : Keyed.get? ⟨["A.v"]⟩ files.contents = some (Utf8.encode t.toList) := rfl
    have hends : String.ofList (Text.universalEnds t.toList) = "a\n\nb" := by decide
    simp only [Files.readText, hfound, Utf8.decode?_encode, hends]
  have hstores := @stores_throughout Unit Mark "u" "" "coq"
  refine ⟨_, rfl, hstores.1 ms _ rfl, by decide, by decide, by decide +kernel, by decide +kernel, by decide, hread,
    hstores.2.2 files _ _ hread⟩

end CoqConsole.Buffer
