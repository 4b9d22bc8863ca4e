import CoqConsole.Proofs.CommandLine.Words
import Mathlib.Data.List.Induction

/-!
# Options of a command line

A line that is read is options with the command among them or not. The command starts from the defaults, so what is
given before it is lost.

* `Setting`, `Gives`, `Line.Spells` : what words give, and the lines made of them;
* `Launch.ofSettings`, `AllSuperseded` : what runs if the last value counts, and when it is the same without the first
  values;
* `Line.Spells.unique` : one way to take the words;
* `readFrom_option`, `readFrom_command`, `readFrom_eq_run` : one step of reading, and `readFrom_gives`,
  `gives_of_readFrom` for all steps;
* `options_count_iff` : which lines are read, what runs, and when all options count.
-/

namespace CoqConsole.CommandLine

/-! ## What a line gives -/

/-- An option that is given, with its value. -/
inductive Setting
  | transport (t : Transport)
  | port (n : Int)
  | host (name : String)
  | verbose
  deriving DecidableEq, Repr

namespace Setting

def transport? : Setting → Option Transport
  | transport t => some t
  | _ => none

def port? : Setting → Option Int
  | port n => some n
  | _ => none

def host? : Setting → Option String
  | host name => some name
  | _ => none

/-- What a value says, for an option that takes one. -/
def Reads (flag : Flag) (value : String) : Setting → Prop
  | transport t => flag = .transport ∧ value = t.name
  | port n => flag = .port ∧ Number.numeral? value = some n
  | host name => flag = .host ∧ value = name
  | verbose => False

instance (flag : Flag) (value : String) : (s : Setting) → Decidable (s.Reads flag value)
  | transport _ => inferInstanceAs (Decidable (_ ∧ _))
  | port _ => inferInstanceAs (Decidable (_ ∧ _))
  | host _ => inferInstanceAs (Decidable (_ ∧ _))
  | verbose => inferInstanceAs (Decidable False)

end Setting

/-- The words of one option with its value. -/
inductive Setting.Spells : Setting → List String → Prop
  | letters {word : String} (h : IsVerbose word) : Spells .verbose [word]
  | named {name : String} (h : Names name .verbose) : Spells .verbose [name]
  | joined {name value : String} {flag : Flag} {s : Setting} (h : Names name flag) (hs : s.Reads flag value) :
      Spells s [name ++ "=" ++ value]
  | apart {name value : String} {flag : Flag} {s : Setting} (h : Names name flag) (hvalue : IsValue value)
      (hs : s.Reads flag value) : Spells s [name, value]

/-- What words give, if they are all options and their values. -/
inductive Gives : List String → List Setting → Prop
  | nil : Gives [] []
  | cons {s : Setting} {option words : List String} {settings : List Setting} (h : s.Spells option)
      (rest : Gives words settings) : Gives (option ++ words) (s :: settings)

/-- The options before the command, and those after it if there is a command. -/
structure Line where
  before : List Setting
  after : Option (List Setting)

namespace Line

inductive Spells : Line → List String → Prop
  | bare {words : List String} {before : List Setting} (h : Gives words before) : Spells ⟨before, none⟩ words
  | served {front back : List String} {before after : List Setting} (h : Gives front before)
      (h' : Gives back after) : Spells ⟨before, some after⟩ (front ++ "serve" :: back)

def given (line : Line) : List Setting := line.before ++ line.after.getD []

/-- The options from the command on, or all if there is no command. -/
def effective (line : Line) : List Setting := line.after.getD line.before

end Line

/-! ## What runs -/

/-- The last value of an option, or its default. -/
def lastOr {α : Type} (default : α) (value? : Setting → Option α) (settings : List Setting) : α :=
  (settings.filterMap value?).getLast?.getD default

namespace Launch

/-- An option takes the place of what was given for it before. -/
def set (l : Launch) : Setting → Launch
  | .transport t => { l with transport := t }
  | .port n => { l with port := n }
  | .host name => { l with host := name }
  | .verbose => { l with verbose := true }

/-- What runs if the last of what is given counts for each option. -/
def ofSettings (settings : List Setting) : Launch where
  transport := lastOr defaults.transport Setting.transport? settings
  host := lastOr defaults.host Setting.host? settings
  port := lastOr defaults.port Setting.port? settings
  verbose := decide (.verbose ∈ settings)

end Launch

/-- What is given first for an option makes no difference: it is given again, or what is given is its default. -/
def Superseded {α : Type} (default : α) (value? : Setting → Option α) (before after : List Setting) : Prop :=
  (∃ s ∈ after, (value? s).isSome) ∨ lastOr default value? before = default

/-- What is given first makes no difference for any option. -/
structure AllSuperseded (before after : List Setting) : Prop where
  transport : Superseded Launch.defaults.transport Setting.transport? before after
  host : Superseded Launch.defaults.host Setting.host? before after
  port : Superseded Launch.defaults.port Setting.port? before after
  verbose : .verbose ∈ before → .verbose ∈ after

theorem lastOr_append_eq_iff {α : Type} {default : α} {value? : Setting → Option α} {before after : List Setting} :
    lastOr default value? (before ++ after) = lastOr default value? after ↔ Superseded default value? before after := by
  simp only [lastOr, Superseded, List.filterMap_append, List.getLast?_append]
  cases hlast : (after.filterMap value?).getLast? with
  | none =>
    have hnone : ¬ ∃ s ∈ after, (value? s).isSome := by
      rw [List.getLast?_eq_none_iff, List.filterMap_eq_nil_iff] at hlast
      rintro ⟨s, hs, hsome⟩
      rw [hlast s hs] at hsome
      cases hsome
    simp [hnone]
  | some a =>
    have hsome : ∃ s ∈ after, (value? s).isSome := by
      obtain ⟨s, hs, hvalue⟩ := List.mem_filterMap.mp (List.mem_of_getLast? hlast)
      exact ⟨s, hs, by rw [hvalue, Option.isSome_some]⟩
    simp [hsome]

theorem ofSettings_append_eq_iff {before after : List Setting} :
    Launch.ofSettings (before ++ after) = .ofSettings after ↔ AllSuperseded before after := by
  have hverbose : decide (.verbose ∈ before ++ after) = decide (.verbose ∈ after) ↔
      (.verbose ∈ before → .verbose ∈ after) := by
    rw [decide_eq_decide, List.mem_append, or_iff_right_iff_imp]
  rw [Launch.ofSettings, Launch.ofSettings, Launch.mk.injEq, lastOr_append_eq_iff, lastOr_append_eq_iff,
    lastOr_append_eq_iff, hverbose]
  exact ⟨fun ⟨ht, hh, hp, hv⟩ => ⟨ht, hh, hp, hv⟩, fun ⟨ht, hh, hp, hv⟩ => ⟨ht, hh, hp, hv⟩⟩

theorem foldl_set (settings : List Setting) : settings.foldl Launch.set .defaults = .ofSettings settings := by
  induction settings using List.reverseRecOn with
  | nil => rfl
  | append_singleton settings s ih =>
    rw [List.foldl_append, ih]
    cases s <;>
      simp [Launch.set, Launch.ofSettings, lastOr, Setting.transport?, Setting.port?, Setting.host?]

/-! ## Values -/

theorem Transport.named?_eq_some_iff {name : String} {t : Transport} :
    Transport.named? name = some t ↔ name = t.name := by
  constructor
  · intro h
    have hbeq := List.find?_some h
    exact (eq_of_beq hbeq).symm
  · rintro rfl
    cases t <;> decide

theorem setValue_eq_some_iff {l l' : Launch} {flag : Flag} {value : String} :
    setValue l flag value = some l' ↔ ∃ s : Setting, s.Reads flag value ∧ l' = l.set s := by
  constructor
  · intro h
    cases flag with
    | help => cases h
    | verbose => cases h
    | transport =>
      obtain ⟨t, ht, rfl⟩ := Option.map_eq_some_iff.mp h
      exact ⟨.transport t, ⟨rfl, Transport.named?_eq_some_iff.mp ht⟩, rfl⟩
    | port =>
      obtain ⟨n, hn, rfl⟩ := Option.map_eq_some_iff.mp h
      exact ⟨.port n, ⟨rfl, hn⟩, rfl⟩
    | host =>
      cases h
      exact ⟨.host value, ⟨rfl, rfl⟩, rfl⟩
  · rintro ⟨s, hs, rfl⟩
    cases s with
    | transport t =>
      obtain ⟨rfl, hvalue⟩ := hs
      rw [setValue, Transport.named?_eq_some_iff.mpr hvalue]
      rfl
    | port n =>
      obtain ⟨rfl, hvalue⟩ := hs
      rw [setValue, hvalue]
      rfl
    | host name =>
      obtain ⟨rfl, rfl⟩ := hs
      rfl
    | verbose => exact hs.elim

theorem setValue_of_reads {s : Setting} {flag : Flag} {value : String} (h : s.Reads flag value) (l : Launch) :
    setValue l flag value = some (l.set s) :=
  setValue_eq_some_iff.mpr ⟨s, h, rfl⟩

theorem setFlags_eq_some_iff {l l' : Launch} {fs : List Flag} : setFlags l fs = some l' ↔
    .help ∉ fs ∧ l' = if fs = [] then l else { l with verbose := true } := by
  induction fs generalizing l with
  | nil => simp [setFlags, eq_comm]
  | cons f fs ih =>
    by_cases hf : f = .help
    · simp [hf, setFlags]
    · have hstep : setFlags l (f :: fs) = setFlags { l with verbose := true } fs := by
        rw [setFlags]
        exact hf
      rw [hstep, ih]
      simp [Ne.symm hf]

theorem setFlags_of_cluster {word : String} {fs : List Flag} (h : classify word = some (.cluster fs))
    (hhelp : .help ∉ fs) (l : Launch) : setFlags l fs = some { l with verbose := true } := by
  obtain ⟨_, _, f, gs, -, -, -, rfl⟩ := exists_of_classify_cluster h
  exact setFlags_eq_some_iff.mpr ⟨hhelp, rfl⟩

/-! ## Options and their words -/

theorem Setting.Reads.not_verbose {s : Setting} {value : String} : ¬ s.Reads .verbose value := by
  intro h
  have hset := setValue_of_reads h .defaults
  cases hset

theorem Setting.Reads.unique {s s' : Setting} {flag : Flag} {value : String} (h : s.Reads flag value)
    (h' : s'.Reads flag value) : s = s' := by
  cases s <;> cases s' <;> obtain ⟨rfl, hvalue⟩ := h <;> obtain ⟨hflag, hvalue'⟩ := h' <;> cases hflag
  · rw [← Transport.named?_eq_some_iff] at hvalue hvalue'
    rw [hvalue] at hvalue'
    cases hvalue'
    rfl
  · rw [hvalue] at hvalue'
    cases hvalue'
    rfl
  · rw [← hvalue, ← hvalue']

/-- What the words of an option are. -/
theorem Setting.spells_iff {s : Setting} {option : List String} : s.Spells option ↔
    (s = .verbose ∧ ∃ word fs, option = [word] ∧ classify word = some (.cluster fs) ∧ .help ∉ fs) ∨
    (s = .verbose ∧ ∃ word, option = [word] ∧ classify word = some (.long .verbose none)) ∨
    (∃ word flag value, option = [word] ∧ classify word = some (.long flag (some value)) ∧ s.Reads flag value) ∨
    (∃ word flag value, option = [word, value] ∧ classify word = some (.long flag none) ∧
      classify value = some (.operand value) ∧ s.Reads flag value) := by
  constructor
  · intro h
    cases h with
    | letters h =>
      obtain ⟨fs, hword, hhelp⟩ := isVerbose_iff.mp h
      exact .inl ⟨rfl, _, fs, rfl, hword, hhelp⟩
    | named h => exact .inr (.inl ⟨rfl, _, rfl, classify_named_iff.mpr h⟩)
    | joined h hs => exact .inr (.inr (.inl ⟨_, _, _, rfl, classify_joined_iff.mpr ⟨_, h, rfl⟩, hs⟩))
    | apart h hvalue hs =>
      exact .inr (.inr (.inr ⟨_, _, _, rfl, classify_named_iff.mpr h, classify_eq_operand_iff.mpr ⟨rfl, hvalue⟩, hs⟩))
  · rintro (⟨rfl, word, fs, rfl, hword, hhelp⟩ | ⟨rfl, word, rfl, hword⟩ | ⟨word, flag, value, rfl, hword, hs⟩ |
      ⟨word, flag, value, rfl, hword, hvalue, hs⟩)
    · exact .letters (isVerbose_iff.mpr ⟨fs, hword, hhelp⟩)
    · exact .named (classify_named_iff.mp hword)
    · obtain ⟨name, hname, rfl⟩ := classify_joined_iff.mp hword
      exact .joined hname hs
    · exact .apart (classify_named_iff.mp hword) (classify_eq_operand_iff.mp hvalue).2 hs

/-- The first word tells where an option ends and what it gives. -/
theorem Setting.Spells.unique {s s' : Setting} {option option' words words' : List String} (h : s.Spells option)
    (h' : s'.Spells option') (heq : option ++ words = option' ++ words') : s = s' ∧ words = words' := by
  -- both begin with the same word, and what it is leaves one form for both, but for `--verbose`, which takes no value
  rcases Setting.spells_iff.mp h with ⟨rfl, word, fs, rfl, hword, -⟩ | ⟨rfl, word, rfl, hword⟩ |
    ⟨word, flag, value, rfl, hword, hs⟩ | ⟨word, flag, value, rfl, hword, hvalue, hs⟩ <;>
  rcases Setting.spells_iff.mp h' with ⟨rfl, word', fs', rfl, hword', -⟩ | ⟨rfl, word', rfl, hword'⟩ |
    ⟨word', flag', value', rfl, hword', hs'⟩ | ⟨word', flag', value', rfl, hword', hvalue', hs'⟩ <;>
  obtain ⟨rfl, hrest⟩ := List.cons.inj heq <;>
  rw [hword] at hword' <;>
  cases hword'
  · exact ⟨rfl, hrest⟩
  · exact ⟨rfl, hrest⟩
  · exact absurd hs' Setting.Reads.not_verbose
  · exact ⟨hs.unique hs', hrest⟩
  · exact absurd hs Setting.Reads.not_verbose
  · obtain ⟨rfl, hwords⟩ := List.cons.inj hrest
    exact ⟨hs.unique hs', hwords⟩

theorem Setting.Spells.ne_nil {s : Setting} {option : List String} (h : s.Spells option) : option ≠ [] := by
  cases h <;> exact List.cons_ne_nil _ _

/-- The command is no option. -/
theorem classify_command : classify "serve" = some (.operand "serve") := by decide

def NoOption (words : List String) : Prop :=
  ∀ (s : Setting) (option rest : List String), s.Spells option → words ≠ option ++ rest

theorem noOption_nil : NoOption [] :=
  fun _ _ _ h heq => h.ne_nil (List.append_eq_nil_iff.mp heq.symm).1

theorem noOption_command (words : List String) : NoOption ("serve" :: words) := by
  intro s option rest h heq
  rcases Setting.spells_iff.mp h with ⟨-, word, fs, rfl, hword, -⟩ | ⟨-, word, rfl, hword⟩ |
    ⟨word, flag, value, rfl, hword, -⟩ | ⟨word, flag, value, rfl, hword, -⟩ <;>
  obtain ⟨rfl, -⟩ := List.cons.inj heq <;>
  cases classify_command.symm.trans hword

/-- Words give one list of options at most. -/
theorem Gives.unique {front front' words words' : List String} {settings settings' : List Setting}
    (h : Gives front settings) (h' : Gives front' settings') (hwords : NoOption words) (hwords' : NoOption words')
    (heq : front ++ words = front' ++ words') : settings = settings' ∧ words = words' := by
  induction h generalizing front' settings' with
  | nil =>
    cases h' with
    | nil => exact ⟨rfl, heq⟩
    | cons hs _ => exact absurd (heq.trans (List.append_assoc ..)) (hwords _ _ _ hs)
  | cons hs _ ih =>
    cases h' with
    | nil => exact absurd (heq.symm.trans (List.append_assoc ..)) (hwords' _ _ _ hs)
    | cons hs' hrest' =>
      rw [List.append_assoc, List.append_assoc] at heq
      obtain ⟨rfl, hrest⟩ := hs.unique hs' heq
      obtain ⟨rfl, hwords⟩ := ih hrest' hrest
      exact ⟨rfl, hwords⟩

/-- There is one way to take the words of a line. -/
theorem Line.Spells.unique {line line' : Line} {argv : List String} (h : line.Spells argv) (h' : line'.Spells argv) :
    line = line' := by
  cases h with
  | bare h =>
    generalize hargv : argv = argv' at h'
    cases h' with
    | bare h' =>
      obtain ⟨rfl, -⟩ := h.unique h' noOption_nil noOption_nil (by rw [hargv])
      rfl
    | served h' _ =>
      obtain ⟨-, hnil⟩ := h.unique h' noOption_nil (noOption_command _) (by rw [List.append_nil, hargv])
      cases hnil
  | @served front back _ _ h hback =>
    generalize hargv : front ++ "serve" :: back = argv' at h'
    cases h' with
    | bare h' =>
      obtain ⟨-, hnil⟩ := h.unique h' (noOption_command _) noOption_nil (by rw [List.append_nil, hargv])
      cases hnil
    | served h' hback' =>
      obtain ⟨rfl, hserve⟩ := h.unique h' (noOption_command _) (noOption_command _) hargv
      obtain ⟨-, rfl⟩ := List.cons.inj hserve
      obtain ⟨rfl, -⟩ := hback.unique hback' noOption_nil noOption_nil rfl
      rfl

/-! ## Reading -/

def readFrom (inServe : Bool) (l : Launch) (argv : List String) : Outcome :=
  match classifyAll argv with
  | some words => consume inServe l false words
  | none => .exit errorCode

/-- A word without a place is an error whatever follows. -/
theorem consume_extra {b extra : Bool} {l l' : Launch} (h : extra = true) (words : List Word) :
    consume b l extra words ≠ .run l' := by
  induction b, l, extra, words using consume.induct <;> simp_all [consume]

/-- An option without its value takes the next word. -/
theorem consume_named {b : Bool} {l l' : Launch} {flag : Flag} {words : List Word} (hverbose : flag ≠ .verbose)
    (h : consume b l false (.long flag none :: words) = .run l') : ∃ value rest m, words = .operand value :: rest ∧
      setValue l flag value = some m ∧ consume b m false rest = .run l' := by
  have hhelp : flag ≠ .help := by
    rintro rfl
    cases h
  cases words with
  | nil =>
    rw [consume] at h
    all_goals simp_all
  | cons word rest =>
    cases word with
    | operand value =>
      rw [consume] at h
      all_goals try assumption
      split at h
      · next m hset => exact ⟨value, rest, m, rfl, hset, h⟩
      · cases h
    | _ =>
      rw [consume] at h
      all_goals simp_all

theorem consume_value {s : Setting} {flag : Flag} {value : String} (h : s.Reads flag value) (b : Bool) (l : Launch)
    (words : List Word) : consume b l false (.long flag none :: .operand value :: words) =
      consume b (l.set s) false words := by
  have hset := setValue_of_reads h l
  cases flag with
  | help => cases hset
  | verbose => cases hset
  | _ =>
    rw [consume, hset]
    all_goals rintro ⟨⟩

/-- Going through words succeeds on an option whose value is allowed, and once on the command. -/
theorem consume_eq_run {b : Bool} {l l' : Launch} {word : Word} {words : List Word}
    (h : consume b l false (word :: words) = .run l') :
    (∃ fs m, word = .cluster fs ∧ setFlags l fs = some m ∧ consume b m false words = .run l') ∨
    (∃ flag value m, word = .long flag (some value) ∧ setValue l flag value = some m ∧
      consume b m false words = .run l') ∨
    (word = .long .verbose none ∧ consume b { l with verbose := true } false words = .run l') ∨
    (∃ flag value rest m, word = .long flag none ∧ words = .operand value :: rest ∧ setValue l flag value = some m ∧
      consume b m false rest = .run l') ∨
    (b = false ∧ word = .operand "serve" ∧ consume true .defaults false words = .run l') := by
  cases word with
  | operand value =>
    cases b with
    | true => exact absurd h (consume_extra rfl words)
    | false =>
      simp only [consume, Bool.false_eq_true, if_false] at h
      split at h
      · next hserve => exact .inr (.inr (.inr (.inr ⟨rfl, by rw [hserve], h⟩)))
      · cases h
  | marker => cases h
  | broken => cases h
  | stranger => exact absurd h (consume_extra rfl words)
  | cluster fs =>
    rw [consume] at h
    split at h
    · cases h
    · next m hset => exact .inl ⟨fs, m, rfl, hset, h⟩
  | long flag value =>
    cases value with
    | some value =>
      rw [consume] at h
      split at h
      · next m hset => exact .inr (.inl ⟨flag, value, m, rfl, hset, h⟩)
      · cases h
    | none =>
      by_cases hverbose : flag = .verbose
      · subst hverbose
        exact .inr (.inr (.inl ⟨rfl, h⟩))
      · obtain ⟨value, rest, m, hrest⟩ := consume_named hverbose h
        exact .inr (.inr (.inr (.inl ⟨flag, value, rest, m, rfl, hrest⟩)))

theorem classifyAll_cons {word : String} {w : Word} (h : classify word = some w) (words : List String) :
    classifyAll (word :: words) = (classifyAll words).map (w :: ·) := by
  have hmarker : word ≠ "--" := by
    rintro rfl
    have hnone : classify "--" = none := by decide
    rw [h] at hnone
    cases hnone
  rw [classifyAll, if_neg hmarker, h]
  cases classifyAll words <;> rfl

theorem exists_of_classifyAll {argv : List String} {w : Word} {ws : List Word}
    (h : classifyAll argv = some (w :: ws)) (hmarker : w ≠ .marker) :
    ∃ word words, argv = word :: words ∧ classify word = some w ∧ classifyAll words = some ws := by
  cases argv with
  | nil => cases h
  | cons word words =>
    rw [classifyAll] at h
    split at h
    · cases h
      exact absurd rfl hmarker
    · simp only [Option.bind_eq_bind, Option.bind_eq_some_iff, Option.pure_def, Option.some.injEq] at h
      obtain ⟨w', hw, ws', hws, heq⟩ := h
      obtain ⟨rfl, rfl⟩ := List.cons.inj heq
      exact ⟨word, words, rfl, hw, hws⟩

theorem eq_nil_of_classifyAll {argv : List String} (h : classifyAll argv = some []) : argv = [] := by
  cases argv with
  | nil => rfl
  | cons word words =>
    rw [classifyAll] at h
    split at h
    · cases h
    · simp [Option.bind_eq_some_iff] at h

/-- A word is read before the words behind it. -/
theorem readFrom_cons {b b' : Bool} {l m : Launch} {word : String} {w : Word} (h : classify word = some w)
    (hstep : ∀ ws, consume b l false (w :: ws) = consume b' m false ws) (words : List String) :
    readFrom b l (word :: words) = readFrom b' m words := by
  rw [readFrom, readFrom, classifyAll_cons h]
  cases classifyAll words with
  | none => rfl
  | some ws => exact hstep ws

theorem readFrom_command (l : Launch) (words : List String) :
    readFrom false l ("serve" :: words) = readFrom true .defaults words :=
  readFrom_cons classify_command (fun _ => rfl) words

/-- What one option does. -/
theorem readFrom_option {s : Setting} {option : List String} (h : s.Spells option) (b : Bool) (l : Launch)
    (words : List String) : readFrom b l (option ++ words) = readFrom b (l.set s) words := by
  rcases Setting.spells_iff.mp h with ⟨rfl, word, fs, rfl, hword, hhelp⟩ | ⟨rfl, word, rfl, hword⟩ |
    ⟨word, flag, value, rfl, hword, hs⟩ | ⟨word, flag, value, rfl, hword, hvalue, hs⟩
  · refine readFrom_cons hword (fun ws => ?_) words
    rw [consume, setFlags_of_cluster hword hhelp]
    rfl
  · exact readFrom_cons hword (fun _ => rfl) words
  · refine readFrom_cons hword (fun ws => ?_) words
    rw [consume, setValue_of_reads hs]
  · rw [List.cons_append, List.singleton_append, readFrom, readFrom, classifyAll_cons hword, classifyAll_cons hvalue]
    cases classifyAll words with
    | none => rfl
    | some ws => exact consume_value hs b l ws

theorem readFrom_gives {front : List String} {settings : List Setting} (h : Gives front settings) (b : Bool)
    (l : Launch) (words : List String) :
    readFrom b l (front ++ words) = readFrom b (settings.foldl Launch.set l) words := by
  induction h generalizing l with
  | nil => rfl
  | cons h _ ih => rw [List.append_assoc, readFrom_option h, ih, List.foldl_cons]

/-- Reading that succeeds takes one option after another, or the command. -/
theorem readFrom_eq_run {b : Bool} {l l' : Launch} {argv : List String} (h : readFrom b l argv = .run l') :
    argv = [] ∧ l' = l ∨
    (∃ (s : Setting) (option words : List String), s.Spells option ∧ argv = option ++ words ∧
      readFrom b (l.set s) words = .run l') ∨
    (b = false ∧ ∃ words, argv = "serve" :: words ∧ readFrom true .defaults words = .run l') := by
  rw [readFrom] at h
  cases hall : classifyAll argv with
  | none =>
    rw [hall] at h
    cases h
  | some ws =>
    rw [hall] at h
    cases ws with
    | nil =>
      cases h
      exact .inl ⟨eq_nil_of_classifyAll hall, rfl⟩
    | cons w ws =>
      have hmarker : w ≠ .marker := by
        rintro rfl
        cases h
      obtain ⟨word, words, rfl, hword, hwords⟩ := exists_of_classifyAll hall hmarker
      have hread (b : Bool) (m : Launch) : readFrom b m words = consume b m false ws := by rw [readFrom, hwords]
      rcases consume_eq_run h with ⟨fs, m, rfl, hset, hrest⟩ | ⟨flag, value, m, rfl, hset, hrest⟩ | ⟨rfl, hrest⟩ |
        ⟨flag, value, ws', m, rfl, rfl, hset, hrest⟩ | ⟨rfl, rfl, hrest⟩
      · have hhelp := (setFlags_eq_some_iff.mp hset).1
        obtain rfl := Option.some.inj (hset.symm.trans (setFlags_of_cluster hword hhelp l))
        have hspells := Setting.spells_iff.mpr (.inl ⟨rfl, word, _, rfl, hword, hhelp⟩)
        exact .inr (.inl ⟨.verbose, [word], words, hspells, rfl, (hread _ _).trans hrest⟩)
      · obtain ⟨s, hs, rfl⟩ := setValue_eq_some_iff.mp hset
        have hspells := Setting.spells_iff.mpr (.inr (.inr (.inl ⟨word, flag, value, rfl, hword, hs⟩)))
        exact .inr (.inl ⟨s, [word], words, hspells, rfl, (hread _ _).trans hrest⟩)
      · have hspells := Setting.spells_iff.mpr (.inr (.inl ⟨rfl, word, rfl, hword⟩))
        exact .inr (.inl ⟨.verbose, [word], words, hspells, rfl, (hread _ _).trans hrest⟩)
      · obtain ⟨s, hs, rfl⟩ := setValue_eq_some_iff.mp hset
        obtain ⟨next, rest, rfl, hnext, hrest'⟩ := exists_of_classifyAll hwords (by rintro ⟨⟩)
        obtain ⟨rfl, -⟩ := classify_eq_operand_iff.mp hnext
        have hspells := Setting.spells_iff.mpr (.inr (.inr (.inr ⟨word, flag, value, rfl, hword, hnext, hs⟩)))
        refine .inr (.inl ⟨s, [word, value], rest, hspells, rfl, ?_⟩)
        rw [readFrom, hrest']
        exact hrest
      · obtain ⟨rfl, -⟩ := classify_eq_operand_iff.mp hword
        exact .inr (.inr ⟨rfl, words, rfl, (hread _ _).trans hrest⟩)

/-- Reading that succeeds goes through options to the end, or to the command. -/
theorem gives_of_readFrom {b : Bool} {l l' : Launch} {argv : List String} (h : readFrom b l argv = .run l') :
    (∃ settings, Gives argv settings) ∨
    (b = false ∧ ∃ front back before, argv = front ++ "serve" :: back ∧ Gives front before ∧
      readFrom true .defaults back = .run l') := by
  -- on the number of words, since an option takes one or two
  induction hlength : argv.length using Nat.strong_induction_on generalizing l argv with
  | _ n ih =>
    rcases readFrom_eq_run h with ⟨rfl, -⟩ | ⟨s, option, words, hs, rfl, hrest⟩ | ⟨rfl, words, rfl, hrest⟩
    · exact .inl ⟨[], .nil⟩
    · have hshorter : words.length < n := by
        have hpos := List.length_pos_iff.mpr hs.ne_nil
        rw [List.length_append] at hlength
        omega
      rcases ih _ hshorter hrest rfl with ⟨settings, hgives⟩ | ⟨hb, front, back, before, rfl, hgives, hback⟩
      · exact .inl ⟨s :: settings, .cons hs hgives⟩
      · exact .inr ⟨hb, option ++ front, back, s :: before, (List.append_assoc ..).symm, .cons hs hgives, hback⟩
    · exact .inr ⟨rfl, [], words, [], rfl, .nil, hrest⟩

/-! ## Whole lines -/

theorem Line.Spells.parse {line : Line} {argv : List String} (h : line.Spells argv) :
    parse argv = .run (.ofSettings line.effective) := by
  change readFrom false .defaults argv = _
  cases h with
  | bare h =>
    have hread := readFrom_gives h false .defaults []
    rw [List.append_nil, foldl_set] at hread
    exact hread
  | served h h' =>
    have hread := readFrom_gives h' true .defaults []
    rw [List.append_nil, foldl_set] at hread
    rw [readFrom_gives h, readFrom_command]
    exact hread

theorem exists_line {argv : List String} {l : Launch} (h : parse argv = .run l) :
    ∃ line : Line, line.Spells argv := by
  rcases gives_of_readFrom (b := false) h with ⟨before, hgives⟩ | ⟨-, front, back, before, rfl, hgives, hback⟩
  · exact ⟨⟨before, none⟩, .bare hgives⟩
  · rcases gives_of_readFrom hback with ⟨after, hgives'⟩ | ⟨hserve, -⟩
    · exact ⟨⟨before, some after⟩, .served hgives hgives'⟩
    · cases hserve

/-- A line is read if it has nothing but options, with the command or without. What counts is the last value of each
option from the command on, so all that is given counts exactly if what is given before the command makes no
difference. -/
theorem options_count_iff (argv : List String) :
    ((∃ l, parse argv = .run l) ↔ ∃! line : Line, line.Spells argv) ∧
    ∀ line : Line, line.Spells argv →
      parse argv = .run (.ofSettings line.effective) ∧
      (parse argv = .run (.ofSettings line.given) ↔ ∀ after ∈ line.after, AllSuperseded line.before after) := by
  refine ⟨⟨fun ⟨l, hl⟩ => ?_, fun ⟨line, hline, _⟩ => ⟨_, hline.parse⟩⟩, fun line hline => ⟨hline.parse, ?_⟩⟩
  · obtain ⟨line, hline⟩ := exists_line hl
    exact ⟨line, hline, fun _ hother => hother.unique hline⟩
  · rw [hline.parse, Outcome.run.injEq]
    obtain ⟨before, after⟩ := line
    cases after with
    | none => simp [Line.effective, Line.given]
    | some after => simp [Line.effective, Line.given, ← ofSettings_append_eq_iff, eq_comm]

/-- The transport and the letter before the command do not count. -/
theorem options_count_served : ∃ line : Line,
    line.Spells ["--transport", "http", "-v", "serve", "--po=9000"] ∧
    line.given = [.transport .http, .verbose, .port 9000] ∧
    parse ["--transport", "http", "-v", "serve", "--po=9000"] = .run ⟨.stdio, "127.0.0.1", 9000, false⟩ ∧
    parse ["--transport", "http", "-v", "serve", "--po=9000"] ≠ .run (.ofSettings line.given) := by
  have hfront : Gives ["--transport", "http", "-v"] [.transport .http, .verbose] :=
    .cons (.apart (by decide : Names _ .transport) (.inl (by decide)) (by decide))
      (.cons (.letters ⟨0, .inl (by decide)⟩) .nil)
  have hback : Gives ["--po=9000"] [.port 9000] :=
    .cons (.joined (by decide : Names "--po" .port) (by decide : Setting.Reads .port "9000" (.port 9000))) .nil
  have hline : Line.Spells ⟨_, some _⟩ _ := .served hfront hback
  obtain ⟨heffective, hgiven⟩ := (options_count_iff _).2 _ hline
  refine ⟨_, hline, rfl, heffective, fun h => ?_⟩
  have hverbose := (hgiven.mp h _ rfl).verbose (by decide)
  exact absurd hverbose (by decide)

end CoqConsole.CommandLine
