import CoqConsole.CommandLine
import Mathlib.Data.List.TakeWhile

/-!
# Words of a command line

What each word is can be said without the order in which the rules are tried.

* `Names`, `IsVerbose`, `IsValue` : what names an option, what letters say, and what may be a value;
* `classify_eq_operand_iff` : values;
* `classify_named_iff`, `classify_joined_iff` : long options, without a value and with one behind an equals sign;
* `isVerbose_iff` : letters.
-/

namespace CoqConsole.CommandLine

def flagsBegun (cs : List Char) : List Flag :=
  (longFlags.filter fun (long, _) => cs.isPrefixOf long.toList).map Prod.snd

/-- A long name of an option, or a beginning of it that begins no other. -/
def Names (name : String) (flag : Flag) : Prop := flagsBegun name.toList = [flag]

instance (name : String) (flag : Flag) : Decidable (Names name flag) := inferInstanceAs (Decidable (_ = _))

/-- A word of the letter `v` behind a dash, repeated at will; more of it may also stand behind an equals sign. -/
def IsVerbose (word : String) : Prop :=
  ∃ n, word.toList = '-' :: 'v' :: List.replicate n 'v' ∨
    word.toList = '-' :: 'v' :: '=' :: 'v' :: List.replicate n 'v'

/-- Two dashes and what begins a long name, up to an equals sign, or a dash and the letter of an option. -/
def MeansOption : List Char → Prop
  | '-' :: '-' :: cs => flagsBegun (('-' :: '-' :: cs).takeWhile (· != '=')) ≠ []
  | '-' :: c :: _ => (shortFlag? c).isSome
  | _ => False

/-- A word that is taken for a value: it has no dash in front, or it is a dash, or it means no option and is a negative
number or has a blank in it. -/
def IsValue (word : String) : Prop :=
  word.toList.head? ≠ some '-' ∨ word = "-" ∨
    ¬ MeansOption word.toList ∧ (isNegativeNumber word.toList ∨ ' ' ∈ word.toList)

/-! ## Words -/

theorem flagsBegun_long : ∀ entry ∈ longFlags,
    (longFlags.filter fun (long, _) => entry.1.toList.isPrefixOf long.toList) = [entry] := by
  decide

/-- A name that is written out needs no rule of its own. -/
theorem classifyLong_eq_some_iff {cs : List Char} {w : Word} : classifyLong cs = some w ↔
    flagsBegun (cutValue cs).1 = [] ∧ w = unmatched cs ∨
      ∃ flag, flagsBegun (cutValue cs).1 = [flag] ∧ w = .long flag (cutValue cs).2 := by
  unfold classifyLong flagsBegun
  simp only
  cases hfind : longFlags.find? fun (long, _) => long.toList == (cutValue cs).1 with
  | some entry =>
    have hname : entry.1.toList = (cutValue cs).1 := by
      have hbeq := List.find?_some hfind
      exact eq_of_beq hbeq
    rw [← hname, flagsBegun_long _ (List.mem_of_find?_eq_some hfind)]
    simp [@eq_comm _ w]
  | none =>
    obtain ⟨entries, hentries⟩ : ∃ entries,
      (longFlags.filter fun (long, _) => (cutValue cs).1.isPrefixOf long.toList) = entries := ⟨_, rfl⟩
    rw [hentries]
    cases entries with
    | nil => simp [@eq_comm _ w]
    | cons entry entries => cases entries <;> simp [@eq_comm _ w]

theorem cutValue_of_notMem {cs : List Char} (h : '=' ∉ cs) : cutValue cs = (cs, none) := by
  have htake : cs.takeWhile (· != '=') = cs := by
    rw [List.takeWhile_eq_self_iff]
    intro c hc
    exact bne_iff_ne.mpr (ne_of_mem_of_not_mem hc h)
  simp [cutValue, htake]

theorem cutValue_append {cs : List Char} (h : '=' ∉ cs) (value : String) :
    cutValue (cs ++ '=' :: value.toList) = (cs, some value) := by
  have htake : (cs ++ '=' :: value.toList).takeWhile (· != '=') = cs := by
    rw [List.takeWhile_append_of_pos fun c hc => bne_iff_ne.mpr (ne_of_mem_of_not_mem hc h)]
    simp
  simp [cutValue, htake]

theorem cutValue_cases (cs : List Char) :
    '=' ∉ cs ∨ ∃ (name : List Char) (value : String), '=' ∉ name ∧ cs = name ++ '=' :: value.toList := by
  by_cases h : '=' ∈ cs
  · obtain ⟨name, value, rfl, hname⟩ := List.eq_append_cons_of_mem h
    exact .inr ⟨name, String.ofList value, hname, by rw [String.toList_ofList]⟩
  · exact .inl h

theorem exists_of_mem_flagsBegun {cs : List Char} {flag : Flag} (h : flag ∈ flagsBegun cs) :
    ∃ entry ∈ longFlags, cs <+: entry.1.toList := by
  obtain ⟨entry, hentry, -⟩ := List.mem_map.mp h
  obtain ⟨hmem, hbegun⟩ := List.mem_filter.mp hentry
  exact ⟨entry, hmem, List.isPrefixOf_iff_prefix.mp hbegun⟩

theorem Names.equals_notMem {name : String} {flag : Flag} (h : Names name flag) : '=' ∉ name.toList := by
  obtain ⟨entry, hentry, hbegins⟩ := exists_of_mem_flagsBegun (h ▸ List.mem_singleton_self flag)
  have hnone : ∀ entry ∈ longFlags, '=' ∉ entry.1.toList := by decide
  exact fun hmem => hnone entry hentry (hbegins.subset hmem)

/-- Fewer characters than the two dashes begin every long name. -/
theorem Names.dashes {name : String} {flag : Flag} (h : Names name flag) : ∃ cs, name.toList = '-' :: '-' :: cs := by
  obtain ⟨entry, hentry, rest, hrest⟩ := exists_of_mem_flagsBegun (h ▸ List.mem_singleton_self flag)
  have htwo : ∀ entry ∈ longFlags, entry.1.toList.take 2 = ['-', '-'] := by decide
  have hlead := htwo entry hentry
  have hone : (flagsBegun name.toList).length = 1 := congrArg List.length h
  rw [← hrest] at hlead
  rcases hcs : name.toList with _ | ⟨c, _ | ⟨d, cs⟩⟩
  · rw [hcs] at hone
    exact absurd hone (by decide)
  · rw [hcs] at hlead hone
    obtain rfl : c = '-' := (List.cons.inj hlead).1
    exact absurd hone (by decide)
  · rw [hcs] at hlead
    obtain ⟨rfl, hd⟩ := List.cons.inj hlead
    obtain ⟨rfl, -⟩ := List.cons.inj hd
    exact ⟨cs, rfl⟩

/-! ## What a word is -/

/-- A word has two dashes in front, or one and a letter, or neither. -/
theorem classify_cases (word : String) :
    (∃ cs, word.toList = '-' :: '-' :: cs ∧ classify word = classifyLong word.toList) ∨
    (∃ c cs, word.toList = '-' :: c :: cs ∧ c ≠ '-' ∧
      (shortFlag? c = none ∧ classify word = some (unmatched word.toList) ∨
        ∃ f, shortFlag? c = some f ∧
          classify word = some ((letters? (followers cs)).elim .broken fun fs => .cluster (f :: fs)))) ∨
    (word.toList.head? ≠ some '-' ∨ word = "-") ∧ classify word = some (.operand word) := by
  rcases hcs : word.toList with _ | ⟨d, _ | ⟨c, cs⟩⟩
  · exact .inr (.inr ⟨.inl (by simp), by simp only [classify, hcs]⟩)
  · refine .inr (.inr ⟨?_, by simp [classify, hcs]⟩)
    by_cases hd : d = '-'
    · subst hd
      exact .inr (String.toList_inj.mp hcs)
    · exact .inl (by simp [hd])
  · by_cases hd : d = '-'
    · subst hd
      by_cases hc : c = '-'
      · subst hc
        exact .inl ⟨cs, rfl, by simp only [classify, hcs]⟩
      · refine .inr (.inl ⟨c, cs, rfl, hc, ?_⟩)
        cases hflag : shortFlag? c with
        | none => exact .inl ⟨rfl, by simp [classify, hcs, hflag]⟩
        | some f =>
          refine .inr ⟨f, rfl, ?_⟩
          cases hletters : letters? (followers cs) <;> simp [classify, hcs, hflag, hletters]
    · exact .inr (.inr ⟨.inl (by simp [hd]), by simp [classify, hcs, hd]⟩)

theorem unmatched_eq_operand_iff {word value : String} : unmatched word.toList = .operand value ↔
    value = word ∧ (isNegativeNumber word.toList ∨ ' ' ∈ word.toList) := by
  simp only [unmatched, List.contains_iff_mem]
  split
  · next h => simp [h, @eq_comm _ word]
  · next h => simp [h]

theorem isValue_iff_of_dash {word : String} {c : Char} {cs : List Char} (h : word.toList = '-' :: c :: cs) :
    IsValue word ↔ ¬ MeansOption word.toList ∧ (isNegativeNumber word.toList ∨ ' ' ∈ word.toList) := by
  have hhead : word.toList.head? = some '-' := by rw [h, List.head?_cons]
  have hdash : word ≠ "-" := by
    rintro rfl
    cases h
  rw [IsValue]
  simp only [hhead, hdash, ne_eq, not_true, false_or]

/-- Values are the words that mean no option. -/
theorem classify_eq_operand_iff {word value : String} :
    classify word = some (.operand value) ↔ value = word ∧ IsValue word := by
  rcases classify_cases word with ⟨cs, hcs, h⟩ | ⟨c, cs, hcs, hc, ⟨hflag, h⟩ | ⟨f, hflag, h⟩⟩ | ⟨hfront, h⟩
  · have hmeans : MeansOption word.toList ↔ flagsBegun (cutValue word.toList).1 ≠ [] := by
      rw [hcs]
      rfl
    rw [h, classifyLong_eq_some_iff, isValue_iff_of_dash hcs, hmeans, not_not, @eq_comm _ (Word.operand value),
      unmatched_eq_operand_iff, and_left_comm]
    simp
  · have hmeans : ¬ MeansOption word.toList := by simp [hcs, MeansOption, hflag]
    rw [h, Option.some.injEq, unmatched_eq_operand_iff, isValue_iff_of_dash hcs]
    simp only [hmeans, not_false_eq_true, true_and]
  · have hmeans : MeansOption word.toList := by simp [hcs, MeansOption, hflag]
    have hnot : ¬ IsValue word := fun hvalue => ((isValue_iff_of_dash hcs).mp hvalue).1 hmeans
    rw [h]
    cases letters? (followers cs) <;> simp [hnot]
  · rw [h, Option.some.injEq, Word.operand.injEq, eq_comm, IsValue, ← or_assoc]
    exact ⟨fun heq => ⟨heq, .inl hfront⟩, fun hvalue => hvalue.1⟩

theorem toList_joined (name value : String) : (name ++ "=" ++ value).toList = name.toList ++ '=' :: value.toList := by
  simp

/-- Only words with two dashes in front begin the name of an option. -/
theorem classify_eq_long_iff {word : String} {flag : Flag} {value : Option String} :
    classify word = some (.long flag value) ↔
      flagsBegun (cutValue word.toList).1 = [flag] ∧ (cutValue word.toList).2 = value := by
  have hdashes (h : flagsBegun (cutValue word.toList).1 = [flag]) : ∃ cs, word.toList = '-' :: '-' :: cs := by
    have hnames : Names (String.ofList (cutValue word.toList).1) flag := by rwa [Names, String.toList_ofList]
    obtain ⟨cs, hcs⟩ := hnames.dashes
    obtain ⟨rest, hrest⟩ : (cutValue word.toList).1 <+: word.toList := List.takeWhile_prefix _
    rw [String.toList_ofList] at hcs
    exact ⟨cs ++ rest, by rw [← hrest, hcs]; rfl⟩
  have hunmatched : unmatched word.toList ≠ .long flag value := by
    rw [unmatched]
    split <;> simp
  rcases classify_cases word with ⟨cs, hcs, h⟩ | ⟨c, cs, hcs, hc, hshort⟩ | ⟨hfront, h⟩
  · rw [h, classifyLong_eq_some_iff]
    constructor
    · rintro (⟨-, heq⟩ | ⟨flag', hflag, heq⟩)
      · exact absurd heq.symm hunmatched
      · cases heq
        exact ⟨hflag, rfl⟩
    · rintro ⟨hflag, rfl⟩
      exact .inr ⟨flag, hflag, rfl⟩
  · have hleft : classify word ≠ some (.long flag value) := by
      rcases hshort with ⟨-, h⟩ | ⟨f, -, h⟩
      · rw [h]
        simpa using hunmatched
      · rw [h]
        cases letters? (followers cs) <;> simp
    refine iff_of_false hleft fun ⟨hflag, _⟩ => ?_
    obtain ⟨cs', hcs'⟩ := hdashes hflag
    rw [hcs] at hcs'
    exact hc (List.cons.inj (List.cons.inj hcs').2).1
  · have hleft : classify word ≠ some (.long flag value) := by
      rw [h]
      simp
    refine iff_of_false hleft fun ⟨hflag, _⟩ => ?_
    obtain ⟨cs', hcs'⟩ := hdashes hflag
    rcases hfront with hhead | rfl
    · exact hhead (by rw [hcs', List.head?_cons])
    · cases hcs'

/-- A name stands alone, or has a value behind an equals sign. -/
theorem named_or_joined {word : String} {flag : Flag} {value : Option String}
    (h : classify word = some (.long flag value)) :
    value = none ∧ Names word flag ∨
      ∃ name value', value = some value' ∧ Names name flag ∧ word = name ++ "=" ++ value' := by
  obtain ⟨hflag, hvalue⟩ := classify_eq_long_iff.mp h
  rcases cutValue_cases word.toList with hnone | ⟨name, value', hname, hword⟩
  · rw [cutValue_of_notMem hnone] at hflag hvalue
    exact .inl ⟨hvalue.symm, hflag⟩
  · rw [hword, cutValue_append hname] at hflag hvalue
    refine .inr ⟨String.ofList name, value', hvalue.symm, ?_, ?_⟩
    · rwa [Names, String.toList_ofList]
    · rw [← String.toList_inj, toList_joined, String.toList_ofList, hword]

theorem classify_named_iff {name : String} {flag : Flag} :
    classify name = some (.long flag none) ↔ Names name flag := by
  constructor
  · intro h
    rcases named_or_joined h with ⟨-, hname⟩ | ⟨_, _, hvalue, -⟩
    · exact hname
    · cases hvalue
  · intro h
    rw [classify_eq_long_iff, cutValue_of_notMem h.equals_notMem]
    exact ⟨h, rfl⟩

theorem classify_joined_iff {word value : String} {flag : Flag} :
    classify word = some (.long flag (some value)) ↔ ∃ name, Names name flag ∧ word = name ++ "=" ++ value := by
  constructor
  · intro h
    rcases named_or_joined h with ⟨hnone, -⟩ | ⟨name, _, hvalue, hname, rfl⟩
    · cases hnone
    · cases hvalue
      exact ⟨name, hname, rfl⟩
  · rintro ⟨name, hname, rfl⟩
    rw [classify_eq_long_iff, toList_joined, cutValue_append hname.equals_notMem]
    exact ⟨hname, rfl⟩

/-! ## Letters -/

theorem shortFlag?_cases {c : Char} {f : Flag} (h : shortFlag? c = some f) :
    c = 'h' ∧ f = .help ∨ c = 'v' ∧ f = .verbose := by
  unfold shortFlag? at h
  split at h <;> simp_all

theorem letters?_replicate (n : Nat) : letters? (List.replicate n 'v') = some (List.replicate n .verbose) := by
  induction n with
  | zero => rfl
  | succ n ih => simp [List.replicate_succ, letters?, ih, shortFlag?]

/-- Letters without the one for help are all the same. -/
theorem eq_replicate_of_letters? {cs : List Char} {fs : List Flag} (h : letters? cs = some fs) (hhelp : .help ∉ fs) :
    cs = List.replicate cs.length 'v' := by
  induction cs generalizing fs with
  | nil => rfl
  | cons c cs ih =>
    simp only [letters?, Option.bind_eq_bind, Option.bind_eq_some_iff, Option.pure_def, Option.some.injEq] at h
    obtain ⟨f, hf, fs, hfs, rfl⟩ := h
    rw [List.mem_cons, not_or] at hhelp
    rw [List.length_cons, List.replicate_succ, ← ih hfs hhelp.2]
    rcases shortFlag?_cases hf with ⟨-, rfl⟩ | ⟨rfl, -⟩
    · exact absurd rfl hhelp.1
    · rfl

theorem followers_cases (cs : List Char) :
    followers cs = cs ∨ ∃ c rest, cs = '=' :: c :: rest ∧ followers cs = c :: rest := by
  unfold followers
  split
  · exact .inr ⟨_, _, rfl, rfl⟩
  · exact .inl rfl

/-- Letters in one word are read one by one, behind an equals sign too. -/
theorem exists_of_classify_cluster {word : String} {fs : List Flag} (h : classify word = some (.cluster fs)) :
    ∃ c cs f gs, word.toList = '-' :: c :: cs ∧ shortFlag? c = some f ∧ letters? (followers cs) = some gs ∧
      fs = f :: gs := by
  have hunmatched : unmatched word.toList ≠ .cluster fs := by
    rw [unmatched]
    split <;> simp
  rcases classify_cases word with ⟨_, -, h'⟩ | ⟨c, cs, hcs, -, ⟨-, h'⟩ | ⟨f, hflag, h'⟩⟩ | ⟨-, h'⟩
  · rw [h', classifyLong_eq_some_iff] at h
    obtain ⟨-, heq⟩ | ⟨_, -, heq⟩ := h
    · exact absurd heq.symm hunmatched
    · cases heq
  · rw [h', Option.some.injEq] at h
    exact absurd h hunmatched
  · rw [h'] at h
    cases hletters : letters? (followers cs) with
    | none =>
      rw [hletters] at h
      cases h
    | some gs =>
      rw [hletters] at h
      cases h
      exact ⟨c, cs, f, gs, hcs, hflag, hletters, rfl⟩
  · rw [h'] at h
    cases h

/-- Letters that do not ask for help. -/
theorem isVerbose_iff {word : String} :
    IsVerbose word ↔ ∃ fs, classify word = some (.cluster fs) ∧ .help ∉ fs := by
  constructor
  · rintro ⟨n, hword | hword⟩
    · have hletters : letters? (followers (List.replicate n 'v')) = some (List.replicate n .verbose) := by
        have hfollowers : followers (List.replicate n 'v') = List.replicate n 'v' := by cases n <;> rfl
        rw [hfollowers, letters?_replicate]
      exact ⟨.verbose :: List.replicate n .verbose, by simp [classify, hword, shortFlag?, hletters], by simp⟩
    · have hletters : letters? (followers ('=' :: 'v' :: List.replicate n 'v')) =
          some (List.replicate (n + 1) .verbose) := letters?_replicate (n + 1)
      exact ⟨.verbose :: List.replicate (n + 1) .verbose, by simp [classify, hword, shortFlag?, hletters], by simp⟩
  · rintro ⟨fs, hword, hhelp⟩
    obtain ⟨c, cs, f, gs, hcs, hflag, hletters, rfl⟩ := exists_of_classify_cluster hword
    rw [List.mem_cons, not_or] at hhelp
    obtain ⟨-, rfl⟩ | ⟨rfl, -⟩ := shortFlag?_cases hflag
    · exact absurd rfl hhelp.1
    · have hsame := eq_replicate_of_letters? hletters hhelp.2
      rcases followers_cases cs with hcs' | ⟨d, rest, rfl, hcs'⟩
      · rw [hcs'] at hsame
        exact ⟨cs.length, .inl (by rw [hcs, ← hsame])⟩
      · rw [hcs', List.length_cons, List.replicate_succ] at hsame
        obtain ⟨rfl, hrest⟩ := List.cons.inj hsame
        exact ⟨rest.length, .inr (by rw [hcs, ← hrest])⟩

end CoqConsole.CommandLine
