import CoqConsole.Json.Reader
import CoqConsole.Json.Writer
import Mathlib.Data.List.Basic
import Mathlib.Data.List.TakeDrop
import Mathlib.Data.List.TakeWhile
import Mathlib.Tactic.SplitIfs

/-!
# Written words, numbers and texts

What is written is read back, up to the character after it.

* `Json.Follows` : what may stand after a written value;
* `Json.plainAt_null`, `Json.plainAt_bool`, `Json.plainAt_number` : words and whole numbers;
* `Json.units` : the UTF-16 code units of a character;
* `Json.textBody_flatMap`, `Json.joinHalves_units`, `Json.textAt_quotedText` : texts.
-/

namespace CoqConsole

namespace Json

/-! ## Decimal digits -/

theorem toNat_of_isDigit {c : Char} (h : c.isDigit) : 48 ≤ c.toNat ∧ c.toNat ≤ 57 := by
  rw [Char.isDigit, Bool.and_eq_true, decide_eq_true_iff, decide_eq_true_iff] at h
  exact h

theorem asciiDigit?_of_isDigit {c : Char} (h : c.isDigit) : Text.asciiDigit? c = some (c.toNat - 48) :=
  if_pos (toNat_of_isDigit h)

theorem digitValue?_of_isDigit {c : Char} (h : c.isDigit) : Text.digitValue? c = some (c.toNat - 48) := by
  obtain ⟨hlow, hhigh⟩ := toNat_of_isDigit h
  have hlast : c.toNat < 0x30 + 10 := Nat.lt_succ_of_le hhigh
  rw [Text.digitValue?, Text.zeros, List.find?_cons_of_pos (by simp [hlow, hlast]), Option.map_some]

theorem isDigit_of_mem_digits {n : Nat} {c : Char} (h : c ∈ digits n) : c.isDigit :=
  Nat.isDigit_of_mem_toDigits (by decide) (by decide) h

/-- The values of the digits make up the number. -/
theorem ofDigits_digits (n : Nat) : Number.ofDigits ((digits n).map fun c => c.toNat - 48) = n := by
  rw [Number.ofDigits, List.foldl_map]
  exact Nat.ofDigitChars_eq_foldl.symm.trans Nat.ofDigitChars_ten_toDigits

/-- No other number begins with a zero. -/
theorem eq_zero_of_digits {n : Nat} {cs : List Char} (h : digits n = '0' :: cs) : n = 0 := by
  induction n using Nat.strongRecOn generalizing cs with
  | ind n ih =>
    by_cases hn : n < 10
    · rw [digits, Nat.toDigits_of_lt_base hn, List.cons.injEq] at h
      exact Nat.digitChar_eq_zero.mp h.1
    · rw [digits, Nat.toDigits_of_base_le (by decide) (by omega)] at h
      obtain ⟨c, front, hfront⟩ := List.exists_cons_of_ne_nil (Nat.toDigits_ne_nil (n := n / 10) (b := 10))
      rw [hfront, List.cons_append, List.cons.injEq] at h
      have := ih (n / 10) (by omega) (h.1 ▸ hfront)
      omega

/-- What may stand after a written value: nothing, a comma, or the end of a list or an object. -/
def Follows (rest : List Char) : Prop := ∀ c ∈ rest.head?, c = ',' ∨ c = ']' ∨ c = '\x7d'

theorem Follows.dropWhile_digit {rest : List Char} (h : Follows rest) :
    rest.takeWhile (fun c => (Text.asciiDigit? c).isSome) = [] ∧
      rest.dropWhile (fun c => (Text.asciiDigit? c).isSome) = rest := by
  cases rest with
  | nil => exact ⟨rfl, rfl⟩
  | cons c rest => rcases h c rfl with rfl | rfl | rfl <;> exact ⟨rfl, rfl⟩

theorem fractionAt_of_follows {rest : List Char} (h : Follows rest) : fractionAt rest = ([], rest) := by
  cases rest with
  | nil => rfl
  | cons c rest => rcases h c rfl with rfl | rfl | rfl <;> rfl

theorem exponentAt_of_follows {rest : List Char} (h : Follows rest) : exponentAt rest = (none, rest) := by
  cases rest with
  | nil => rfl
  | cons c rest => rcases h c rfl with rfl | rfl | rfl <;> rfl

theorem spanDigits_digits (n : Nat) {rest : List Char} (h : Follows rest) :
    spanDigits (digits n ++ rest) = (digits n, rest) := by
  have hdigits : ∀ c ∈ digits n, (Text.asciiDigit? c).isSome := fun c hc => by
    rw [asciiDigit?_of_isDigit (isDigit_of_mem_digits hc), Option.isSome_some]
  rw [spanDigits, List.span_eq_takeWhile_dropWhile, List.takeWhile_append_of_pos hdigits,
    List.dropWhile_append_of_pos hdigits, h.dropWhile_digit.1, h.dropWhile_digit.2, List.append_nil]

theorem wholeAt_digits (n : Nat) {rest : List Char} (h : Follows rest) :
    wholeAt (digits n ++ rest) = some (digits n, rest) := by
  rw [wholeAt, spanDigits_digits n h]
  obtain ⟨c, cs, hcs⟩ := List.exists_cons_of_ne_nil (Nat.toDigits_ne_nil (n := n) (b := 10))
  by_cases hzero : c = '0'
  · subst hzero
    have hn : n = 0 := eq_zero_of_digits hcs
    subst hn
    rfl
  · change digits n = c :: cs at hcs
    rw [hcs]
    split <;> simp_all

theorem digitsValue_digits (n : Nat) : digitsValue (digits n) = n := by
  have hvalues : (digits n).filterMap Text.asciiDigit? = (digits n).map fun c => c.toNat - 48 := by
    rw [← List.filterMap_eq_map]
    exact List.filterMap_congr fun c hc => asciiDigit?_of_isDigit (isDigit_of_mem_digits hc)
  rw [digitsValue, hvalues, ofDigits_digits]

theorem magnitudeAt_digits {n : Nat} (negative : Bool) {rest : List Char} (h : Follows rest)
    (short : (digits n).length ≤ Number.digitLimit) :
    magnitudeAt negative (digits n ++ rest) = .ok (int (if negative then -n else n), rest) := by
  rw [magnitudeAt, wholeAt_digits n h]
  simp only [fractionAt_of_follows h, exponentAt_of_follows h]
  rw [if_pos ⟨rfl, rfl⟩, if_neg (by omega), digitsValue_digits]

theorem plainAt_null (rest : List Char) : plainAt (chars null ++ rest) = .ok (null, rest) := rfl

theorem plainAt_bool (b : Bool) (rest : List Char) : plainAt (chars (bool b) ++ rest) = .ok (bool b, rest) := by
  cases b <;> rfl

/-- Where no word stands, a number does. -/
theorem plainAt_of_no_word {cs : List Char} (h : ∀ p ∈ words, wordAt? p.1.toList cs = none) :
    (∀ tail, cs = '-' :: tail → plainAt cs = magnitudeAt true tail) ∧
      ((∀ tail, cs ≠ '-' :: tail) → plainAt cs = magnitudeAt false cs) := by
  unfold plainAt
  split
  · next found hfound =>
    obtain ⟨⟨word, v⟩, hmem, hword⟩ := List.exists_of_findSome?_eq_some hfound
    simp [h (word, v) hmem] at hword
  · refine ⟨fun tail e => ?_, fun hne => ?_⟩
    · subst e
      rfl
    · split
      · exact absurd rfl (hne _)
      · rfl

theorem plainAt_number {n : Int} {rest : List Char} (h : Follows rest)
    (short : (digits n.natAbs).length ≤ Number.digitLimit) : plainAt (number n ++ rest) = .ok (int n, rest) := by
  obtain ⟨c, cs, hcs⟩ := List.exists_cons_of_ne_nil (Nat.toDigits_ne_nil (n := n.natAbs) (b := 10))
  change digits n.natAbs = c :: cs at hcs
  have hdigit : c.isDigit := isDigit_of_mem_digits (hcs ▸ List.mem_cons_self)
  have hne : ∀ d : Char, ¬ d.isDigit → d ≠ c := fun d hd e => hd (e ▸ hdigit)
  have hminus : c ≠ '-' := (hne '-' (by decide)).symm
  rw [number]
  split
  · have hword : ∀ p ∈ words, wordAt? p.1.toList ('-' :: digits n.natAbs ++ rest) = none := by
      simp [words, wordAt?, hcs, hne 'I' (by decide)]
    have hsign := (plainAt_of_no_word hword).1 (digits n.natAbs ++ rest) rfl
    rw [hsign, magnitudeAt_digits true h short, if_pos rfl, show -(n.natAbs : Int) = n by omega]
  · have hword : ∀ p ∈ words, wordAt? p.1.toList (digits n.natAbs ++ rest) = none := by
      simp [words, wordAt?, hcs, hne 'n' (by decide), hne 't' (by decide), hne 'f' (by decide), hne 'N' (by decide),
        hne 'I' (by decide), hne '-' (by decide)]
    have hsign : ∀ tail, digits n.natAbs ++ rest ≠ '-' :: tail := fun tail e => by
      rw [hcs, List.cons_append, List.cons.injEq] at e
      exact hminus e.1
    rw [(plainAt_of_no_word hword).2 hsign, magnitudeAt_digits false h short, if_neg Bool.false_ne_true,
      show (n.natAbs : Int) = n by omega]

/-! ## Texts -/

theorem hexValue?_digitChar : ∀ d < 0x10, hexValue? (Nat.digitChar d) = some d := by decide

theorem hex_four {n : Nat} (h : n < 0x10000) : Text.hex 4 n =
    [Nat.digitChar (n / 0x1000), Nat.digitChar (n / 0x100 % 0x10), Nat.digitChar (n / 0x10 % 0x10),
      Nat.digitChar (n % 0x10)] := by
  have hone : ∀ {m : Nat}, m < 0x10 → Nat.toDigits 0x10 m = [Nat.digitChar m] := Nat.toDigits_of_lt_base
  have hmore : ∀ {m : Nat}, 0x10 ≤ m →
      Nat.toDigits 0x10 m = Nat.toDigits 0x10 (m / 0x10) ++ [Nat.digitChar (m % 0x10)] :=
    Nat.toDigits_of_base_le (by decide)
  have hzero : ∀ {m : Nat}, m = 0 → Nat.digitChar m = '0' := Nat.digitChar_eq_zero.mpr
  have hhundred : n / 0x10 / 0x10 = n / 0x100 := by omega
  have hthousand : n / 0x100 / 0x10 = n / 0x1000 := by omega
  unfold Text.hex
  by_cases h1 : n < 0x10
  · rw [hone h1, hzero (show n / 0x1000 = 0 by omega), hzero (show n / 0x100 % 0x10 = 0 by omega),
      hzero (show n / 0x10 % 0x10 = 0 by omega), Nat.mod_eq_of_lt h1]
    rfl
  rw [hmore (by omega)]
  by_cases h2 : n < 0x100
  · rw [hone (by omega), hzero (show n / 0x1000 = 0 by omega), hzero (show n / 0x100 % 0x10 = 0 by omega),
      Nat.mod_eq_of_lt (show n / 0x10 < 0x10 by omega)]
    rfl
  rw [hmore (by omega), hhundred]
  by_cases h3 : n < 0x1000
  · rw [hone (by omega), hzero (show n / 0x1000 = 0 by omega), Nat.mod_eq_of_lt (show n / 0x100 < 0x10 by omega)]
    rfl
  · rw [hmore (by omega), hthousand, hone (by omega)]
    rfl

theorem unitValue?_unit {n : Nat} (h : n < 0x10000) : unitValue? (Nat.digitChar (n / 0x1000))
    (Nat.digitChar (n / 0x100 % 0x10)) (Nat.digitChar (n / 0x10 % 0x10)) (Nat.digitChar (n % 0x10)) = some n := by
  rw [unitValue?, hexValue?_digitChar _ (by omega), hexValue?_digitChar _ (by omega),
    hexValue?_digitChar _ (by omega), hexValue?_digitChar _ (by omega)]
  change some _ = some n
  congr 1
  omega

/-- A code unit that is written by its number. -/
theorem textBody_unit {n : Nat} (h : n < 0x10000) (more : List Char) :
    textBody (unit n ++ more) = (textBody more).map fun p => (n :: p.1, p.2) := by
  rw [unit, hex_four h]
  simp only [List.cons_append, List.nil_append]
  rw [textBody, unitValue?_unit h]
  cases textBody more <;> rfl

def units (c : Char) : List Nat :=
  if c.toNat < 0x10000 then [c.toNat]
  else [0xd800 + (c.toNat - 0x10000) / 0x400, 0xdc00 + (c.toNat - 0x10000) % 0x400]

/-- A character that stands for itself. -/
theorem textBody_plain {c : Char} (hquote : c ≠ '"') (hslash : c ≠ '\\') (hplain : 0x20 ≤ c.toNat) (more : List Char) :
    textBody (c :: more) = (textBody more).map fun p => (c.toNat :: p.1, p.2) := by
  have hshown : ¬ (c.toNat < 0x20 ∨ c = '\\') := not_or.mpr ⟨by omega, hslash⟩
  rw [textBody]
  · rw [if_neg hshown]
    cases textBody more <;> rfl
  · exact hquote
  · exact fun _ _ _ _ _ h => absurd h hslash
  · exact fun _ _ h => absurd h hslash

/-- A character that is written by a letter. -/
theorem textBody_letter {letter c : Char} (h : escapeValue? letter = some c) (more : List Char) :
    textBody ('\\' :: letter :: more) = (textBody more).map fun p => (c.toNat :: p.1, p.2) := by
  have hletter : letter ≠ 'u' := fun e => by simp [e, escapeValue?] at h
  rw [textBody]
  · rw [h]
    cases textBody more <;> rfl
  · exact fun _ _ _ _ _ e _ => hletter e

theorem units_short {c : Char} (h : c.toNat < 0x10000) : units c = [c.toNat] := if_pos h

theorem textBody_escaped (c : Char) (more : List Char) :
    textBody (escaped c ++ more) = (textBody more).map fun p => (units c ++ p.1, p.2) := by
  have hvalid : c.toNat < 0xd800 ∨ 0xdfff < c.toNat ∧ c.toNat < 0x110000 := c.valid
  have hletter : ∀ letter, escapeValue? letter = some c → c.toNat < 0x10000 →
      textBody (['\\', letter] ++ more) = (textBody more).map fun p => (units c ++ p.1, p.2) := fun letter h hc => by
    rw [units_short hc]
    exact textBody_letter h more
  unfold escaped
  split_ifs with hquote hslash hnewline hreturn htab hfeed hback hprinted hshort
  · exact hletter '"' (by rw [hquote]; rfl) (hquote ▸ by decide)
  · exact hletter '\\' (by rw [hslash]; rfl) (hslash ▸ by decide)
  · exact hletter 'n' (hnewline ▸ rfl) (hnewline ▸ by decide)
  · exact hletter 'r' (hreturn ▸ rfl) (hreturn ▸ by decide)
  · exact hletter 't' (htab ▸ rfl) (htab ▸ by decide)
  · exact hletter 'f' (hfeed ▸ rfl) (hfeed ▸ by decide)
  · exact hletter 'b' (hback ▸ rfl) (hback ▸ by decide)
  · rw [units_short (by omega)]
    exact textBody_plain hquote hslash hprinted.1 more
  · rw [units_short hshort]
    exact textBody_unit hshort more
  · rw [List.append_assoc, textBody_unit (by omega), textBody_unit (by omega), Option.map_map, units, if_neg hshort]
    rfl

theorem textBody_flatMap (cs more : List Char) :
    textBody (cs.flatMap escaped ++ '"' :: more) = some (cs.flatMap units, more) := by
  induction cs with
  | nil => rfl
  | cons c cs ih =>
    rw [List.flatMap_cons, List.append_assoc, textBody_escaped, ih, Option.map_some, List.flatMap_cons]

theorem joinHalves_cons {n : Nat} (h : isHighHalf n = false) (rest : List Nat) :
    joinHalves (n :: rest) = unitChar n :: joinHalves rest := by
  cases rest with
  | nil => rfl
  | cons low rest => rw [joinHalves, h, Bool.false_and, if_neg Bool.false_ne_true]

theorem joinHalves_units (cs : List Char) : joinHalves (cs.flatMap units) = cs := by
  induction cs with
  | nil => rfl
  | cons c cs ih =>
    have hvalid : c.toNat < 0xd800 ∨ 0xdfff < c.toNat ∧ c.toNat < 0x110000 := c.valid
    rw [List.flatMap_cons, units]
    split
    · have hhigh : isHighHalf c.toNat = false := by
        simp only [isHighHalf, Bool.and_eq_false_iff, decide_eq_false_iff_not]
        omega
      have hlow : isLowHalf c.toNat = false := by
        simp only [isLowHalf, Bool.and_eq_false_iff, decide_eq_false_iff_not]
        omega
      rw [List.singleton_append, joinHalves_cons hhigh, ih, unitChar, hhigh, hlow, Bool.or_self,
        if_neg Bool.false_ne_true, Char.ofNat_toNat]
    · have hhigh : isHighHalf (0xd800 + (c.toNat - 0x10000) / 0x400) = true := by
        simp only [isHighHalf, Bool.and_eq_true, decide_eq_true_iff]
        omega
      have hlow : isLowHalf (0xdc00 + (c.toNat - 0x10000) % 0x400) = true := by
        simp only [isLowHalf, Bool.and_eq_true, decide_eq_true_iff]
        omega
      have hpair : 0x10000 + (0xd800 + (c.toNat - 0x10000) / 0x400 - 0xd800) * 0x400 +
          (0xdc00 + (c.toNat - 0x10000) % 0x400 - 0xdc00) = c.toNat := by omega
      rw [List.cons_append, List.singleton_append, joinHalves, hhigh, hlow, Bool.and_self, if_pos rfl, ih, pairChar,
        hpair, Char.ofNat_toNat]

theorem textAt_quotedText (s : String) (rest : List Char) :
    ∃ body, quotedText s ++ rest = '"' :: body ∧ textAt body = .ok (s, rest) := by
  refine ⟨s.toList.flatMap escaped ++ '"' :: rest, by simp [quotedText], ?_⟩
  rw [textAt, textBody_flatMap]
  simp only [joinHalves_units, String.ofList_toList]

end Json

end CoqConsole
