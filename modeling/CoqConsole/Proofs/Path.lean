import CoqConsole.Path
import CoqConsole.Proofs.Utf8

/-!
# Addresses of paths

Paths with clear parts have addresses of their own: an address can be read back.

* `Path.IsClear` : no part is empty or holds a slash; `isClear_resolve` : so it is with every path that is meant;
* `cut_intercalate` : parts are cut where they were joined;
* `octetsOf`, `octetsOf_quoted` : the octets that an address stands for;
* `uri_injective`.
-/

namespace CoqConsole.Path

/-- The parts of a path are none that would be lost when it is written. -/
def IsClear (p : Path) : Prop := ∀ part ∈ p.parts, part ≠ "" ∧ '/' ∉ part.toList

/-! ## Parts -/

theorem slash_notMem_of_mem_cut {cs part : List Char} (h : part ∈ cut cs) : '/' ∉ part := by
  induction cs generalizing part with
  | nil =>
    rw [List.mem_singleton.mp h]
    exact List.not_mem_nil
  | cons c cs ih =>
    unfold cut at h
    split at h
    · rcases List.mem_cons.mp h with rfl | hmem
      · exact List.not_mem_nil
      · exact ih hmem
    · next hc =>
      have hslash : ¬ '/' = c := fun heq => hc heq.symm
      split at h
      · rw [List.mem_singleton.mp h]
        simpa using hslash
      · next first rest hcut =>
        rcases List.mem_cons.mp h with rfl | hmem
        · have hfirst := ih (hcut ▸ List.mem_cons_self)
          simpa [hslash] using hfirst
        · exact ih (hcut ▸ List.mem_cons_of_mem _ hmem)

theorem isClear_partsOf {s part : String} (h : part ∈ partsOf s) : part ≠ "" ∧ '/' ∉ part.toList := by
  obtain ⟨hmem, hkept⟩ := List.mem_filter.mp h
  obtain ⟨cs, hcs, rfl⟩ := List.mem_map.mp hmem
  refine ⟨fun hempty => ?_, ?_⟩
  · simp [hempty] at hkept
  · rw [String.toList_ofList]
    exact slash_notMem_of_mem_cut hcs

theorem isClear_follow {start parts : List String} (hstart : IsClear ⟨start⟩) (hparts : IsClear ⟨parts⟩) :
    IsClear ⟨follow start parts⟩ := by
  induction parts generalizing start with
  | nil => exact hstart
  | cons p parts ih =>
    obtain ⟨hp, hrest⟩ := List.forall_mem_cons.mp hparts
    refine ih (fun part hpart => ?_) hrest
    simp only at hpart
    split at hpart
    · exact hstart part (List.dropLast_subset _ hpart)
    · rcases List.mem_append.mp hpart with hold | hnew
      · exact hstart part hold
      · exact List.mem_singleton.mp hnew ▸ hp

/-- A path that is meant in a clear directory is clear. -/
theorem isClear_resolve {cwd : Path} (hcwd : cwd.IsClear) (s : String) : (resolve cwd s).IsClear := by
  refine isClear_follow (fun part hpart => ?_) fun part hpart => isClear_partsOf hpart
  split at hpart
  · exact hcwd part hpart
  · exact absurd hpart List.not_mem_nil

theorem cut_append {part : List Char} (h : '/' ∉ part) (rest : List Char) : cut (part ++ '/' :: rest) = part :: cut rest := by
  induction part with
  | nil => exact if_pos rfl
  | cons c part ih =>
    have hc : ¬ c = '/' := fun heq => h (heq ▸ List.mem_cons_self)
    rw [List.cons_append, cut, if_neg hc, ih fun hmem => h (List.mem_cons_of_mem _ hmem)]

theorem cut_of_notMem {part : List Char} (h : '/' ∉ part) : cut part = [part] := by
  induction part with
  | nil => rfl
  | cons c part ih =>
    have hc : ¬ c = '/' := fun heq => h (heq ▸ List.mem_cons_self)
    rw [cut, if_neg hc, ih fun hmem => h (List.mem_cons_of_mem _ hmem)]

/-- Parts are cut where they were joined. -/
theorem cut_intercalate {parts : List (List Char)} (hne : parts ≠ []) (h : ∀ part ∈ parts, '/' ∉ part) :
    cut (List.intercalate ['/'] parts) = parts := by
  induction parts with
  | nil => exact absurd rfl hne
  | cons part parts ih =>
    obtain ⟨hpart, hparts⟩ := List.forall_mem_cons.mp h
    cases parts with
    | nil => simpa [List.intercalate] using cut_of_notMem hpart
    | cons next parts =>
      have hjoin : List.intercalate ['/'] (part :: next :: parts) = part ++ '/' :: List.intercalate ['/'] (next :: parts) := by
        simp [List.intercalate, List.intersperse]
      rw [hjoin, cut_append hpart, ih (List.cons_ne_nil _ _) hparts]

theorem toList_text (p : Path) : p.text.toList = '/' :: List.intercalate ['/'] (p.parts.map String.toList) := by
  simp [text, String.toList_intercalate]

/-- A written path tells its parts. -/
theorem cut_text {p : Path} (h : p.IsClear) :
    cut p.text.toList = [] :: (if p.parts = [] then [[]] else p.parts.map String.toList) := by
  rw [toList_text]
  show [] :: cut _ = _
  split
  · next hnone =>
    rw [hnone]
    rfl
  · next hsome =>
    rw [cut_intercalate]
    · simpa using hsome
    · intro part hpart
      obtain ⟨s, hs, rfl⟩ := List.mem_map.mp hpart
      exact (h s hs).2

theorem text_injective {p q : Path} (hp : p.IsClear) (hq : q.IsClear) (h : p.text = q.text) : p = q := by
  have hcut : cut p.text.toList = cut q.text.toList := by rw [h]
  rw [cut_text hp, cut_text hq] at hcut
  have hparts := (List.cons.inj hcut).2
  -- Only the root is written as one empty part.
  have hroot {r : Path} (hr : r.IsClear) : r.parts.map String.toList ≠ [[]] := by
    intro heq
    obtain ⟨s, hs, hempty⟩ := List.map_eq_singleton_iff.mp heq
    exact (hr s (by simp [hs])).1 (String.toList_eq_nil_iff.mp hempty)
  obtain ⟨ps⟩ := p
  obtain ⟨qs⟩ := q
  by_cases hps : ps = [] <;> by_cases hqs : qs = []
  · rw [hps, hqs]
  · rw [if_pos hps, if_neg hqs] at hparts
    exact absurd hparts.symm (hroot hq)
  · rw [if_neg hps, if_pos hqs] at hparts
    exact absurd hparts (hroot hp)
  · rw [if_neg hps, if_neg hqs] at hparts
    exact congrArg Path.mk ((List.map_inj_right fun _ _ => String.toList_inj.mp).mp hparts)

/-! ## Octets -/

def sixteenth (c : Char) : Nat := if c.toNat < 58 then c.toNat - 48 else c.toNat - 55

def octetsOf : List Char → List UInt8
  | '%' :: high :: low :: rest => (16 * sixteenth high + sixteenth low).toUInt8 :: octetsOf rest
  | c :: rest => c.toNat.toUInt8 :: octetsOf rest
  | [] => []

/-- How an octet is written: as itself, or by its two digits. -/
def IsWritten (b : UInt8) : List Char → Bool
  | [c] => c ≠ '%' && c.toNat.toUInt8 == b
  | ['%', high, low] => (16 * sixteenth high + sixteenth low).toUInt8 == b
  | _ => false

theorem isWritten_quotedOctet (b : UInt8) : IsWritten b (quotedOctet b) = true := by
  have hall : ∀ n < 256, IsWritten (UInt8.ofNat n) (quotedOctet (UInt8.ofNat n)) = true := by decide +kernel
  have hb := hall b.toNat b.toNat_lt
  rwa [UInt8.ofNat_toNat] at hb

theorem octetsOf_written {b : UInt8} {cs : List Char} (h : IsWritten b cs = true) (rest : List Char) :
    octetsOf (cs ++ rest) = b :: octetsOf rest := by
  unfold IsWritten at h
  split at h
  · next c =>
    obtain ⟨hc, hb⟩ := (Bool.and_eq_true _ _).mp h
    rw [List.singleton_append, octetsOf, beq_iff_eq.mp hb]
    intro high low tail hpercent
    simp_all
  · next high low =>
    show (16 * sixteenth high + sixteenth low).toUInt8 :: octetsOf rest = _
    rw [beq_iff_eq.mp h]
  · cases h

theorem octetsOf_quoted (bs : List UInt8) : octetsOf (bs.flatMap quotedOctet) = bs := by
  induction bs with
  | nil => rfl
  | cons b bs ih => rw [List.flatMap_cons, octetsOf_written (isWritten_quotedOctet b), ih]

/-- Clear paths of one address are one path. -/
theorem uri_injective {p q : Path} (hp : p.IsClear) (hq : q.IsClear) (h : p.uri = q.uri) : p = q := by
  have hquoted : (Utf8.encode p.text.toList).flatMap quotedOctet = (Utf8.encode q.text.toList).flatMap quotedOctet :=
    String.ofList_injective (String.append_right_inj _ |>.mp h)
  have hencoded : Utf8.encode p.text.toList = Utf8.encode q.text.toList := by
    rw [← octetsOf_quoted (Utf8.encode p.text.toList), hquoted, octetsOf_quoted]
  have hchars : p.text.toList = q.text.toList := by
    have hdecoded := Utf8.decode?_encode p.text.toList
    rw [hencoded, Utf8.decode?_encode] at hdecoded
    exact (Option.some.inj hdecoded).symm
  exact text_injective hp hq (String.toList_inj.mp hchars)

end CoqConsole.Path
