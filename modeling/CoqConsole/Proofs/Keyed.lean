import CoqConsole.Json.Key
import CoqConsole.Keyed
import Mathlib.Data.List.Nodup

/-!
# Laws of keyed lists

* `get?_put`, `get?_erase`, `get?_append`, `put_of_notMem`, `foldl_put` : what is found after a change;
* `put_put`, `erase_erase` : the same change a second time; `put_of_get?` : a value that is there set again;
* `keys_put` : the keys after a value was set;
* `get?_eq_some` : with distinct keys, a pair is found where it stands;
* `perm_erase`, `perm_put` : with distinct keys, a pair that is found or set and the list without it are the list;
* `nodup_erase`, `nodup_put`, `nodup_append_single` : distinct keys stay distinct;
* `Json.key_eq_text` : what is found under a text is asked for by that text only.
-/

namespace CoqConsole

theorem Json.key_eq_text {v : Json} {s : String} : v.key = .ok (.text s) ↔ v = .text s := by
  cases v with
  | real x =>
    have hreal (x : Double) : Key.ofDouble x ≠ .text s := by
      unfold Key.ofDouble
      split
      · split <;> exact nofun
      · exact nofun
    simp [key, hreal]
  | _ => simp [key]

namespace Keyed

variable {κ α : Type} [DecidableEq κ]

theorem get?_put (key other : κ) (value : α) (pairs : List (κ × α)) :
    get? other (put key value pairs) = if key = other then some value else get? other pairs := by
  induction pairs with
  | nil => rfl
  | cons p rest ih =>
    obtain ⟨k, v⟩ := p
    by_cases hk : k = key
    · subst hk
      by_cases ho : k = other <;> simp [put, get?, ho]
    · rw [put, if_neg hk, get?, get?, ih]
      by_cases ho : key = other
      · subst ho
        simp only [if_true, if_neg hk]
      · rw [if_neg ho, if_neg ho]

theorem get?_append (key : κ) (ps qs : List (κ × α)) :
    get? key (ps ++ qs) = (get? key ps).or (get? key qs) := by
  induction ps with
  | nil => rfl
  | cons p ps ih =>
    rw [List.cons_append, get?, get?, ih]
    split <;> rfl

theorem mem_of_get? {key : κ} {value : α} {pairs : List (κ × α)} (h : get? key pairs = some value) :
    (key, value) ∈ pairs := by
  induction pairs with
  | nil => cases h
  | cons p rest ih =>
    obtain ⟨k, v⟩ := p
    rw [get?] at h
    split at h
    · next hk =>
      cases h
      rw [hk]
      exact List.mem_cons_self
    · exact List.mem_cons_of_mem _ (ih h)

theorem get?_eq_none {key : κ} {pairs : List (κ × α)} : get? key pairs = none ↔ key ∉ keys pairs := by
  induction pairs with
  | nil => simp [get?, keys]
  | cons p rest ih =>
    rw [get?, keys, List.map_cons, List.mem_cons, not_or]
    split
    · next hk => simp [hk]
    · next hk =>
      rw [ih, keys]
      exact ⟨fun h => ⟨Ne.symm hk, h⟩, And.right⟩

theorem get?_eq_some {key : κ} {value : α} {pairs : List (κ × α)} (distinct : (keys pairs).Nodup) :
    get? key pairs = some value ↔ (key, value) ∈ pairs := by
  refine ⟨mem_of_get?, fun h => ?_⟩
  induction pairs with
  | nil => cases h
  | cons p rest ih =>
    obtain ⟨k, v⟩ := p
    rw [keys, List.map_cons, List.nodup_cons] at distinct
    rcases List.mem_cons.mp h with h | h
    · cases h
      exact if_pos rfl
    · have hne : k ≠ key := fun e => distinct.1 (List.mem_map.mpr ⟨_, h, e.symm⟩)
      rw [get?, if_neg hne]
      exact ih distinct.2 h

theorem has_eq_true {key : κ} {pairs : List (κ × α)} : has key pairs = true ↔ key ∈ keys pairs := by
  rw [has, Option.isSome_iff_ne_none, ne_eq, get?_eq_none, not_not]

theorem put_of_notMem {key : κ} {pairs : List (κ × α)} (value : α) (h : key ∉ keys pairs) :
    put key value pairs = pairs ++ [(key, value)] := by
  induction pairs with
  | nil => rfl
  | cons p rest ih =>
    obtain ⟨k, v⟩ := p
    rw [keys, List.map_cons, List.mem_cons, not_or] at h
    rw [put, if_neg (Ne.symm h.1), ih h.2, List.cons_append]

theorem put_put (key : κ) (value : α) (pairs : List (κ × α)) :
    put key value (put key value pairs) = put key value pairs := by
  induction pairs with
  | nil => simp [put]
  | cons p pairs ih =>
    obtain ⟨k, v⟩ := p
    by_cases hk : k = key
    · simp [put, hk]
    · simp [put, hk, ih]

/-- Setting the value that is there changes nothing. -/
theorem put_of_get? {key : κ} {value : α} {pairs : List (κ × α)} (h : get? key pairs = some value) :
    put key value pairs = pairs := by
  induction pairs with
  | nil => cases h
  | cons p rest ih =>
    obtain ⟨k, v⟩ := p
    rw [get?] at h
    rw [put]
    split at h
    · next hk =>
      cases h
      rw [if_pos hk]
    · next hk => rw [if_neg hk, ih h]

omit [DecidableEq κ] in
theorem keys_cons (key : κ) (value : α) (pairs : List (κ × α)) :
    keys ((key, value) :: pairs) = key :: keys pairs := rfl

/-- A key that is set stays in its place, or comes last. -/
theorem keys_put (key : κ) (value : α) (pairs : List (κ × α)) :
    keys (put key value pairs) = keys pairs ++ if key ∈ keys pairs then [] else [key] := by
  induction pairs with
  | nil => rfl
  | cons p rest ih =>
    obtain ⟨k, v⟩ := p
    rw [put]
    split
    · next hk => simp [keys_cons, hk]
    · next hk =>
      have hne : ¬ key = k := fun e => hk e.symm
      rw [keys_cons, keys_cons, ih]
      simp [hne]

/-- Pairs with distinct keys that are set one after the other stand in their order. -/
theorem foldl_put {pairs : List (κ × α)} (distinct : (keys pairs).Nodup) :
    pairs.foldl (fun found p => put p.1 p.2 found) [] = pairs := by
  have hgo : ∀ (qs ps : List (κ × α)), (keys (ps ++ qs)).Nodup →
      qs.foldl (fun found p => put p.1 p.2 found) ps = ps ++ qs := fun qs => by
    induction qs with
    | nil => exact fun ps _ => (List.append_nil ps).symm
    | cons q qs ih =>
      intro ps h
      have hnew : q.1 ∉ keys ps := fun hmem => by
        rw [keys, List.map_append] at h
        exact (List.nodup_append.mp h).2.2 q.1 hmem q.1 List.mem_cons_self rfl
      rw [List.foldl_cons, put_of_notMem q.2 hnew, ih _ (by rwa [List.append_assoc]), List.append_assoc,
        List.singleton_append]
  exact hgo pairs [] distinct

theorem mem_erase {key : κ} {p : κ × α} {pairs : List (κ × α)} :
    p ∈ erase key pairs ↔ p ∈ pairs ∧ p.1 ≠ key := by
  simp [erase]

theorem mem_keys_erase {key other : κ} {pairs : List (κ × α)} :
    other ∈ keys (erase key pairs) ↔ other ∈ keys pairs ∧ other ≠ key := by
  simp only [keys, List.mem_map, mem_erase]
  constructor
  · rintro ⟨p, ⟨hp, hne⟩, rfl⟩
    exact ⟨⟨p, hp, rfl⟩, hne⟩
  · rintro ⟨⟨p, hp, rfl⟩, hne⟩
    exact ⟨p, ⟨hp, hne⟩, rfl⟩

theorem get?_erase (key other : κ) (pairs : List (κ × α)) :
    get? other (erase key pairs) = if other = key then none else get? other pairs := by
  induction pairs with
  | nil => simp [erase, get?]
  | cons p pairs ih =>
    obtain ⟨k, v⟩ := p
    by_cases hk : k = key
    · subst hk
      rw [show erase k ((k, v) :: pairs) = erase k pairs by simp [erase], ih, get?]
      by_cases ho : other = k
      · rw [if_pos ho, if_pos ho]
      · rw [if_neg ho, if_neg ho, if_neg (Ne.symm ho)]
    · rw [show erase key ((k, v) :: pairs) = (k, v) :: erase key pairs by simp [erase, hk], get?, get?, ih]
      by_cases ho : other = key
      · rw [if_pos ho, if_neg (fun h => hk (h.trans ho))]
        simp [ho]
      · rw [if_neg ho, if_neg ho]

theorem erase_erase (key : κ) (pairs : List (κ × α)) : erase key (erase key pairs) = erase key pairs := by
  simp [erase]

theorem erase_of_notMem {key : κ} {pairs : List (κ × α)} (h : key ∉ keys pairs) :
    erase key pairs = pairs := by
  rw [erase, List.filter_eq_self]
  intro p hp
  have hne : p.1 ≠ key := fun e => h (List.mem_map.mpr ⟨p, hp, e⟩)
  simpa using hne

/-- With distinct keys, a pair that is found and the list without it are the list. -/
theorem perm_erase {key : κ} {value : α} {pairs : List (κ × α)} (distinct : (keys pairs).Nodup)
    (h : get? key pairs = some value) : ((key, value) :: erase key pairs).Perm pairs := by
  induction pairs with
  | nil => cases h
  | cons p rest ih =>
    obtain ⟨k, v⟩ := p
    rw [keys, List.map_cons, List.nodup_cons] at distinct
    rw [get?] at h
    split at h
    · next hk =>
      cases h
      subst hk
      have hrest : erase k rest = rest := erase_of_notMem distinct.1
      rw [erase, List.filter_cons_of_neg (by simp), ← erase, hrest]
    · next hk =>
      rw [erase, List.filter_cons_of_pos (by simpa using hk), ← erase]
      exact (List.Perm.swap _ _ _).trans ((ih distinct.2 h).cons _)

theorem mem_put {key : κ} {value : α} {p : κ × α} {pairs : List (κ × α)} (h : p ∈ put key value pairs) :
    p ∈ pairs ∨ p = (key, value) := by
  induction pairs with
  | nil => exact .inr (List.mem_singleton.mp h)
  | cons q pairs ih =>
    unfold put at h
    split at h
    · next hkey =>
      rcases List.mem_cons.mp h with rfl | hmem
      · exact .inr (congrArg (·, value) hkey)
      · exact .inl (List.mem_cons_of_mem _ hmem)
    · rcases List.mem_cons.mp h with rfl | hmem
      · exact .inl List.mem_cons_self
      · exact (ih hmem).imp_left (List.mem_cons_of_mem _)

/-- A value that is set is there once, with all that was there under other keys. -/
theorem perm_put (key : κ) {pairs : List (κ × α)} (value : α) (distinct : (keys pairs).Nodup) :
    (put key value pairs).Perm ((key, value) :: erase key pairs) := by
  induction pairs with
  | nil => exact .refl _
  | cons p rest ih =>
    obtain ⟨k, v⟩ := p
    rw [keys, List.map_cons, List.nodup_cons] at distinct
    rw [put]
    split
    · next hk =>
      subst hk
      have hrest : erase k rest = rest := erase_of_notMem distinct.1
      rw [erase, List.filter_cons_of_neg (by simp), ← erase, hrest]
    · next hk =>
      rw [erase, List.filter_cons_of_pos (by simpa using hk), ← erase]
      exact ((ih distinct.2).cons _).trans (List.Perm.swap _ _ _)

theorem nodup_erase {key : κ} {pairs : List (κ × α)} (distinct : (keys pairs).Nodup) :
    (keys (erase key pairs)).Nodup :=
  distinct.sublist (List.filter_sublist.map Prod.fst)

theorem nodup_put {key : κ} {pairs : List (κ × α)} (value : α) (distinct : (keys pairs).Nodup) :
    (keys (put key value pairs)).Nodup := by
  have hperm : List.Perm (keys (put key value pairs)) _ := (perm_put key value distinct).map Prod.fst
  refine hperm.nodup_iff.mpr (List.nodup_cons.mpr ⟨fun hmem => ?_, nodup_erase distinct⟩)
  exact (mem_keys_erase.mp hmem).2 rfl

omit [DecidableEq κ] in
theorem keys_append_single (pairs : List (κ × α)) (key : κ) (value : α) :
    keys (pairs ++ [(key, value)]) = keys pairs ++ [key] := by
  simp [keys]

omit [DecidableEq κ] in
theorem forall_keys_append_single {P : κ → Prop} {key : κ} {value : α} {pairs : List (κ × α)}
    (h : ∀ k ∈ keys pairs, P k) (hkey : P key) : ∀ k ∈ keys (pairs ++ [(key, value)]), P k := by
  rw [keys_append_single]
  exact List.forall_mem_append.mpr ⟨h, List.forall_mem_singleton.mpr hkey⟩

omit [DecidableEq κ] in
theorem nodup_append_single {key : κ} {value : α} {pairs : List (κ × α)} (distinct : (keys pairs).Nodup)
    (h : key ∉ keys pairs) : (keys (pairs ++ [(key, value)])).Nodup := by
  rw [keys_append_single, List.nodup_append]
  refine ⟨distinct, List.nodup_singleton key, fun a ha b hb => ?_⟩
  rw [List.mem_singleton.mp hb]
  exact fun e => h (e ▸ ha)

end Keyed
end CoqConsole
