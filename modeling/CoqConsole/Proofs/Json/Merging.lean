import CoqConsole.Json.Merge
import CoqConsole.Proofs.Keyed

/-!
# What is in merged objects

A value laid over another decides wherever it says anything: what it has is there, what it does not mention stays, and
where it has something else than an object it hides all that was below.

* `Json.Distinct` : no object that can be reached by keys has a key twice;
* `Json.at?` : the value at a path of keys;
* `get?_mergeMembers`, `keys_mergeMembers` : what is under a key of merged members, and which keys there are;
* `at?_mergeValue_iff`, `at?_mergeValue_of_some` : the same along a path;
* `mergeValue_mergeValue` : laid over once more, a value changes nothing;
* `Json.Merges` : what merged objects have of both; `merges_mergeValue` : so it is with all objects.
-/

namespace CoqConsole

namespace Json

def IsObject (v : Json) : Prop := ∃ members, v = object members

/-- No object that can be reached by keys has a key twice. -/
inductive Distinct : Json → Prop
  | branch {members : List (String × Json)} (keys : (Keyed.keys members).Nodup)
    (values : ∀ p ∈ members, Distinct p.2) : Distinct (object members)
  | leaf {v : Json} (h : ¬ v.IsObject) : Distinct v

def at? : List String → Json → Option Json
  | [], v => some v
  | key :: path, v => (v.get? key).bind (at? path)

def membersOf : Option Json → List (String × Json)
  | some (object members) => members
  | _ => []

theorem get?_membersOf (key : String) (old : Option Json) :
    Keyed.get? key (membersOf old) = old.bind (Json.get? key) := by
  cases old with
  | none => rfl
  | some v => cases v <;> rfl

theorem Distinct.of_get? {members : List (String × Json)} (h : Distinct (object members)) {key : String} {v : Json}
    (hv : Keyed.get? key members = some v) : Distinct v := by
  cases h with
  | branch _ hmembers => exact hmembers _ (Keyed.mem_of_get? hv)
  | leaf h => exact absurd ⟨members, rfl⟩ h

theorem Distinct.nodup {members : List (String × Json)} (h : Distinct (object members)) :
    (Keyed.keys members).Nodup := by
  cases h with
  | branch hkeys _ => exact hkeys
  | leaf h => exact absurd ⟨members, rfl⟩ h

theorem Distinct.of_at? {v w : Json} (h : v.Distinct) {path : List String} (hw : v.at? path = some w) :
    w.Distinct := by
  induction path generalizing v with
  | nil =>
    cases hw
    exact h
  | cons key path ih =>
    obtain ⟨u, hu, hrest⟩ := Option.bind_eq_some_iff.mp hw
    cases v with
    | object members => exact ih (h.of_get? hu) hrest
    | _ => cases hu

/-! ## Members -/

theorem mergeValue_none (v : Json) : mergeValue none v = v := by
  cases v <;> simp [mergeValue]

theorem mergeValue_leaf (old : Option Json) {v : Json} (h : ¬ v.IsObject) : mergeValue old v = v := by
  cases v with
  | object members => exact absurd ⟨members, rfl⟩ h
  | _ => simp [mergeValue]

/-- Under a key of the members laid over others is their value, laid over what was there. -/
theorem get?_mergeMembers {patch : List (String × Json)} (distinct : (Keyed.keys patch).Nodup) (key : String)
    (base : List (String × Json)) :
    Keyed.get? key (mergeMembers base patch) =
      match Keyed.get? key patch with
      | some v => some (mergeValue (Keyed.get? key base) v)
      | none => Keyed.get? key base := by
  induction patch generalizing base with
  | nil => rfl
  | cons p rest ih =>
    obtain ⟨k, v⟩ := p
    rw [Keyed.keys_cons, List.nodup_cons] at distinct
    rw [mergeMembers, ih distinct.2, Keyed.get?, Keyed.get?_put]
    by_cases hk : k = key
    · subst hk
      rw [Keyed.get?_eq_none.mpr distinct.1, if_pos rfl, if_pos rfl]
    · rw [if_neg hk, if_neg hk]

/-- The old keys stay in their places, and the new ones come behind them in their order. -/
theorem keys_mergeMembers {patch : List (String × Json)} (distinct : (Keyed.keys patch).Nodup)
    (base : List (String × Json)) :
    Keyed.keys (mergeMembers base patch) =
      Keyed.keys base ++ (Keyed.keys patch).filter (· ∉ Keyed.keys base) := by
  induction patch generalizing base with
  | nil => simp [mergeMembers, Keyed.keys]
  | cons p rest ih =>
    obtain ⟨k, v⟩ := p
    rw [Keyed.keys_cons, List.nodup_cons] at distinct
    have hrest : (Keyed.keys rest).filter (· ∉ Keyed.keys base ++ if k ∈ Keyed.keys base then [] else [k]) =
        (Keyed.keys rest).filter (· ∉ Keyed.keys base) := by
      refine List.filter_congr fun key hkey => ?_
      have hne : key ≠ k := fun e => distinct.1 (e ▸ hkey)
      split <;> simp [hne]
    rw [mergeMembers, ih distinct.2, Keyed.keys_put, hrest, Keyed.keys_cons, List.append_assoc]
    by_cases hk : k ∈ Keyed.keys base
    · rw [if_pos hk, List.filter_cons_of_neg (by simpa using hk), List.nil_append]
    · rw [if_neg hk, List.filter_cons_of_pos (by simpa using hk), List.singleton_append]

/-- Members of which all are there already, even when laid over once more, change nothing. -/
theorem mergeMembers_of_kept {base patch : List (String × Json)}
    (h : ∀ p ∈ patch, ∃ v, Keyed.get? p.1 base = some v ∧ mergeValue (some v) p.2 = v) :
    mergeMembers base patch = base := by
  induction patch with
  | nil => rfl
  | cons p rest ih =>
    obtain ⟨k, v'⟩ := p
    rw [List.forall_mem_cons] at h
    obtain ⟨⟨v, hget, hkept⟩, hrest⟩ := h
    rw [mergeMembers, hget, hkept, Keyed.put_of_get? hget, ih hrest]

theorem mergeMembers_eq_append {base patch : List (String × Json)} (distinct : (Keyed.keys (base ++ patch)).Nodup) :
    mergeMembers base patch = base ++ patch := by
  induction patch generalizing base with
  | nil => simp [mergeMembers]
  | cons p rest ih =>
    obtain ⟨k, v⟩ := p
    have hnew : k ∉ Keyed.keys base := fun hmem => by
      rw [Keyed.keys, List.map_append] at distinct
      exact (List.nodup_append.mp distinct).2.2 k hmem k List.mem_cons_self rfl
    rw [mergeMembers, Keyed.get?_eq_none.mpr hnew, mergeValue_none, Keyed.put_of_notMem v hnew,
      ih (by rwa [List.append_assoc]), List.append_assoc, List.singleton_append]

/-- An object laid over anything else is as if laid over no members. -/
theorem mergeValue_object (old : Option Json) {patch : List (String × Json)} (distinct : (Keyed.keys patch).Nodup) :
    mergeValue old (object patch) = object (mergeMembers (membersOf old) patch) := by
  have hnone : mergeMembers [] patch = patch := mergeMembers_eq_append distinct
  cases old with
  | none => rw [mergeValue_none, show membersOf none = [] from rfl, hnone]
  | some v =>
    cases v with
    | object base => rw [mergeValue, membersOf]
    | _ => simp [mergeValue, membersOf, hnone]

/-! ## Paths -/

theorem at?_cons_object (key : String) (path : List String) (members : List (String × Json)) :
    at? (key :: path) (object members) = (Keyed.get? key members).bind (at? path) := rfl

theorem at?_cons_leaf (key : String) (path : List String) {v : Json} (h : ¬ v.IsObject) : at? (key :: path) v = none := by
  cases v with
  | object members => exact absurd ⟨members, rfl⟩ h
  | _ => rfl

/-- Something else than an object is at a path above this one. -/
def HiddenBelow (v : Json) (path : List String) : Prop :=
  ∃ above, above <+: path ∧ above ≠ path ∧ ∃ w, v.at? above = some w ∧ ¬ w.IsObject

theorem hiddenBelow_cons_object {key : String} {path : List String} {members : List (String × Json)} :
    (object members).HiddenBelow (key :: path) ↔
      ∃ v, Keyed.get? key members = some v ∧ v.HiddenBelow path := by
  constructor
  · rintro ⟨above, hprefix, hne, w, hw, hleaf⟩
    cases above with
    | nil =>
      obtain rfl : object members = w := Option.some.inj hw
      exact absurd ⟨members, rfl⟩ hleaf
    | cons k above =>
      obtain ⟨rfl, hrest⟩ := List.cons_prefix_cons.mp hprefix
      rw [at?_cons_object, Option.bind_eq_some_iff] at hw
      obtain ⟨v, hv, hw⟩ := hw
      exact ⟨v, hv, above, hrest, fun e => hne (e ▸ rfl), w, hw, hleaf⟩
  · rintro ⟨v, hv, above, hprefix, hne, w, hw, hleaf⟩
    refine ⟨key :: above, List.cons_prefix_cons.mpr ⟨rfl, hprefix⟩, fun e => hne (List.cons.inj e).2, w, ?_, hleaf⟩
    rw [at?_cons_object, hv, Option.bind_some, hw]

theorem hiddenBelow_cons_leaf {key : String} {path : List String} {v : Json} (h : ¬ v.IsObject) :
    v.HiddenBelow (key :: path) :=
  ⟨[], List.nil_prefix, (List.cons_ne_nil key path).symm, v, rfl, h⟩

/-- What is no object comes from the value laid over another, or from that one where the value neither has anything nor
hides it. -/
theorem at?_mergeValue_iff {v : Json} (hv : v.Distinct) (old : Option Json) (path : List String) {leaf : Json}
    (hleaf : ¬ leaf.IsObject) :
    (mergeValue old v).at? path = some leaf ↔
      v.at? path = some leaf ∨ old.bind (at? path) = some leaf ∧ v.at? path = none ∧ ¬ v.HiddenBelow path := by
  induction path generalizing old v with
  | nil =>
    by_cases hobject : v.IsObject
    · obtain ⟨patch, rfl⟩ := hobject
      rw [mergeValue_object old hv.nodup]
      constructor
      · intro h
        exact absurd ⟨_, (Option.some.inj h).symm⟩ hleaf
      · rintro (h | ⟨-, h, -⟩)
        · exact absurd ⟨_, (Option.some.inj h).symm⟩ hleaf
        · cases h
    · rw [mergeValue_leaf old hobject]
      simp [at?]
  | cons key path ih =>
    by_cases hobject : v.IsObject
    · obtain ⟨patch, rfl⟩ := hobject
      have hold : old.bind (at? (key :: path)) = (Keyed.get? key (membersOf old)).bind (at? path) := by
        rw [get?_membersOf, Option.bind_assoc]
        rfl
      rw [mergeValue_object old hv.nodup, at?_cons_object, at?_cons_object, get?_mergeMembers hv.nodup,
        hiddenBelow_cons_object, hold]
      cases hkey : Keyed.get? key patch with
      | none => simp
      | some w => simpa using ih (hv.of_get? hkey) (Keyed.get? key (membersOf old))
    · rw [mergeValue_leaf old hobject, at?_cons_leaf key path hobject]
      simp [hiddenBelow_cons_leaf hobject]

/-- Where both have a value, the one is laid over the other. -/
theorem at?_mergeValue_of_some {old v : Json} (hv : v.Distinct) {path : List String} {x y : Json}
    (hx : old.at? path = some x) (hy : v.at? path = some y) :
    (mergeValue (some old) v).at? path = some (mergeValue (some x) y) := by
  induction path generalizing old v with
  | nil =>
    cases hx
    cases hy
    rfl
  | cons key path ih =>
    obtain ⟨w, hw, hpathy⟩ := Option.bind_eq_some_iff.mp hy
    obtain ⟨u, hu, hpathx⟩ := Option.bind_eq_some_iff.mp hx
    cases v with
    | object patch =>
      cases old with
      | object base =>
        rw [mergeValue, at?_cons_object, get?_mergeMembers hv.nodup, show Keyed.get? key patch = some w from hw,
          show Keyed.get? key base = some u from hu]
        exact ih (hv.of_get? hw) hpathx hpathy
      | _ => cases hu
    | _ => cases hw

/-! ## Once more -/

theorem mergeValue_mergeValue {v : Json} (hv : v.Distinct) (old : Option Json) :
    mergeValue (some (mergeValue old v)) v = mergeValue old v := by
  induction hv generalizing old with
  | leaf h => rw [mergeValue_leaf _ h, mergeValue_leaf _ h]
  | @branch patch hkeys _ ih =>
    rw [mergeValue_object old hkeys, mergeValue_object _ hkeys, membersOf]
    congr 1
    refine mergeMembers_of_kept fun p hp => ⟨mergeValue (Keyed.get? p.1 (membersOf old)) p.2, ?_, ih p hp _⟩
    rw [get?_mergeMembers hkeys, (Keyed.get?_eq_some hkeys).mpr hp]

theorem mergeValue_self {v : Json} (hv : v.Distinct) : mergeValue (some v) v = v := by
  have h := mergeValue_mergeValue hv none
  rwa [mergeValue_none] at h

theorem Distinct.mergeValue {v : Json} (hv : v.Distinct) {old : Option Json} (hold : ∀ x ∈ old, Distinct x) :
    (mergeValue old v).Distinct := by
  induction hv generalizing old with
  | leaf h =>
    rw [mergeValue_leaf old h]
    exact .leaf h
  | @branch patch hkeys _ ih =>
    have hbase : (object (membersOf old)).Distinct := by
      cases old with
      | none => exact .branch List.nodup_nil (List.forall_mem_nil _)
      | some x =>
        cases x with
        | object base => exact hold _ rfl
        | _ => exact .branch List.nodup_nil (List.forall_mem_nil _)
    have hmerged : (Keyed.keys (mergeMembers (membersOf old) patch)).Nodup := by
      rw [keys_mergeMembers hkeys, List.nodup_append]
      refine ⟨hbase.nodup, hkeys.filter _, fun a ha b hb e => ?_⟩
      have hnew := (List.mem_filter.mp hb).2
      simp [← e, ha] at hnew
    rw [mergeValue_object old hkeys]
    refine .branch hmerged fun p hp => ?_
    have hget := (Keyed.get?_eq_some hmerged).mpr hp
    rw [get?_mergeMembers hkeys] at hget
    cases hpatch : Keyed.get? p.1 patch with
    | none =>
      rw [hpatch] at hget
      exact hbase.of_get? hget
    | some w =>
      rw [hpatch] at hget
      rw [← Option.some.inj hget]
      exact ih _ (Keyed.mem_of_get? hpatch) fun x hx => hbase.of_get? hx

/-! ## All objects -/

/-- What an object has of two of which the second was laid over the first. -/
structure Merges (base patch merged : Json) : Prop where
  distinct : merged.Distinct
  /-- A value that is no object comes from the second, or from the first where the second has nothing at its path and
  only objects above. -/
  found : ∀ path leaf, ¬ leaf.IsObject → (merged.at? path = some leaf ↔ patch.at? path = some leaf ∨
    base.at? path = some leaf ∧ patch.at? path = none ∧
      ∀ above, above <+: path → above ≠ path → ∀ v, patch.at? above = some v → v.IsObject)
  /-- Where both have objects, the keys of the first are followed by the new ones of the second. -/
  keys : ∀ path old new, base.at? path = some (object old) → patch.at? path = some (object new) →
    ∃ members, merged.at? path = some (object members) ∧
      Keyed.keys members = Keyed.keys old ++ (Keyed.keys new).filter (· ∉ Keyed.keys old)

theorem merges_mergeValue {base patch : Json} (hbase : base.Distinct) (hpatch : patch.Distinct) :
    Merges base patch (mergeValue (some base) patch) := by
  constructor
  case distinct =>
    refine hpatch.mergeValue fun x hx => ?_
    rwa [← Option.some.inj hx]
  case found =>
    intro path leaf hleaf
    rw [at?_mergeValue_iff hpatch (some base) path hleaf, Option.bind_some]
    simp only [HiddenBelow, not_exists, not_and, not_not]
  case keys =>
    intro path old new hold hnew
    have hkeys : (Keyed.keys new).Nodup := (hpatch.of_at? hnew).nodup
    rw [at?_mergeValue_of_some hpatch hold hnew, mergeValue_object _ hkeys]
    exact ⟨_, rfl, keys_mergeMembers hkeys old⟩

end Json
end CoqConsole
