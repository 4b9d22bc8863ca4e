import CoqConsole.Proofs.Json.Tokens
import CoqConsole.Proofs.Keyed

/-!
# Written values

* `Json.Plain` : values without doubles, with distinct keys, whose numbers and depth are within the limits;
* `Json.ReadsBack` : a value is read from what is written for it, with as much fuel as it is long;
* `Json.Plain.readsBack` : this is so for every plain value;
* `Json.readChars_chars` : so the text of a plain value is read as this value.
-/

namespace CoqConsole.Json

/-- A value of which at most `depth` levels are nested, whose whole numbers have no more digits than are read,
and whose objects have distinct keys. -/
inductive Plain : Nat → Json → Prop
  | null {depth : Nat} : Plain depth .null
  | bool {depth : Nat} (b : Bool) : Plain depth (.bool b)
  | int {depth : Nat} {n : Int} (short : (digits n.natAbs).length ≤ Number.digitLimit) : Plain depth (.int n)
  | text {depth : Nat} (s : String) : Plain depth (.text s)
  | array {depth : Nat} {items : List Json} (plain : ∀ v ∈ items, Plain depth v) : Plain (depth + 1) (.array items)
  | object {depth : Nat} {members : List (String × Json)} (distinct : (Keyed.keys members).Nodup)
      (plain : ∀ p ∈ members, Plain depth p.2) : Plain (depth + 1) (.object members)

/-- A value is read from what is written for it, with as much fuel as it is long. -/
def ReadsBack (depth : Nat) (v : Json) : Prop :=
  ∀ (fuel : Nat) (rest : List Char), (chars v).length ≤ fuel → Follows rest →
    valueAt fuel depth (chars v ++ rest) = .ok (v, rest)

/-- What is written begins with neither a blank nor the end of a list or an object. -/
def Opens (cs : List Char) : Prop := ∃ c more, cs = c :: more ∧ isSpace c = false ∧ c ≠ ']' ∧ c ≠ '\x7d'

theorem skipSpace_cons {c : Char} (h : isSpace c = false) (cs : List Char) : skipSpace (c :: cs) = c :: cs :=
  List.dropWhile_cons_of_neg (Bool.not_eq_true _ ▸ h)

theorem Opens.append {cs : List Char} (h : Opens cs) (rest : List Char) : Opens (cs ++ rest) := by
  obtain ⟨c, more, rfl, hc⟩ := h
  exact ⟨c, more ++ rest, rfl, hc⟩

theorem Opens.skipSpace {cs : List Char} (h : Opens cs) : skipSpace cs = cs := by
  obtain ⟨c, more, rfl, hspace, -⟩ := h
  exact skipSpace_cons hspace more

/-- A number begins with a sign or a digit. -/
theorem number_eq_cons (n : Int) : ∃ c more, number n = c :: more ∧ (c = '-' ∨ c.isDigit) := by
  obtain ⟨c, more, hmore⟩ := List.exists_cons_of_ne_nil (Nat.toDigits_ne_nil (n := n.natAbs) (b := 10))
  rw [number]
  split
  · exact ⟨'-', _, rfl, .inl rfl⟩
  · exact ⟨c, more, hmore, .inr (isDigit_of_mem_digits (hmore ▸ List.mem_cons_self))⟩

theorem ne_of_number {c d : Char} (h : c = '-' ∨ c.isDigit) (hd : d ≠ '-' ∧ ¬ d.isDigit) : c ≠ d := by
  rintro rfl
  exact h.elim hd.1 hd.2

theorem Plain.opens {depth : Nat} {v : Json} (h : Plain depth v) : Opens (chars v) := by
  cases h with
  | null => exact ⟨'n', _, rfl, rfl, by decide⟩
  | bool b =>
    cases b
    · exact ⟨'f', _, rfl, rfl, by decide⟩
    · exact ⟨'t', _, rfl, rfl, by decide⟩
  | @int _ n _ =>
    obtain ⟨c, more, hmore, hc⟩ := number_eq_cons n
    have hspace : isSpace c = false := by
      simp only [isSpace, Bool.or_eq_false_iff, beq_eq_false_iff_ne]
      refine ⟨⟨⟨?_, ?_⟩, ?_⟩, ?_⟩ <;> exact ne_of_number hc (by decide)
    exact ⟨c, more, hmore, hspace, ne_of_number hc (by decide), ne_of_number hc (by decide)⟩
  | text s => exact ⟨'"', _, rfl, rfl, by decide⟩
  | array _ => exact ⟨'[', _, rfl, rfl, by decide⟩
  | object _ _ => exact ⟨'\x7b', _, rfl, rfl, by decide⟩

theorem follows_cons {c : Char} (h : c = ',' ∨ c = ']' ∨ c = '\x7d') (rest : List Char) : Follows (c :: rest) :=
  fun _ hc => Option.mem_some.mp hc ▸ h

/-- Words and numbers. -/
theorem valueAt_plain {c : Char} (h : c ≠ '"' ∧ c ≠ '[' ∧ c ≠ '\x7b') (fuel depth : Nat) (cs : List Char) :
    valueAt (fuel + 1) depth (c :: cs) = plainAt (c :: cs) := by
  rw [valueAt]
  · exact fun _ e => h.1 (List.cons.inj e).1
  · exact fun _ e => h.2.1 (List.cons.inj e).1
  · exact fun _ e => h.2.2 (List.cons.inj e).1

theorem opens_itemChars {v : Json} (h : Opens (chars v)) (items : List Json) : Opens (itemChars (v :: items)) := by
  cases items with
  | nil => exact h
  | cons w items => exact h.append _

theorem itemsAt_itemChars {depth : Nat} {items : List Json} (hread : ∀ v ∈ items, ReadsBack depth v)
    (hopens : ∀ v ∈ items, Opens (chars v)) (hne : items ≠ []) (rest : List Char) :
    ∀ {fuel : Nat}, (itemChars items).length < fuel →
      itemsAt fuel depth (itemChars items ++ ']' :: rest) = .ok (items, rest) := by
  induction items with
  | nil => exact absurd rfl hne
  | cons v items ih =>
    intro fuel hfuel
    obtain ⟨fuel, rfl⟩ := Nat.exists_eq_succ_of_ne_zero (show fuel ≠ 0 by omega)
    rw [List.forall_mem_cons] at hread hopens
    cases items with
    | nil =>
      have hvalue := hread.1 fuel _ (Nat.le_of_lt_succ hfuel) (follows_cons (.inr (.inl rfl)) rest)
      rw [itemChars, itemsAt, hvalue]
      rfl
    | cons w items =>
      have hwritten : itemChars (v :: w :: items) = chars v ++ ',' :: ' ' :: itemChars (w :: items) := rfl
      rw [hwritten, List.length_append, List.length_cons, List.length_cons] at hfuel
      have hvalue := hread.1 fuel _ (by omega)
        (follows_cons (.inl rfl) (' ' :: itemChars (w :: items) ++ ']' :: rest))
      have hblank : skipSpace (' ' :: itemChars (w :: items) ++ ']' :: rest) = itemChars (w :: items) ++ ']' :: rest :=
        ((opens_itemChars (hopens.2 w List.mem_cons_self) items).append _).skipSpace
      have hroom : (itemChars (w :: items)).length < fuel := by omega
      have htail := ih hread.2 hopens.2 (List.cons_ne_nil w items) hroom
      have hcomma : ∀ cs, skipSpace (',' :: cs) = ',' :: cs := skipSpace_cons rfl
      rw [hwritten, List.append_assoc, itemsAt, List.cons_append, hvalue]
      simp only [bind, Except.bind, hcomma, hblank, htail]
      rfl

theorem membersAt_last {depth fuel : Nat} (key : String) {v : Json} (hread : ReadsBack depth v)
    (hopens : Opens (chars v)) (hfuel : (chars v).length ≤ fuel) (rest : List Char) :
    membersAt (fuel + 1) depth (quotedText key ++ ':' :: ' ' :: (chars v ++ '\x7d' :: rest)) = .ok ([(key, v)], rest) := by
  obtain ⟨body, hbody, htext⟩ := textAt_quotedText key (':' :: ' ' :: (chars v ++ '\x7d' :: rest))
  have hblank : skipSpace (' ' :: (chars v ++ '\x7d' :: rest)) = chars v ++ '\x7d' :: rest := (hopens.append _).skipSpace
  have hvalue := hread fuel _ hfuel (follows_cons (.inr (.inr rfl)) rest)
  rw [hbody, membersAt, htext]
  simp only [bind, Except.bind, skipSpace_cons (c := ':') rfl, hblank, hvalue, skipSpace_cons (c := '\x7d') rfl]
  rfl

theorem membersAt_more {depth fuel : Nat} (key : String) {v : Json} (hread : ReadsBack depth v)
    (hopens : Opens (chars v)) (hfuel : (chars v).length ≤ fuel) {tail rest : List Char}
    {members : List (String × Json)} (htail : Opens tail) (hmembers : membersAt fuel depth tail = .ok (members, rest)) :
    membersAt (fuel + 1) depth (quotedText key ++ ':' :: ' ' :: (chars v ++ ',' :: ' ' :: tail)) =
      .ok ((key, v) :: members, rest) := by
  obtain ⟨body, hbody, htext⟩ := textAt_quotedText key (':' :: ' ' :: (chars v ++ ',' :: ' ' :: tail))
  have hblank : skipSpace (' ' :: (chars v ++ ',' :: ' ' :: tail)) = chars v ++ ',' :: ' ' :: tail :=
    (hopens.append _).skipSpace
  have hspace : skipSpace (' ' :: tail) = tail := htail.skipSpace
  have hvalue := hread fuel _ hfuel (follows_cons (.inl rfl) (' ' :: tail))
  rw [hbody, membersAt, htext]
  simp only [bind, Except.bind, skipSpace_cons (c := ':') rfl, hblank, hvalue, skipSpace_cons (c := ',') rfl, hspace,
    hmembers]
  rfl

theorem opens_memberChars (key : String) (v : Json) (members : List (String × Json)) :
    Opens (memberChars ((key, v) :: members)) := by
  cases members with
  | nil => exact ⟨'"', _, rfl, rfl, by decide⟩
  | cons p members => exact ⟨'"', _, rfl, rfl, by decide⟩

theorem membersAt_memberChars {depth : Nat} {members : List (String × Json)}
    (hread : ∀ p ∈ members, ReadsBack depth p.2) (hopens : ∀ p ∈ members, Opens (chars p.2)) (hne : members ≠ [])
    (rest : List Char) : ∀ {fuel : Nat}, (memberChars members).length < fuel →
      membersAt fuel depth (memberChars members ++ '\x7d' :: rest) = .ok (members, rest) := by
  induction members with
  | nil => exact absurd rfl hne
  | cons p members ih =>
    obtain ⟨key, v⟩ := p
    intro fuel hfuel
    obtain ⟨fuel, rfl⟩ := Nat.exists_eq_succ_of_ne_zero (show fuel ≠ 0 by omega)
    rw [List.forall_mem_cons] at hread hopens
    cases members with
    | nil =>
      have hwritten : memberChars [(key, v)] = quotedText key ++ ':' :: ' ' :: chars v := rfl
      rw [hwritten, List.length_append, List.length_cons, List.length_cons] at hfuel
      rw [hwritten, List.append_assoc, List.cons_append, List.cons_append]
      exact membersAt_last key hread.1 hopens.1 (show (chars v).length ≤ fuel by omega) rest
    | cons q members =>
      have hwritten : memberChars ((key, v) :: q :: members) =
          quotedText key ++ ':' :: ' ' :: (chars v ++ ',' :: ' ' :: memberChars (q :: members)) := rfl
      rw [hwritten, List.length_append, List.length_cons, List.length_cons, List.length_append, List.length_cons,
        List.length_cons] at hfuel
      have hroom : (memberChars (q :: members)).length < fuel := by omega
      have htail := ih hread.2 hopens.2 (List.cons_ne_nil q members) hroom
      rw [hwritten, List.append_assoc, List.cons_append, List.cons_append, List.append_assoc, List.cons_append,
        List.cons_append]
      exact membersAt_more key hread.1 hopens.1 (show (chars v).length ≤ fuel by omega)
        ((opens_memberChars q.1 q.2 members).append _) htail

theorem ofMembers_of_nodup {members : List (String × Json)} (distinct : (Keyed.keys members).Nodup) :
    ofMembers members = object members :=
  congrArg object (Keyed.foldl_put distinct)

theorem valueAt_array {cs : List Char} (h : Opens cs) (fuel depth : Nat) :
    valueAt (fuel + 1) (depth + 1) ('[' :: cs) = (itemsAt fuel depth cs).map fun p => (array p.1, p.2) := by
  have hblank := h.skipSpace
  obtain ⟨c, more, rfl, -, hclose, -⟩ := h
  rw [valueAt, hblank]
  split
  · next heq => exact absurd (List.cons.inj heq).1 hclose
  · cases itemsAt fuel depth (c :: more) <;> rfl

theorem valueAt_object {cs : List Char} (h : Opens cs) (fuel depth : Nat) :
    valueAt (fuel + 1) (depth + 1) ('\x7b' :: cs) = (membersAt fuel depth cs).map fun p => (ofMembers p.1, p.2) := by
  have hblank := h.skipSpace
  obtain ⟨c, more, rfl, -, -, hclose⟩ := h
  rw [valueAt, hblank]
  split
  · next heq => exact absurd (List.cons.inj heq).1 hclose
  · cases membersAt fuel depth (c :: more) <;> rfl

/-- No value is read without fuel, and none is written in no characters. -/
theorem ReadsBack.of_succ {depth : Nat} {v : Json} (hopens : Opens (chars v))
    (h : ∀ (fuel : Nat) (rest : List Char), (chars v).length ≤ fuel + 1 → Follows rest →
      valueAt (fuel + 1) depth (chars v ++ rest) = .ok (v, rest)) : ReadsBack depth v := by
  intro fuel rest hfuel
  obtain ⟨c, more, hmore, -⟩ := hopens
  have hpos : fuel ≠ 0 := by
    rw [hmore, List.length_cons] at hfuel
    omega
  obtain ⟨fuel, rfl⟩ := Nat.exists_eq_succ_of_ne_zero hpos
  exact h fuel rest hfuel

theorem readsBack_array {depth : Nat} {items : List Json} (hread : ∀ v ∈ items, ReadsBack depth v)
    (hopens : ∀ v ∈ items, Opens (chars v)) : ReadsBack (depth + 1) (array items) := by
  refine .of_succ ⟨'[', _, rfl, rfl, by decide⟩ fun fuel rest hfuel _ => ?_
  have hlength : (chars (array items)).length = (itemChars items).length + 2 := by simp [chars]
  rw [chars, List.cons_append, List.append_assoc, List.singleton_append]
  cases items with
  | nil => rfl
  | cons v items =>
    have hroom : (itemChars (v :: items)).length < fuel := by omega
    have hitems := itemsAt_itemChars hread hopens (List.cons_ne_nil v items) rest hroom
    rw [valueAt_array ((opens_itemChars (hopens v List.mem_cons_self) items).append _), hitems]
    rfl

theorem readsBack_object {depth : Nat} {members : List (String × Json)} (distinct : (Keyed.keys members).Nodup)
    (hread : ∀ p ∈ members, ReadsBack depth p.2) (hopens : ∀ p ∈ members, Opens (chars p.2)) :
    ReadsBack (depth + 1) (object members) := by
  refine .of_succ ⟨'\x7b', _, rfl, rfl, by decide⟩ fun fuel rest hfuel _ => ?_
  have hlength : (chars (object members)).length = (memberChars members).length + 2 := by simp [chars]
  rw [chars, List.cons_append, List.append_assoc, List.singleton_append]
  cases members with
  | nil => rfl
  | cons p members =>
    have hroom : (memberChars (p :: members)).length < fuel := by omega
    have hmembers := membersAt_memberChars hread hopens (List.cons_ne_nil p members) rest hroom
    rw [valueAt_object ((opens_memberChars p.1 p.2 members).append _), hmembers, Except.map,
      ofMembers_of_nodup distinct]

/-- A plain value is read from what is written for it. -/
theorem Plain.readsBack {depth : Nat} {v : Json} (h : Plain depth v) : ReadsBack depth v := by
  have hopens := h.opens
  induction h with
  | null => exact .of_succ hopens fun _ rest _ _ => (valueAt_plain (by decide) _ _ _).trans (plainAt_null rest)
  | bool b =>
    refine .of_succ hopens fun _ rest _ _ => Eq.trans ?_ (plainAt_bool b rest)
    cases b <;> exact valueAt_plain (by decide) _ _ _
  | @int _ n short =>
    refine .of_succ hopens fun _ _ _ hrest => ?_
    obtain ⟨c, more, hmore, hc⟩ := number_eq_cons n
    rw [← plainAt_number hrest short, chars, hmore, List.cons_append]
    exact valueAt_plain ⟨ne_of_number hc (by decide), ne_of_number hc (by decide), ne_of_number hc (by decide)⟩ _ _ _
  | text s =>
    refine .of_succ hopens fun _ rest _ _ => ?_
    obtain ⟨body, hbody, htext⟩ := textAt_quotedText s rest
    rw [chars, hbody, valueAt, htext]
    rfl
  | array plain ih =>
    exact readsBack_array (fun v hv => ih v hv (plain v hv).opens) fun v hv => (plain v hv).opens
  | object distinct plain ih =>
    exact readsBack_object distinct (fun p hp => ih p hp (plain p hp).opens) fun p hp => (plain p hp).opens

/-- The text of a plain value is read as this value. -/
theorem readChars_chars {v : Json} (h : Plain depthLimit v) : readChars (chars v) = .ok v := by
  have hblank : skipSpace (chars v) = chars v := h.opens.skipSpace
  have hvalue := h.readsBack _ [] (Nat.le_succ (chars v).length) (by rintro _ ⟨⟩)
  rw [List.append_nil] at hvalue
  rw [readChars, hblank, hvalue]
  rfl

end CoqConsole.Json
