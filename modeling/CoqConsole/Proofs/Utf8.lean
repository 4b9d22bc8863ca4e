import CoqConsole.Text.Utf8

/-!
# Octets of a text

* `follow_cons`, `lead?_two`, `lead?_three`, `lead?_four` : what the octets of a character contribute;
* `next_encodeChar` : a character is read from its octets, whatever comes after them;
* `decode?_encode` : a text is read from its octets.
-/

namespace CoqConsole.Utf8

theorem toNat_toUInt8 {n : Nat} (h : n < 256) : n.toUInt8.toNat = n := by
  rw [Nat.toUInt8, UInt8.toNat_ofNat', Nat.mod_eq_of_lt h]

/-- An octet in its range adds six bits. -/
theorem follow_cons {t first last : Nat} (v : Nat) (ranges : List (Nat × Nat)) (bs : List UInt8) (ht : t < 0x40)
    (hfirst : first ≤ 0x80 + t) (hlast : 0x80 + t ≤ last) :
    follow v ((first, last) :: ranges) ((0x80 + t).toUInt8 :: bs) = follow (v * 64 + t) ranges bs := by
  rw [follow, toNat_toUInt8 (by omega), if_pos ⟨hfirst, hlast⟩, Nat.add_sub_cancel_left]

theorem lead?_two {m : Nat} (hm : m < 0x20) (hlong : 2 ≤ m) : lead? (0xc0 + m) = some (m, [(0x80, 0xbf)]) := by
  rw [lead?, if_neg (by omega), if_neg (by omega), if_pos (by omega), Nat.add_sub_cancel_left]

theorem lead?_three : ∀ m < 0x10, lead? (0xe0 + m) =
    some (m, [(if m = 0 then 0xa0 else 0x80, if m = 0xd then 0x9f else 0xbf), (0x80, 0xbf)]) := by decide

theorem lead?_four : ∀ m ≤ 4, lead? (0xf0 + m) =
    some (m, [(if m = 0 then 0x90 else 0x80, if m = 4 then 0x8f else 0xbf), (0x80, 0xbf), (0x80, 0xbf)]) := by decide

/-- A character is read from its octets, whatever comes after them. -/
theorem next_encodeChar (c : Char) (more : List UInt8) :
    ∃ b bs, encodeChar c = b :: bs ∧ next b (bs ++ more) = (some c, more) := by
  have hvalid : c.toNat < 0xd800 ∨ 0xdfff < c.toNat ∧ c.toNat < 0x110000 := c.valid
  have hchar : ∀ {n}, n = c.toNat → (some n).map Char.ofNat = some c := fun h => by
    rw [h, Option.map_some, Char.ofNat_toNat]
  unfold encodeChar
  extract_lets n
  have hn : n = c.toNat := rfl
  rw [← hn] at hvalid
  by_cases hone : n < 0x80
  · rw [if_pos hone]
    refine ⟨_, _, rfl, ?_⟩
    rw [next, toNat_toUInt8 (by omega), lead?, if_pos hone]
    simp only [follow, List.nil_append, hchar hn]
  rw [if_neg hone]
  by_cases htwo : n < 0x800
  · rw [if_pos htwo]
    refine ⟨_, _, rfl, ?_⟩
    rw [next, toNat_toUInt8 (by omega), lead?_two (by omega) (by omega)]
    simp only [List.cons_append, List.nil_append]
    rw [follow_cons _ _ _ (by omega) (by omega) (by omega)]
    simp only [follow, hchar (show n / 0x40 * 64 + n % 0x40 = c.toNat by omega)]
  rw [if_neg htwo]
  by_cases hthree : n < 0x10000
  · rw [if_pos hthree]
    refine ⟨_, _, rfl, ?_⟩
    rw [next, toNat_toUInt8 (by omega), lead?_three (n / 0x1000) (by omega)]
    simp only [List.cons_append, List.nil_append]
    rw [follow_cons _ _ _ (by omega) (by split <;> omega) (by split <;> omega),
      follow_cons _ _ _ (by omega) (by omega) (by omega)]
    simp only [follow, hchar (show (n / 0x1000 * 64 + n / 0x40 % 0x40) * 64 + n % 0x40 = c.toNat by omega)]
  · rw [if_neg hthree]
    refine ⟨_, _, rfl, ?_⟩
    rw [next, toNat_toUInt8 (by omega), lead?_four (n / 0x40000) (by omega)]
    simp only [List.cons_append, List.nil_append]
    rw [follow_cons _ _ _ (by omega) (by split <;> omega) (by split <;> omega),
      follow_cons _ _ _ (by omega) (by omega) (by omega), follow_cons _ _ _ (by omega) (by omega) (by omega)]
    simp only [follow, hchar (show ((n / 0x40000 * 64 + n / 0x1000 % 0x40) * 64 + n / 0x40 % 0x40) * 64 + n % 0x40 =
      c.toNat by omega)]

theorem decode?_encode (cs : List Char) : decode? (encode cs) = some cs := by
  induction cs with
  | nil => rw [encode, List.flatMap_nil, decode?]
  | cons c cs ih =>
    obtain ⟨b, bs, hoctets, hnext⟩ := next_encodeChar c (encode cs)
    have hencode : encode (c :: cs) = b :: (bs ++ encode cs) := by
      rw [encode, List.flatMap_cons, hoctets, List.cons_append, encode]
    rw [hencode, decode?, hnext]
    simp only [ih, Option.map_some]

end CoqConsole.Utf8
