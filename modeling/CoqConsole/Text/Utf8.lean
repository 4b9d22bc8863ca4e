/-!
# UTF-8

* `Utf8.encode` : the octets of a text;
* `Utf8.decode?` : the text of octets in shortest form, `none` if they are in no such form;
* `Utf8.decodeLossy` : the same with one `U+FFFD` for each longest beginning of a sequence that
  does not go on.
-/

namespace CoqConsole.Utf8

def encodeChar (c : Char) : List UInt8 :=
  let n := c.toNat
  if n < 0x80 then [n.toUInt8]
  else if n < 0x800 then [(0xc0 + n / 0x40).toUInt8, (0x80 + n % 0x40).toUInt8]
  else if n < 0x10000 then
    [(0xe0 + n / 0x1000).toUInt8, (0x80 + n / 0x40 % 0x40).toUInt8, (0x80 + n % 0x40).toUInt8]
  else
    [(0xf0 + n / 0x40000).toUInt8, (0x80 + n / 0x1000 % 0x40).toUInt8,
     (0x80 + n / 0x40 % 0x40).toUInt8, (0x80 + n % 0x40).toUInt8]

def encode (cs : List Char) : List UInt8 := cs.flatMap encodeChar

/-- What a lead octet contributes, and the ranges of the octets that have to follow it. -/
def lead? (b : Nat) : Option (Nat × List (Nat × Nat)) :=
  let tail : Nat × Nat := (0x80, 0xbf)
  if b < 0x80 then some (b, [])
  else if b < 0xc2 then none
  else if b < 0xe0 then some (b - 0xc0, [tail])
  else if b = 0xe0 then some (0, [(0xa0, 0xbf), tail])
  else if b = 0xed then some (0xd, [(0x80, 0x9f), tail])
  else if b < 0xf0 then some (b - 0xe0, [tail, tail])
  else if b = 0xf0 then some (0, [(0x90, 0xbf), tail, tail])
  else if b < 0xf4 then some (b - 0xf0, [tail, tail, tail])
  else if b = 0xf4 then some (4, [(0x80, 0x8f), tail, tail])
  else none

/-- Read the octets after a lead, each in its range. -/
def follow : Nat → List (Nat × Nat) → List UInt8 → Option Nat × List UInt8
  | v, [], bs => (some v, bs)
  | _, _ :: _, [] => (none, [])
  | v, (first, last) :: ranges, b :: bs =>
    if first ≤ b.toNat ∧ b.toNat ≤ last then follow (v * 64 + (b.toNat - 0x80)) ranges bs
    else (none, b :: bs)

/-- One character, or `none` for a beginning that does not go on, and the octets left. -/
def next (b : UInt8) (bs : List UInt8) : Option Char × List UInt8 :=
  match lead? b.toNat with
  | none => (none, bs)
  | some (v, ranges) =>
    let (value, rest) := follow v ranges bs
    (value.map Char.ofNat, rest)

theorem length_follow (v : Nat) (ranges : List (Nat × Nat)) (bs : List UInt8) :
    (follow v ranges bs).2.length ≤ bs.length := by
  induction ranges generalizing v bs with
  | nil => simp [follow]
  | cons r ranges ih =>
    cases bs with
    | nil => simp [follow]
    | cons b bs =>
      simp only [follow]
      split
      · exact Nat.le_succ_of_le (ih _ _)
      · simp

theorem length_next (b : UInt8) (bs : List UInt8) : (next b bs).2.length ≤ bs.length := by
  unfold next
  split
  · exact Nat.le_refl _
  · exact length_follow _ _ _

def decode? : List UInt8 → Option (List Char)
  | [] => some []
  | b :: bs =>
    match (next b bs).1 with
    | none => none
    | some c => (decode? (next b bs).2).map (c :: ·)
termination_by bs => bs.length
decreasing_by
  have := length_next b bs
  simp only [List.length_cons]
  omega

def decodeLossy : List UInt8 → List Char
  | [] => []
  | b :: bs => (next b bs).1.getD '\ufffd' :: decodeLossy (next b bs).2
termination_by bs => bs.length
decreasing_by
  have := length_next b bs
  simp only [List.length_cons]
  omega

end CoqConsole.Utf8
