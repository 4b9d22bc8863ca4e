import CoqConsole.Frame

/-!
# Streams that go on

* `read_append` : a complete message at the beginning of a stream is read, whatever comes after it;
* `Holds` : the messages that stand complete at the beginning of a stream, and stay there as it grows.
-/

namespace CoqConsole.Frame

variable {bs rest : List UInt8}

theorem line_append {content : List UInt8} (h : line false bs = .found content rest) (ended : Bool)
    (more : List UInt8) : line ended (bs ++ more) = .found content (rest ++ more) := by
  simp only [line] at h
  split at h
  · cases h
  · next hshort =>
    split at h
    · next hlt =>
      cases h
      have hcontent : (bs ++ more).takeWhile (· != newline) = bs.takeWhile (· != newline) := by
        rw [List.takeWhile_append, if_neg (by omega)]
      have hlonger : (bs.takeWhile (· != newline)).length < (bs ++ more).length := by
        rw [List.length_append]
        omega
      simp only [line, hcontent, if_neg hshort, if_pos hlonger]
      rw [List.drop_append_of_le_length (by omega)]
    · cases h

/-- A line is a header, an empty line before the headers, or the end of them. -/
theorem headers_of_line {ended : Bool} {content tail : List UInt8} (h : line ended bs = .found content tail)
    (found : List (String × String)) :
    headers ended found bs =
      if content.any (0x80 ≤ ·) then .failed .badUtf8
      else if (Text.trim (content.map fun b => Char.ofNat b.toNat)).isEmpty then
        if found.isEmpty then headers ended found tail else .found found tail
      else
        headers ended (Keyed.put (headerOf (Text.trim (content.map fun b => Char.ofNat b.toNat))).1
          (headerOf (Text.trim (content.map fun b => Char.ofNat b.toNat))).2 found) tail := by
  rw [headers]
  split <;> simp_all

theorem line_of_headers {ended : Bool} {found out : List (String × String)}
    (h : headers ended found bs = .found out rest) : ∃ content tail, line ended bs = .found content tail := by
  rw [headers] at h
  split at h
  · cases h
  · cases h
  · cases h
  · next content tail hline => exact ⟨content, tail, hline⟩

theorem headers_append {found out : List (String × String)} (h : headers false found bs = .found out rest)
    (ended : Bool) (more : List UInt8) : headers ended found (bs ++ more) = .found out (rest ++ more) := by
  induction found, bs using headers.induct false with
  | case1 found bs hline =>
    obtain ⟨content, tail, hfound⟩ := line_of_headers h
    rw [hline] at hfound
    cases hfound
  | case2 found bs hline =>
    obtain ⟨content, tail, hfound⟩ := line_of_headers h
    rw [hline] at hfound
    cases hfound
  | case3 found bs cause hline =>
    obtain ⟨content, tail, hfound⟩ := line_of_headers h
    rw [hline] at hfound
    cases hfound
  | case4 found bs content tail hline hascii =>
    rw [headers_of_line hline, if_pos hascii] at h
    cases h
  | case5 found bs content tail hline hascii chars hblank hnone ih =>
    rw [headers_of_line hline, if_neg hascii, if_pos hblank, if_pos hnone] at h
    rw [headers_of_line (line_append hline ended more), if_neg hascii, if_pos hblank, if_pos hnone]
    exact ih h
  | case6 found bs content tail hline hascii chars hblank hsome =>
    rw [headers_of_line hline, if_neg hascii, if_pos hblank, if_neg hsome] at h
    rw [headers_of_line (line_append hline ended more), if_neg hascii, if_pos hblank, if_neg hsome]
    cases h
    rfl
  | case7 found bs content tail hline hascii chars hblank key value heq ih =>
    rw [headers_of_line hline, if_neg hascii, if_neg hblank] at h
    rw [headers_of_line (line_append hline ended more), if_neg hascii, if_neg hblank]
    rw [show headerOf (Text.trim (content.map fun b => Char.ofNat b.toNat)) = (key, value) from heq] at h ⊢
    exact ih h

theorem body_append {length : Int} {value : Json} (h : body false length bs = .found value rest) (ended : Bool)
    (more : List UInt8) : body ended length (bs ++ more) = .found value (rest ++ more) := by
  unfold body at h
  split at h
  · cases h
  · next hlength =>
    split at h
    · cases h
    · next hlong =>
      have hlonger : ¬ (bs ++ more).length < length.toNat := by
        rw [List.length_append]
        omega
      have htake : (bs ++ more).take length.toNat = bs.take length.toNat :=
        List.take_append_of_le_length (by omega)
      have hdrop : (bs ++ more).drop length.toNat = bs.drop length.toNat ++ more :=
        List.drop_append_of_le_length (by omega)
      rw [body, if_neg hlength, if_neg hlonger, htake, hdrop]
      cases hvalue : valueOfBody (bs.take length.toNat) with
      | error cause =>
        rw [hvalue] at h
        cases h
      | ok v =>
        rw [hvalue] at h
        cases h
        rfl

/-- Once a message is complete, what comes after it does not matter, and neither does whether anything will. -/
theorem read_append {message : Json} (h : read false bs = .found message rest) (ended : Bool) (more : List UInt8) :
    read ended (bs ++ more) = .found message (rest ++ more) := by
  unfold read at h
  cases hheaders : headers false [] bs with
  | found out tail =>
    rw [hheaders] at h
    simp only at h
    rw [read, headers_append hheaders ended more]
    simp only
    cases hlength : Keyed.get? lengthKey out with
    | none =>
      rw [hlength] at h
      cases h
    | some value =>
      rw [hlength] at h
      simp only at h ⊢
      cases hnumeral : Number.numeral value with
      | value length =>
        rw [hnumeral] at h
        exact body_append h ended more
      | _ =>
        rw [hnumeral] at h
        cases h
  | _ =>
    rw [hheaders] at h
    cases h

theorem read_of_complete {message : Json} (h : read false bs = .found message rest) (ended : Bool) :
    read ended bs = .found message rest := by
  have happend := read_append h ended []
  rw [List.append_nil, List.append_nil] at happend
  exact happend

/-- The stream begins with messages, one after the other, none of which is null. -/
inductive Holds : List UInt8 → List Json → Prop
  | nil (bs : List UInt8) : Holds bs []
  | cons {bs rest : List UInt8} {message : Json} {messages : List Json} (hread : read false bs = .found message rest)
      (hvalue : message ≠ .null) (hrest : Holds rest messages) : Holds bs (message :: messages)

theorem Holds.append {messages : List Json} (h : Holds bs messages) (more : List UInt8) :
    Holds (bs ++ more) messages := by
  induction h with
  | nil bs => exact .nil _
  | cons hread hvalue _ ih => exact .cons (read_append hread false more) hvalue ih

end CoqConsole.Frame
