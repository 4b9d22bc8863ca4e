import CoqConsole.Proofs.Frame
import CoqConsole.Proofs.Json.Values
import CoqConsole.Proofs.Utf8

/-!
# Streams of messages

* `Number.numeral_digits` : written digits are a numeral;
* `Frame.headers_encode` : the header of a frame tells the number of octets of its body;
* `Frame.read_encode` : a frame is read as its message, and nothing after it is touched;
* `Frame.readAll` : the messages of a stream, one after the other, and what is found after the last;
* `Frame.readAll_flatMap_encode` : the frames of messages are read as these messages.
-/

namespace CoqConsole

/-! ## Numerals -/

namespace Text

theorem dropEnd_concat {p : Char → Bool} {c : Char} (h : p c = false) (cs : List Char) :
    dropEnd p (cs ++ [c]) = cs ++ [c] := by
  simp [dropEnd, h]

theorem dropEnd_concat_blank {p : Char → Bool} {c : Char} (h : p c = true) (cs : List Char) :
    dropEnd p (cs ++ [c]) = dropEnd p cs := by
  simp [dropEnd, h]

theorem isBlank_of_isDigit {c : Char} (h : c.isDigit) : isBlank c = false := by
  have hbounds := Json.toNat_of_isDigit h
  simp only [isBlank, Bool.or_eq_false_iff, Bool.and_eq_false_iff, decide_eq_false_iff_not, beq_eq_false_iff_ne]
  omega

end Text

namespace Json

/-- Digits are not dropped from the end of a text with blanks. -/
theorem dropEnd_digits {p : Char → Bool} (h : ∀ c : Char, c.isDigit → p c = false) (cs : List Char) (n : Nat) :
    Text.dropEnd p (cs ++ digits n) = cs ++ digits n := by
  obtain ⟨front, c, hc⟩ := List.eq_nil_or_concat (digits n) |>.resolve_left Nat.toDigits_ne_nil
  have hdigit : c.isDigit := isDigit_of_mem_digits (n := n) (by rw [hc]; simp)
  rw [hc, List.concat_eq_append, ← List.append_assoc, Text.dropEnd_concat (h c hdigit)]

theorem dropWhile_digits {p : Char → Bool} (h : ∀ c : Char, c.isDigit → p c = false) (n : Nat) :
    (digits n).dropWhile p = digits n := by
  obtain ⟨c, more, hc⟩ := List.exists_cons_of_ne_nil (Nat.toDigits_ne_nil (n := n) (b := 10))
  change digits n = c :: more at hc
  have hdigit : c.isDigit := isDigit_of_mem_digits (n := n) (by rw [hc]; simp)
  rw [hc]
  exact List.dropWhile_cons_of_neg (by rw [h c hdigit]; simp)

end Json

namespace Number

theorem digits?_of_isDigit {fresh : Bool} {cs : List Char} (hdigits : ∀ c ∈ cs, c.isDigit)
    (hsome : fresh = true → cs ≠ []) : digits? fresh cs = some (cs.map fun c => c.toNat - 48, []) := by
  induction cs generalizing fresh with
  | nil =>
    have hfresh : fresh = false := Bool.eq_false_iff.mpr fun h => hsome h rfl
    rw [digits?, hfresh]
    rfl
  | cons c cs ih =>
    rw [List.forall_mem_cons] at hdigits
    have hscore : c ≠ '_' := by
      rintro rfl
      exact absurd hdigits.1 (by decide)
    rw [digits?, if_neg hscore, Json.digitValue?_of_isDigit hdigits.1]
    simp only [ih hdigits.2 (fun h => absurd h Bool.false_ne_true), Option.map_some, List.map_cons]

theorem isMargin_of_isDigit {c : Char} (h : c.isDigit) : isMargin c = false := by
  have hbounds := Json.toNat_of_isDigit h
  simp only [isMargin, Text.isAsciiBlank, Text.isBlank_of_isDigit h, Bool.and_false, Bool.or_eq_false_iff,
    Bool.and_eq_false_iff, decide_eq_false_iff_not, beq_eq_false_iff_ne, and_true]
  omega

/-- Written digits are a numeral. -/
theorem numeral_digits {n : Nat} (short : (Json.digits n).length ≤ digitLimit) :
    numeral (String.ofList (Json.digits n)) = .value n := by
  have hdigits : ∀ c ∈ Json.digits n, c.isDigit := fun c hc => Json.isDigit_of_mem_digits hc
  have hmagnitude : magnitude (Json.digits n) = .value n := by
    rw [magnitude, digits?_of_isDigit hdigits fun _ => Nat.toDigits_ne_nil]
    simp only [List.length_map, Json.ofDigits_digits]
    rw [if_neg (by omega)]
    rfl
  have htrim : Text.dropEnd isMargin ((Json.digits n).dropWhile isMargin) = Json.digits n := by
    rw [Json.dropWhile_digits fun _ => isMargin_of_isDigit]
    exact Json.dropEnd_digits (fun _ => isMargin_of_isDigit) [] n
  rw [numeral, String.toList_ofList, htrim]
  split
  · next cs heq => exact absurd (hdigits '-' (heq ▸ List.mem_cons_self)) (by decide)
  · next cs heq => exact absurd (hdigits '+' (heq ▸ List.mem_cons_self)) (by decide)
  · exact hmagnitude

end Number

/-! ## Frames -/

namespace Frame

theorem line_of_short {content : List UInt8} (hnone : newline ∉ content) (hshort : content.length ≤ lineLimit)
    (ended : Bool) (rest : List UInt8) : line ended (content ++ newline :: rest) = .found content rest := by
  have hcontent : (content ++ newline :: rest).takeWhile (· != newline) = content := by
    have hplain : ∀ b ∈ content, (b != newline) = true := fun b hb => bne_iff_ne.mpr fun e => hnone (e ▸ hb)
    rw [List.takeWhile_append_of_pos hplain]
    simp
  have hdrop : (content ++ newline :: rest).drop (content.length + 1) = rest := by
    rw [← List.drop_drop, List.drop_left, List.drop_one, List.tail_cons]
  simp only [line, hcontent, hdrop]
  rw [if_neg (by omega), if_pos (by simp)]

/-- The characters of the line with the length of the body. -/
def lengthLine (n : Nat) : List Char := "Content-Length: ".toList ++ Json.digits n

theorem length_lengthLine (n : Nat) : (lengthLine n).length = 16 + (Json.digits n).length := List.length_append

/-- With its carriage return, the line is ASCII text that does not end before. -/
theorem isAscii_lengthLine {n : Nat} : ∀ c ∈ lengthLine n ++ ['\r'], c.toNat < 0x80 ∧ c.toNat ≠ 10 := by
  -- All the characters of a text are decided one by one; the characters that there are can not be.
  have hplain (cs : List Char) (h : cs.all (fun c => decide (c.toNat < 0x80 ∧ c.toNat ≠ 10)) = true) :
      ∀ c ∈ cs, c.toNat < 0x80 ∧ c.toNat ≠ 10 := fun c hc => of_decide_eq_true (List.all_eq_true.mp h c hc)
  refine List.forall_mem_append.mpr
    ⟨List.forall_mem_append.mpr ⟨hplain _ (by decide), fun c h => ?_⟩, hplain _ (by decide)⟩
  have := Json.toNat_of_isDigit (Json.isDigit_of_mem_digits h)
  omega

theorem headerOf_lengthLine (n : Nat) : headerOf (lengthLine n) = (lengthKey, String.ofList (Json.digits n)) := by
  have hvalue : Text.trim (' ' :: Json.digits n) = Json.digits n := by
    rw [Text.trim, List.dropWhile_cons_of_pos rfl, Json.dropWhile_digits fun _ => Text.isBlank_of_isDigit]
    exact Json.dropEnd_digits (fun _ => Text.isBlank_of_isDigit) [] n
  have hkey : (lengthLine n).takeWhile (· != ':') = "Content-Length".toList := rfl
  have hlower : (Text.trim "Content-Length".toList).map Char.toLower = "content-length".toList := by decide
  have hrest : (lengthLine n).drop ("Content-Length".toList.length + 1) = ' ' :: Json.digits n := rfl
  rw [headerOf, hkey, hrest, hvalue, hlower]
  rfl

theorem trim_lengthLine (n : Nat) : Text.trim (lengthLine n ++ ['\r']) = lengthLine n := by
  have hfront : (lengthLine n ++ ['\r']).dropWhile Text.isBlank = lengthLine n ++ ['\r'] :=
    List.dropWhile_cons_of_neg (by decide)
  rw [Text.trim, hfront, Text.dropEnd_concat_blank (by decide)]
  exact Json.dropEnd_digits (fun _ => Text.isBlank_of_isDigit) _ n

def octets (cs : List Char) : List UInt8 := cs.map fun c => c.toNat.toUInt8

theorem map_octets {cs : List Char} (h : ∀ c ∈ cs, c.toNat < 0x80) :
    (octets cs).map (fun b => Char.ofNat b.toNat) = cs := by
  have hchar : ∀ c ∈ cs, Char.ofNat c.toNat.toUInt8.toNat = c := fun c hc => by
    rw [Utf8.toNat_toUInt8 (Nat.lt_trans (h c hc) (by decide)), Char.ofNat_toNat]
  rw [octets, List.map_map]
  exact (List.map_congr_left hchar).trans (List.map_id' cs)

theorem any_octets {cs : List Char} (h : ∀ c ∈ cs, c.toNat < 0x80) : (octets cs).any (0x80 ≤ ·) = false := by
  rw [List.any_eq_false]
  intro b hb
  obtain ⟨c, hc, rfl⟩ := List.mem_map.mp hb
  have hoctet := Utf8.toNat_toUInt8 (Nat.lt_trans (h c hc) (by decide : 0x80 < 256))
  rw [decide_eq_true_iff, UInt8.le_iff_toNat_le, hoctet]
  exact Nat.not_le.mpr (h c hc)

theorem toList_header (n : Nat) :
    (s!"Content-Length: {n}\r\n\r\n").toList = lengthLine n ++ ['\r', '\n', '\r', '\n'] := by
  have htext : s!"Content-Length: {n}\r\n\r\n" = "Content-Length: " ++ toString n ++ "\r\n\r\n" := rfl
  have hdigits : (toString n).toList = Json.digits n := by
    rw [Nat.toString_eq_ofList_toDigits, String.toList_ofList, Json.digits]
  rw [htext, String.toList_append, String.toList_append, hdigits]
  rfl

/-- A frame is the line with the length of the body, an empty line, and the body. -/
theorem encode_eq (message : Json) : encode message =
    octets (lengthLine (Utf8.encode message.chars).length ++ ['\r']) ++ newline :: (octets ['\r'] ++ newline ::
      Utf8.encode message.chars) := by
  simp only [encode, ascii, toList_header, octets, List.map_append, List.append_assoc]
  rfl

/-- The header of a frame tells the number of octets of its body, and the body comes next. -/
theorem headers_encode {message : Json} (short : (Json.digits (Utf8.encode message.chars).length).length ≤ Number.digitLimit)
    (ended : Bool) (more : List UInt8) :
    headers ended [] (encode message ++ more) =
      .found [(lengthKey, toString (Utf8.encode message.chars).length)] (Utf8.encode message.chars ++ more) := by
  obtain ⟨n, hn⟩ : ∃ n, (Utf8.encode message.chars).length = n := ⟨_, rfl⟩
  rw [hn] at short
  have hascii : ∀ c ∈ lengthLine n ++ ['\r'], c.toNat < 0x80 := fun c hc => (isAscii_lengthLine c hc).1
  have hnone : newline ∉ octets (lengthLine n ++ ['\r']) := fun hmem => by
    obtain ⟨c, hc, heq⟩ := List.mem_map.mp hmem
    have hoctet := Utf8.toNat_toUInt8 (Nat.lt_trans (hascii c hc) (by decide : 0x80 < 256))
    exact (isAscii_lengthLine c hc).2 (hoctet.symm.trans (congrArg UInt8.toNat heq))
  have hshort : (octets (lengthLine n ++ ['\r'])).length ≤ lineLimit := by
    have hlimits : 16 + Number.digitLimit + 1 ≤ lineLimit := by decide
    rw [octets, List.length_map, List.length_append, length_lengthLine, List.length_singleton]
    exact Nat.le_trans (Nat.succ_le_succ (Nat.add_le_add_left short 16)) hlimits
  have hfirst := line_of_short hnone hshort ended (octets ['\r'] ++ newline :: (Utf8.encode message.chars ++ more))
  have hblank : newline ∉ octets ['\r'] := by decide
  have hblankShort : (octets ['\r']).length ≤ lineLimit := by decide
  have hsecond := line_of_short hblank hblankShort ended (Utf8.encode message.chars ++ more)
  have hline : (lengthLine n).isEmpty = false := rfl
  rw [encode_eq, hn, List.append_assoc, List.cons_append, List.append_assoc, List.cons_append, headers_of_line hfirst,
    any_octets hascii, if_neg Bool.false_ne_true, map_octets hascii, trim_lengthLine, hline,
    if_neg Bool.false_ne_true, headerOf_lengthLine, headers_of_line hsecond, Nat.toString_eq_ofList_toDigits]
  rfl

theorem valueOfBody_encode {message : Json} (h : message.Plain Json.depthLimit) :
    valueOfBody (Utf8.encode message.chars) = .ok message := by
  rw [valueOfBody, Utf8.decode?_encode]
  exact Json.readChars_chars h

/-- A frame is read as its message, and nothing after it is touched. -/
theorem read_encode {message : Json} (h : message.Plain Json.depthLimit)
    (short : (Json.digits (Utf8.encode message.chars).length).length ≤ Number.digitLimit)
    (ended : Bool) (more : List UInt8) : read ended (encode message ++ more) = .found message more := by
  have hlength : Number.numeral (toString (Utf8.encode message.chars).length) =
      .value (Utf8.encode message.chars).length := by
    rw [Nat.toString_eq_ofList_toDigits]
    exact Number.numeral_digits short
  have henough : ¬ (Utf8.encode message.chars ++ more).length < (Utf8.encode message.chars).length := by
    rw [List.length_append]
    omega
  rw [read, headers_encode short]
  simp only [Keyed.get?, if_true, hlength, body, Int.toNat_natCast, List.take_left, List.drop_left,
    valueOfBody_encode h]
  rw [if_neg (by omega), if_neg henough]

/-! ## Streams -/

theorem length_headers {ended : Bool} {found out : List (String × String)} {bs rest : List UInt8}
    (h : headers ended found bs = .found out rest) : rest.length < bs.length := by
  induction found, bs using headers.induct ended with
  | case1 found bs hline | case2 found bs hline | case3 found bs cause hline =>
    obtain ⟨content, tail, hfound⟩ := line_of_headers h
    rw [hline] at hfound
    cases hfound
  | case4 found bs content tail hline hascii =>
    rw [headers_of_line hline, if_pos hascii] at h
    cases h
  | case5 found bs content tail hline hascii chars hblank hnone ih =>
    rw [headers_of_line hline, if_neg hascii, if_pos hblank, if_pos hnone] at h
    exact (ih h).trans (length_line hline)
  | case6 found bs content tail hline hascii chars hblank hsome =>
    rw [headers_of_line hline, if_neg hascii, if_pos hblank, if_neg hsome] at h
    cases h
    exact length_line hline
  | case7 found bs content tail hline hascii chars hblank key value heq ih =>
    rw [headers_of_line hline, if_neg hascii, if_neg hblank] at h
    rw [show headerOf (Text.trim (content.map fun b => Char.ofNat b.toNat)) = (key, value) from heq] at h
    exact (ih h).trans (length_line hline)

theorem length_body {ended : Bool} {length : Int} {message : Json} {bs rest : List UInt8}
    (h : body ended length bs = .found message rest) : rest.length ≤ bs.length := by
  unfold body at h
  split at h
  · cases h
  · split at h
    · split at h <;> cases h
    · split at h
      · cases h
        rw [List.length_drop]
        omega
      · cases h

theorem length_read {ended : Bool} {message : Json} {bs rest : List UInt8} (h : read ended bs = .found message rest) :
    rest.length < bs.length := by
  unfold read at h
  split at h
  · cases h
  · cases h
  · cases h
  · next found tail hheaders =>
    split at h
    · cases h
    · split at h
      · exact Nat.lt_of_le_of_lt (length_body h) (length_headers hheaders)
      · cases h
      · cases h

/-- The messages of a stream, one after the other, and what is found after the last. -/
def readAll (ended : Bool) (bs : List UInt8) : List Json × Outcome Json :=
  match _h : read ended bs with
  | .found message rest => (message :: (readAll ended rest).1, (readAll ended rest).2)
  | .starved => ([], .starved)
  | .ended => ([], .ended)
  | .failed cause => ([], .failed cause)
termination_by bs.length
decreasing_by all_goals exact length_read _h

theorem readAll_of_found {ended : Bool} {message : Json} {bs rest : List UInt8}
    (h : read ended bs = .found message rest) :
    readAll ended bs = (message :: (readAll ended rest).1, (readAll ended rest).2) := by
  rw [readAll]
  split <;> simp_all

theorem read_nil (ended : Bool) : read ended [] = if ended then .ended else .starved := by
  have hline : line ended [] = if ended then .ended else .starved := by cases ended <;> rfl
  have hheaders : headers ended [] [] = if ended then .ended else .starved := by
    rw [headers]
    cases ended <;> split <;> simp_all
  rw [read, hheaders]
  cases ended <;> rfl

theorem readAll_nil (ended : Bool) : readAll ended [] = ([], if ended then .ended else .starved) := by
  have hread := read_nil ended
  rw [readAll]
  cases ended <;> split <;> simp_all

/-- An object whose frame is within the limits of what is read: its numbers, the number of octets of its body, and
its depth. -/
structure Sendable (members : List (String × Json)) : Prop where
  plain : (Json.object members).Plain Json.depthLimit
  short : (Json.digits (Utf8.encode (Json.object members).chars).length).length ≤ Number.digitLimit

/-- The frames of objects are read as these objects, whatever comes after them. -/
theorem readAll_append {objects : List (List (String × Json))} (h : ∀ members ∈ objects, Sendable members)
    (ended : Bool) (more : List UInt8) :
    readAll ended (objects.flatMap (fun members => encode (.object members)) ++ more) =
      (objects.map .object ++ (readAll ended more).1, (readAll ended more).2) := by
  induction objects with
  | nil => rfl
  | cons members objects ih =>
    rw [List.forall_mem_cons] at h
    rw [List.flatMap_cons, List.append_assoc, readAll_of_found (read_encode h.1.plain h.1.short ended _), ih h.2]
    rfl

/-- The frames of objects, one after the other, are read as these objects in their order, and nothing comes after
them. The header of each frame tells the number of octets of its body, which is all that comes after it. -/
theorem readAll_flatMap_encode {objects : List (List (String × Json))} (h : ∀ members ∈ objects, Sendable members)
    (ended : Bool) :
    readAll ended (objects.flatMap fun members => encode (.object members)) =
        (objects.map .object, if ended then .ended else .starved) ∧
      ∀ members ∈ objects, ∃ body, headers ended [] (encode (.object members)) =
        .found [(lengthKey, toString body.length)] body ∧ valueOfBody body = .ok (.object members) := by
  refine ⟨?_, fun members hmem => ⟨Utf8.encode (Json.object members).chars, ?_, valueOfBody_encode (h members hmem).plain⟩⟩
  · have hall := readAll_append h ended []
    rw [List.append_nil, readAll_nil, List.append_nil] at hall
    exact hall
  · have hheader := headers_encode (h members hmem).short ended []
    rw [List.append_nil, List.append_nil] at hheader
    exact hheader

/-- A request, and an object with every kind of escape in nested values. -/
def sampleObjects : List (List (String × Json)) :=
  [[("jsonrpc", .text "2.0"), ("id", .int (-123456789012345678901234567890))],
   [("\n\t\"\\", .array [.null, .bool true, .text "\u0001\x7f\uffff𝔸", .array []]), ("", .object [("", .int 0)])]]

theorem readAll_sampleObjects : (∀ members ∈ sampleObjects, Sendable members) ∧
    readAll true (sampleObjects.flatMap fun members => encode (.object members)) =
      (sampleObjects.map .object, .ended) := by
  have hplain : ∀ members ∈ sampleObjects, (Json.object members).Plain Json.depthLimit := by
    have hitems : ∀ v ∈ [Json.null, .bool true, .text "\u0001\x7f\uffff𝔸", .array []], v.Plain 973 := by
      simp only [List.forall_mem_cons]
      exact ⟨.null, .bool true, .text _, .array (List.forall_mem_nil _), List.forall_mem_nil _⟩
    simp only [sampleObjects, List.forall_mem_cons]
    refine ⟨.object (by decide) ?_, .object (by decide) ?_, List.forall_mem_nil _⟩ <;> simp only [List.forall_mem_cons]
    · exact ⟨.text _, .int (by decide), List.forall_mem_nil _⟩
    · exact ⟨.array hitems, .object (by decide) (List.forall_mem_singleton.mpr (.int (by decide))), List.forall_mem_nil _⟩
  have hshort : ∀ members ∈ sampleObjects,
      (Json.digits (Utf8.encode (Json.object members).chars).length).length ≤ Number.digitLimit := by
    decide
  have hsendable : ∀ members ∈ sampleObjects, Sendable members := fun members hmem =>
    ⟨hplain members hmem, hshort members hmem⟩
  exact ⟨hsendable, (readAll_flatMap_encode hsendable true).1⟩

end Frame

end CoqConsole
