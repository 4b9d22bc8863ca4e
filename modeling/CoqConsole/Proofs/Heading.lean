import CoqConsole.Proofs.Keyed
import CoqConsole.Proofs.Stream
import Mathlib.Data.List.DropRight

/-!
# Header blocks

What stands before the body of a message: empty lines that are skipped, headers in any order and of any look, and the
empty line that ends them.

* `Text.trim_append_left`, `Text.trim_append_right`, `Text.trim_cut` : blanks around a text;
* `Frame.headerOf_cut`, `Frame.headerOf_trim` : a header is what stands before and after its first colon;
* `Frame.HeaderLine`, `Frame.HeaderBlock` : lines and blocks as they can stand in a stream;
* `Frame.HeaderBlock.Announces` : the last header with the length of the body gives a number;
* `Frame.HeaderBlock.headers_octets` : a block is read to its end, and no further;
* `Frame.bounded` : the length that a block announces is where its message ends, whatever comes next.
-/

namespace CoqConsole

/-! ## Blanks around a text -/

namespace Text

theorem dropWhile_append_of_blank {bs : List Char} (h : ∀ c ∈ bs, isBlank c) (cs : List Char) :
    (bs ++ cs).dropWhile isBlank = cs.dropWhile isBlank := by
  rw [List.dropWhile_append, List.dropWhile_eq_nil_iff.mpr h]
  rfl

theorem dropWhile_append_cons {c : Char} (hc : isBlank c = false) (cs more : List Char) :
    (cs ++ c :: more).dropWhile isBlank = cs.dropWhile isBlank ++ c :: more := by
  rw [List.dropWhile_append]
  split
  · next hempty => rw [List.isEmpty_iff.mp hempty, List.dropWhile_cons_of_neg (by simp [hc]), List.nil_append]
  · rfl

theorem dropEnd_append_of_blank {bs : List Char} (h : ∀ c ∈ bs, isBlank c) (cs : List Char) :
    dropEnd isBlank (cs ++ bs) = dropEnd isBlank cs := by
  have hreverse : ∀ c ∈ bs.reverse, isBlank c := fun c hc => h c (List.mem_reverse.mp hc)
  rw [dropEnd, List.reverse_append, dropWhile_append_of_blank hreverse, dropEnd]

theorem dropEnd_append_cons {c : Char} (hc : isBlank c = false) (cs more : List Char) :
    dropEnd isBlank (cs ++ c :: more) = cs ++ c :: dropEnd isBlank more := by
  rw [dropEnd, List.reverse_append, List.reverse_cons, List.append_assoc, List.singleton_append,
    dropWhile_append_cons hc, List.reverse_append, List.reverse_cons, List.reverse_reverse, List.append_assoc, dropEnd]
  rfl

theorem trim_append_left {bs : List Char} (h : ∀ c ∈ bs, isBlank c) (cs : List Char) : trim (bs ++ cs) = trim cs := by
  rw [trim, dropWhile_append_of_blank h, trim]

theorem trim_append_right {bs : List Char} (h : ∀ c ∈ bs, isBlank c) (cs : List Char) : trim (cs ++ bs) = trim cs := by
  rw [trim, List.dropWhile_append, trim]
  split
  · next hempty => rw [List.isEmpty_iff.mp hempty, List.dropWhile_eq_nil_iff.mpr h]
  · exact dropEnd_append_of_blank h _

/-- What is no blank parts the blanks that are dropped. -/
theorem trim_cut {c : Char} (hc : isBlank c = false) (cs more : List Char) :
    trim (cs ++ c :: more) = cs.dropWhile isBlank ++ c :: dropEnd isBlank more := by
  rw [trim, dropWhile_append_cons hc, dropEnd_append_cons hc]

theorem trim_dropWhile (cs : List Char) : trim (cs.dropWhile isBlank) = trim cs := by
  rw [trim, List.dropWhile_idempotent, trim]

theorem trim_dropEnd (cs : List Char) : trim (dropEnd isBlank cs) = trim cs := by
  have hdropped : dropEnd isBlank cs ++ (cs.reverse.takeWhile isBlank).reverse = cs := by
    rw [dropEnd, ← List.reverse_append, List.takeWhile_append_dropWhile, List.reverse_reverse]
  have hblank : ∀ c ∈ (cs.reverse.takeWhile isBlank).reverse, isBlank c := fun c hc =>
    List.mem_takeWhile_imp (List.mem_reverse.mp hc)
  rw [← trim_append_right hblank, hdropped]

theorem trim_eq_nil_iff {cs : List Char} : trim cs = [] ↔ ∀ c ∈ cs, isBlank c := by
  constructor
  · intro h c hc
    by_contra hplain
    obtain ⟨front, more, rfl⟩ := List.append_of_mem hc
    rw [trim_cut (Bool.eq_false_iff.mpr hplain)] at h
    simp at h
  · intro h
    rw [← List.append_nil cs, trim_append_left h]
    rfl

theorem trim_of_plain {cs : List Char} (h : ∀ c ∈ cs, isBlank c = false) : trim cs = cs := by
  have hkept (ds : List Char) (hd : ∀ c ∈ ds, isBlank c = false) : ds.dropWhile isBlank = ds := by
    cases ds with
    | nil => rfl
    | cons c ds => exact List.dropWhile_cons_of_neg (by simp [hd c List.mem_cons_self])
  have hreverse : ∀ c ∈ cs.reverse, isBlank c = false := fun c hc => h c (List.mem_reverse.mp hc)
  rw [trim, hkept cs h, dropEnd, hkept _ hreverse, List.reverse_reverse]

theorem toLower_of_isBlank {c : Char} (h : isBlank c) : c.toLower = c := by
  have hval : c.toNat = c.val.toNat := rfl
  simp only [isBlank, Bool.or_eq_true, Bool.and_eq_true, decide_eq_true_iff, beq_iff_eq] at h
  refine dif_neg ?_
  rintro ⟨hlow, hhigh⟩
  have hlow' : 65 ≤ c.toNat := UInt32.le_iff_toNat_le.mp hlow
  have hhigh' : c.toNat ≤ 90 := UInt32.le_iff_toNat_le.mp hhigh
  omega

end Text

namespace Frame

/-! ## Headers -/

theorem headerOf_cut {key : List Char} (hkey : ':' ∉ key) (value : List Char) :
    headerOf (key ++ ':' :: value) =
      (String.ofList ((Text.trim key).map Char.toLower), String.ofList (Text.trim value)) := by
  have htake : (key ++ ':' :: value).takeWhile (· != ':') = key := by
    have hplain : ∀ c ∈ key, (c != ':') = true := fun c hc => bne_iff_ne.mpr fun heq => hkey (heq ▸ hc)
    rw [List.takeWhile_append_of_pos hplain]
    simp
  have hdrop : (key ++ ':' :: value).drop (key.length + 1) = value := by
    rw [← List.drop_drop, List.drop_left, List.drop_one, List.tail_cons]
  simp only [headerOf, htake, hdrop]

theorem headerOf_whole {cs : List Char} (h : ':' ∉ cs) :
    headerOf cs = (String.ofList ((Text.trim cs).map Char.toLower), String.ofList (Text.trim [])) := by
  have htake : cs.takeWhile (· != ':') = cs :=
    List.takeWhile_eq_self_iff.mpr fun c hc => bne_iff_ne.mpr fun heq => h (heq ▸ hc)
  simp only [headerOf, htake, List.drop_eq_nil_of_le (Nat.le_succ _)]

theorem notMem_dropWhile {c : Char} {cs : List Char} (h : c ∉ cs) (p : Char → Bool) : c ∉ cs.dropWhile p :=
  fun hc => h ((List.dropWhile_suffix p).subset hc)

/-- Blanks around a header do not count, whether it has a colon or not. -/
theorem headerOf_trim (cs : List Char) : headerOf (Text.trim cs) = headerOf cs := by
  by_cases hcolon : ':' ∈ cs
  · obtain ⟨key, value, rfl, hkey⟩ := List.eq_append_cons_of_mem hcolon
    rw [Text.trim_cut (by decide), headerOf_cut (notMem_dropWhile hkey _), headerOf_cut hkey, Text.trim_dropWhile,
      Text.trim_dropEnd]
  · have htrimmed : ':' ∉ Text.trim cs := fun hmem =>
      notMem_dropWhile hcolon _ (List.mem_reverse.mp ((List.dropWhile_suffix _).subset (List.mem_reverse.mp hmem)))
    have htwice : Text.trim (Text.trim cs) = Text.trim cs := (Text.trim_dropEnd _).trans (Text.trim_dropWhile cs)
    rw [headerOf_whole htrimmed, headerOf_whole hcolon, htwice]

/-! ## Lines and blocks -/

theorem newline_notMem_octets {cs : List Char} (hascii : ∀ c ∈ cs, c.toNat < 0x80) (hsingle : '\n' ∉ cs) :
    newline ∉ octets cs := by
  intro hmem
  obtain ⟨c, hc, heq⟩ := List.mem_map.mp hmem
  have hoctet := Utf8.toNat_toUInt8 (Nat.lt_trans (hascii c hc) (by decide : 0x80 < 256))
  have hnewline : c = '\n' := Char.toNat_inj.mp (hoctet.symm.trans (congrArg UInt8.toNat heq))
  exact hsingle (hnewline ▸ hc)

/-- A line of ASCII text that is no longer than lines may be, and whether it ends with a carriage return and a newline
or with a newline only. -/
structure HeaderLine where
  text : List Char
  returned : Bool
  ascii : ∀ c ∈ text, c.toNat < 0x80
  single : '\n' ∉ text
  short : text.length + returned.toNat ≤ lineLimit

namespace HeaderLine

def content (l : HeaderLine) : List Char := l.text ++ if l.returned then ['\r'] else []

def octets (l : HeaderLine) : List UInt8 := Frame.octets l.content ++ [newline]

def IsBlank (l : HeaderLine) : Prop := ∀ c ∈ l.text, Text.isBlank c

/-- What stands before the first colon, in lower case, without blanks around it. -/
def key (l : HeaderLine) : String := (headerOf l.text).1

/-- What stands after it, without blanks around it. -/
def value (l : HeaderLine) : String := (headerOf l.text).2

/-- The line gives a length in decimal: the key in upper or lower case, a colon, a numeral, and blanks around both. -/
def Gives (l : HeaderLine) (n : Nat) : Prop :=
  ∃ before key between after behind, l.text = before ++ key ++ between ++ ':' :: (after ++ Json.digits n ++ behind) ∧
    String.ofList (key.map Char.toLower) = lengthKey ∧ ∀ c ∈ before ++ between ++ after ++ behind, Text.isBlank c

variable (l : HeaderLine)

theorem blank_return : ∀ c ∈ (if l.returned then ['\r'] else []), Text.isBlank c := by
  split <;> simp [show Text.isBlank '\r' = true from by decide]

theorem trim_content : Text.trim l.content = Text.trim l.text := Text.trim_append_right l.blank_return l.text

theorem isAscii_content : ∀ c ∈ l.content, c.toNat < 0x80 := by
  refine List.forall_mem_append.mpr ⟨l.ascii, ?_⟩
  split <;> simp

theorem line_octets (ended : Bool) (rest : List UInt8) :
    line ended (l.octets ++ rest) = .found (Frame.octets l.content) rest := by
  have hsingle : '\n' ∉ l.content := by
    refine fun hmem => (List.mem_append.mp hmem).elim l.single ?_
    split <;> simp
  have hshort : (Frame.octets l.content).length ≤ lineLimit := by
    have := l.short
    rw [Frame.octets, List.length_map, content, List.length_append]
    cases hreturned : l.returned <;> simp_all
  rw [octets, List.append_assoc]
  exact line_of_short (newline_notMem_octets l.isAscii_content hsingle) hshort ended rest

/-- A line is passed over, ends the headers, or is one of them. -/
theorem headers_octets (ended : Bool) (found : List (String × String)) (rest : List UInt8) :
    headers ended found (l.octets ++ rest) =
      if Text.trim l.text = [] then if found.isEmpty then headers ended found rest else .found found rest
      else headers ended (Keyed.put l.key l.value found) rest := by
  rw [headers_of_line (l.line_octets ended rest), any_octets l.isAscii_content, if_neg Bool.false_ne_true,
    map_octets l.isAscii_content, l.trim_content, headerOf_trim]
  simp only [List.isEmpty_iff, key, value]

/-- A line that gives a length is a header of that name with that numeral. -/
theorem Gives.header {l : HeaderLine} {n : Nat} (h : l.Gives n) :
    l.key = lengthKey ∧ l.value = String.ofList (Json.digits n) := by
  obtain ⟨before, key, between, after, behind, htext, hkey, hblank⟩ := h
  simp only [List.forall_mem_append] at hblank
  obtain ⟨⟨⟨hbefore, hbetween⟩, hafter⟩, hbehind⟩ := hblank
  have hlower : key.map Char.toLower = lengthKey.toList := String.ofList_injective (by rw [hkey, String.ofList_toList])
  -- What is no blank in lower case is none in upper case, and so for colons.
  have hletters : ∀ c ∈ key, Text.isBlank c = false ∧ c ≠ ':' := by
    have hname : lengthKey.toList.all (fun c => decide (Text.isBlank c = false ∧ c ≠ ':')) = true := by decide
    intro c hc
    have hmem : c.toLower ∈ lengthKey.toList := hlower ▸ List.mem_map_of_mem hc
    obtain ⟨hplain, hcolon⟩ := of_decide_eq_true (List.all_eq_true.mp hname _ hmem)
    refine ⟨Bool.eq_false_iff.mpr fun hblank => ?_, ?_⟩
    · rw [Text.toLower_of_isBlank hblank, hblank] at hplain
      cases hplain
    · rintro rfl
      exact hcolon (by decide)
  have hcolon : ':' ∉ before ++ key ++ between := by
    have hnone (bs : List Char) (hbs : ∀ c ∈ bs, Text.isBlank c) : ':' ∉ bs := fun hmem =>
      absurd (hbs _ hmem) (by decide)
    simp only [List.mem_append, not_or]
    exact ⟨⟨hnone _ hbefore, fun hmem => (hletters _ hmem).2 rfl⟩, hnone _ hbetween⟩
  have htrimKey : Text.trim (before ++ key ++ between) = key := by
    rw [Text.trim_append_right hbetween, Text.trim_append_left hbefore, Text.trim_of_plain fun c hc => (hletters c hc).1]
  have htrimValue : Text.trim (after ++ Json.digits n ++ behind) = Json.digits n := by
    rw [Text.trim_append_right hbehind, Text.trim_append_left hafter,
      Text.trim_of_plain fun c hc => Text.isBlank_of_isDigit (Json.isDigit_of_mem_digits hc)]
  rw [HeaderLine.key, value, htext, headerOf_cut hcolon, htrimKey, htrimValue]
  exact ⟨hkey, rfl⟩

end HeaderLine

/-- Headers with the empty lines before and after them. -/
structure HeaderBlock where
  skipped : List HeaderLine
  lines : List HeaderLine
  last : HeaderLine
  skipped_blank : ∀ l ∈ skipped, l.IsBlank
  lines_ne_nil : lines ≠ []
  lines_plain : ∀ l ∈ lines, ¬ l.IsBlank
  last_blank : last.IsBlank

namespace HeaderBlock

def octets (b : HeaderBlock) : List UInt8 :=
  b.skipped.flatMap HeaderLine.octets ++ (b.lines.flatMap HeaderLine.octets ++ b.last.octets)

/-- The last of the headers with the length of the body gives this number. -/
def Announces (b : HeaderBlock) (n : Nat) : Prop :=
  ∃ before l after, b.lines = before ++ l :: after ∧ l.Gives n ∧ ∀ m ∈ after, m.key ≠ lengthKey

/-- The headers found in some lines: a key stands where it first came and has its last value. -/
def gathered (found : List (String × String)) (ls : List HeaderLine) : List (String × String) :=
  ls.foldl (fun found l => Keyed.put l.key l.value found) found

theorem headers_skipped (ended : Bool) {ls : List HeaderLine} (h : ∀ l ∈ ls, l.IsBlank) (rest : List UInt8) :
    headers ended [] (ls.flatMap HeaderLine.octets ++ rest) = headers ended [] rest := by
  induction ls with
  | nil => rfl
  | cons l ls ih =>
    rw [List.forall_mem_cons] at h
    rw [List.flatMap_cons, List.append_assoc, l.headers_octets, if_pos (Text.trim_eq_nil_iff.mpr h.1)]
    exact ih h.2

theorem headers_gathered (ended : Bool) (found : List (String × String)) {ls : List HeaderLine}
    (h : ∀ l ∈ ls, ¬ l.IsBlank) (rest : List UInt8) :
    headers ended found (ls.flatMap HeaderLine.octets ++ rest) = headers ended (gathered found ls) rest := by
  induction ls generalizing found with
  | nil => rfl
  | cons l ls ih =>
    rw [List.forall_mem_cons] at h
    rw [List.flatMap_cons, List.append_assoc, l.headers_octets, if_neg fun hnil => h.1 (Text.trim_eq_nil_iff.mp hnil)]
    exact ih _ h.2

theorem put_ne_nil (key value : String) (found : List (String × String)) : Keyed.put key value found ≠ [] := by
  cases found with
  | nil => simp [Keyed.put]
  | cons p found =>
    rw [Keyed.put]
    split <;> simp

theorem gathered_ne_nil {found : List (String × String)} {ls : List HeaderLine} (h : found ≠ [] ∨ ls ≠ []) :
    gathered found ls ≠ [] := by
  induction ls generalizing found with
  | nil => exact h.resolve_right fun hne => hne rfl
  | cons l ls ih => exact ih (.inl (put_ne_nil _ _ _))

/-- A block is read to its end, and no further. -/
theorem headers_octets (b : HeaderBlock) (ended : Bool) (rest : List UInt8) :
    headers ended [] (b.octets ++ rest) = .found (gathered [] b.lines) rest := by
  have hsome : (gathered [] b.lines).isEmpty = false :=
    Bool.eq_false_iff.mpr fun hempty => gathered_ne_nil (.inr b.lines_ne_nil) (List.isEmpty_iff.mp hempty)
  rw [octets, List.append_assoc, List.append_assoc, headers_skipped ended b.skipped_blank,
    headers_gathered ended [] b.lines_plain, b.last.headers_octets, if_pos (Text.trim_eq_nil_iff.mpr b.last_blank),
    hsome, if_neg Bool.false_ne_true]

theorem get?_gathered_of_ne {key : String} {ls : List HeaderLine} (h : ∀ l ∈ ls, l.key ≠ key)
    (found : List (String × String)) : Keyed.get? key (gathered found ls) = Keyed.get? key found := by
  induction ls generalizing found with
  | nil => rfl
  | cons l ls ih =>
    rw [List.forall_mem_cons] at h
    exact (ih h.2 _).trans ((Keyed.get?_put _ _ _ _).trans (if_neg h.1))

/-- Of several headers with the length, the last one counts. -/
theorem Announces.length {b : HeaderBlock} {n : Nat} (h : b.Announces n) :
    Keyed.get? lengthKey (gathered [] b.lines) = some (String.ofList (Json.digits n)) := by
  obtain ⟨before, l, after, hlines, hgives, hafter⟩ := h
  obtain ⟨hkey, hvalue⟩ := hgives.header
  rw [hlines, gathered, List.foldl_append, List.foldl_cons]
  refine (get?_gathered_of_ne hafter _).trans ?_
  rw [Keyed.get?_put, hkey, if_pos rfl, hvalue]

end HeaderBlock

/-! ## Messages -/

/-- What the text of a body is found to be, and what follows it. -/
def Outcome.ofBody (cs : List Char) (rest : List UInt8) : Outcome Json :=
  match Json.readChars cs with
  | .ok v => .found v rest
  | .error cause => .failed cause

theorem read_of_announces {b : HeaderBlock} {n : Nat} (h : b.Announces n)
    (short : (Json.digits n).length ≤ Number.digitLimit) (ended : Bool) (rest : List UInt8) :
    read ended (b.octets ++ rest) = body ended n rest := by
  rw [read, b.headers_octets]
  simp only [h.length, Number.numeral_digits short]

theorem body_encode (cs : List Char) (ended : Bool) (more : List UInt8) :
    body ended (Utf8.encode cs).length (Utf8.encode cs ++ more) = .ofBody cs more := by
  have henough : ¬ (Utf8.encode cs ++ more).length < (Utf8.encode cs).length := by
    rw [List.length_append]
    omega
  rw [body, if_neg (by omega), Int.toNat_natCast, if_neg henough, List.take_left, List.drop_left, valueOfBody,
    Utf8.decode?_encode]
  rfl

/-- A message ends where the block before it says, whatever comes next. A body of that many octets is read as the value
of its text; a stream that ends before is cut short; and without a length there is no message. A length has no more
digits than a numeral may have. -/
theorem bounded (b : HeaderBlock) (ended : Bool) :
    (∀ cs more, b.Announces (Utf8.encode cs).length →
      (Json.digits (Utf8.encode cs).length).length ≤ Number.digitLimit →
        read ended (b.octets ++ (Utf8.encode cs ++ more)) = .ofBody cs more) ∧
    (∀ n rest, b.Announces n → (Json.digits n).length ≤ Number.digitLimit → rest.length < n →
      read ended (b.octets ++ rest) = if ended then .failed .truncatedFrame else .starved) ∧
    ((∀ l ∈ b.lines, l.key ≠ lengthKey) → ∀ more,
      read ended (b.octets ++ more) = .failed (.missingLength (HeaderBlock.gathered [] b.lines))) := by
  refine ⟨fun cs more h short => ?_, fun n rest h short hlt => ?_, fun hnone more => ?_⟩
  · rw [read_of_announces h short, body_encode]
  · rw [read_of_announces h short, body, if_neg (by omega), Int.toNat_natCast, if_pos hlt]
  · rw [read, b.headers_octets]
    simp only [HeaderBlock.get?_gathered_of_ne hnone]
    rfl

def HeaderLine.written (text : String) (returned : Bool)
    (plain : text.toList.all (fun c => decide (c.toNat < 0x80 ∧ c ≠ '\n')) = true)
    (short : text.toList.length + returned.toNat ≤ lineLimit) : HeaderLine where
  text := text.toList
  returned := returned
  ascii c hc := (of_decide_eq_true (List.all_eq_true.mp plain c hc)).1
  single hmem := (of_decide_eq_true (List.all_eq_true.mp plain _ hmem)).2 rfl
  short := short

/-- Two empty lines, a length that does not count, a header without a colon, the length that counts, and a header that
has nothing to do with it. -/
def sampleBlock : HeaderBlock where
  skipped := [.written " \t" true (by decide) (by decide), .written "" false (by decide) (by decide)]
  lines := [.written "Content-Length: 7" true (by decide) (by decide), .written "x" false (by decide) (by decide),
    .written "  cONTENT-length\t: 10 " true (by decide) (by decide), .written "Content-Type: a:b" false (by decide) (by decide)]
  last := .written "" true (by decide) (by decide)
  skipped_blank := by
    simp only [List.forall_mem_cons]
    exact ⟨List.all_eq_true.mp (by decide), List.all_eq_true.mp (by decide), List.forall_mem_nil _⟩
  lines_ne_nil := List.cons_ne_nil _ _
  lines_plain := by
    simp only [List.forall_mem_cons, HeaderLine.IsBlank, ← Text.trim_eq_nil_iff]
    exact ⟨by decide, by decide, by decide, by decide, List.forall_mem_nil _⟩
  last_blank := List.all_eq_true.mp (by decide)

def unmeasuredBlock : HeaderBlock :=
  { sampleBlock with
    lines := [.written "x" false (by decide) (by decide), .written "Content-Type: a:b" false (by decide) (by decide)]
    lines_ne_nil := List.cons_ne_nil _ _
    lines_plain := by
      simp only [List.forall_mem_cons, HeaderLine.IsBlank, ← Text.trim_eq_nil_iff]
      exact ⟨by decide, by decide, List.forall_mem_nil _⟩ }

/-- Eight characters in ten octets, with a newline and the beginning of another message behind them; then the first two
of the ten; then a block without a length. -/
theorem bounded_sampleBlock :
    sampleBlock.Announces 10 ∧
      read false (sampleBlock.octets ++ (Utf8.encode "\x7b\"∀\": 1\x7d".toList ++ ascii "\nContent-")) =
        .found (.object [("∀", .int 1)]) (ascii "\nContent-") ∧
      read true (sampleBlock.octets ++ ascii "\x7b\"") = .failed .truncatedFrame ∧
      read true (unmeasuredBlock.octets ++ ascii "\x7b\x7d") =
        .failed (.missingLength [("x", ""), ("content-type", "a:b")]) := by
  have hannounces : sampleBlock.Announces 10 := by
    refine ⟨sampleBlock.lines.take 2, _, sampleBlock.lines.drop 3, rfl, ?_, ?_⟩
    · refine ⟨"  ".toList, "cONTENT-length".toList, "\t".toList, " ".toList, " ".toList, by decide, by decide, ?_⟩
      exact List.all_eq_true.mp (by decide)
    · exact List.forall_mem_singleton.mpr (by decide)
  have hnone : ∀ l ∈ unmeasuredBlock.lines, l.key ≠ lengthKey := by
    refine List.forall_mem_cons.mpr ⟨by decide, List.forall_mem_singleton.mpr (by decide)⟩
  have hlength : (Utf8.encode "\x7b\"∀\": 1\x7d".toList).length = 10 := by decide
  have hchars : "\x7b\"∀\": 1\x7d".toList = ['\x7b', '"', '∀', '"', ':', ' ', '1', '\x7d'] := by decide
  have hvalue : Json.readChars "\x7b\"∀\": 1\x7d".toList = .ok (.object [("∀", .int 1)]) := by
    rw [hchars]
    rfl
  have hheaders : HeaderBlock.gathered [] unmeasuredBlock.lines = [("x", ""), ("content-type", "a:b")] := by decide
  refine ⟨hannounces, ?_, ?_, ?_⟩
  · rw [(bounded sampleBlock false).1 _ _ (by rw [hlength]; exact hannounces) (by rw [hlength]; decide),
      Outcome.ofBody, hvalue]
  · exact (bounded sampleBlock true).2.1 10 (ascii "\x7b\"") hannounces (by decide) (by decide)
  · rw [(bounded unmeasuredBlock true).2.2 hnone, hheaders]

end Frame
end CoqConsole
