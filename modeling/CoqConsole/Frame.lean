import CoqConsole.Json.Reader
import CoqConsole.Json.Writer
import CoqConsole.Failure
import CoqConsole.Text.Utf8

/-!
# Frames

A message travels as a header block with the length of its body in octets, an empty line, and the
body in JSON.

* `Frame.encode` : the octets of a message;
* `Frame.read` : the first message of a stream, and the octets after it; the stream may not hold all
  of it yet.
-/

namespace CoqConsole.Frame

def ascii (s : String) : List UInt8 := s.toList.map fun c => c.toNat.toUInt8

def encode (message : Json) : List UInt8 :=
  let body := Utf8.encode message.chars
  ascii s!"Content-Length: {body.length}\r\n\r\n" ++ body

/-- What the octets of a stream hold at their beginning. -/
inductive Outcome (α : Type)
  /-- More octets have to come. -/
  | starved
  /-- The stream ended. -/
  | ended
  | failed (cause : Failure)
  | found (value : α) (rest : List UInt8)

/-- Header lines longer than this are refused. -/
def lineLimit : Nat := 65536

/-- The end of a line. -/
def newline : UInt8 := 10

/-- The first line without its end, and the octets after it. At the end of the stream a line needs
no end. -/
def line (ended : Bool) (bs : List UInt8) : Outcome (List UInt8) :=
  let content := bs.takeWhile (· != newline)
  if lineLimit < content.length then .failed .badHeader
  else if content.length < bs.length then .found content (bs.drop (content.length + 1))
  else if !ended then .starved
  else if content.isEmpty then .ended
  else .found content []

/-- A header line cut at its first colon: the key in lower case, both parts without blanks. -/
def headerOf (cs : List Char) : String × String :=
  let key := cs.takeWhile (· != ':')
  let value := cs.drop (key.length + 1)
  (String.ofList ((Text.trim key).map Char.toLower), String.ofList (Text.trim value))

theorem length_line {ended : Bool} {bs content rest : List UInt8}
    (h : line ended bs = .found content rest) : rest.length < bs.length := by
  simp only [line] at h
  split at h
  · simp at h
  · split at h
    · rename_i hlt
      simp only [Outcome.found.injEq] at h
      rw [← h.2, List.length_drop]
      omega
    · split at h
      · simp at h
      · split at h
        · simp at h
        · rename_i hne
          simp only [Outcome.found.injEq] at h
          rw [← h.2]
          cases bs with
          | nil => simp at hne
          | cons b bs => simp

/-- The headers up to the empty line after them. Empty lines before the first header are skipped. -/
def headers (ended : Bool) (found : List (String × String)) (bs : List UInt8) :
    Outcome (List (String × String)) :=
  match _h : line ended bs with
  | .starved => .starved
  | .ended => .ended
  | .failed cause => .failed cause
  | .found content rest =>
    if content.any (0x80 ≤ ·) then .failed .badUtf8
    else
      let cs := Text.trim (content.map fun b => Char.ofNat b.toNat)
      if cs.isEmpty then
        if found.isEmpty then headers ended found rest else .found found rest
      else
        let (key, value) := headerOf cs
        headers ended (Keyed.put key value found) rest
termination_by bs.length
decreasing_by
  all_goals exact length_line _h

/-- The key of the header with the length of the body. -/
def lengthKey : String := "content-length"

def valueOfBody (body : List UInt8) : Except Failure Json :=
  match Utf8.decode? body with
  | none => .error .badUtf8
  | some cs => Json.readChars cs

def body (ended : Bool) (length : Int) (bs : List UInt8) : Outcome Json :=
  if length < 0 then .failed .badHeader
  else if bs.length < length.toNat then
    if ended then .failed .truncatedFrame else .starved
  else
    match valueOfBody (bs.take length.toNat) with
    | .ok v => .found v (bs.drop length.toNat)
    | .error cause => .failed cause

def read (ended : Bool) (bs : List UInt8) : Outcome Json :=
  match headers ended [] bs with
  | .starved => .starved
  | .ended => .ended
  | .failed cause => .failed cause
  | .found found rest =>
    match Keyed.get? lengthKey found with
    | none => .failed (.missingLength found)
    | some value =>
      match Number.numeral value with
      | .value length => body ended length rest
      | .excess digits => .failed (.longNumeral digits)
      | .nothing => .failed (.badNumeral value)

end CoqConsole.Frame
