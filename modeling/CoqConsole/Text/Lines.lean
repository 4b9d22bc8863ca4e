/-!
# Lines of a text

Only a newline ends a line, and a carriage return right before it belongs to the end.

* `Text.unifyEnds` : every `\r\n` becomes `\n`;
* `Text.splitLines`, `Text.joinLines` : the lines between newlines, and back;
* `Text.lines`, `Text.unlines` : the same on strings, ends unified first.
-/

namespace CoqConsole.Text

/-- Every carriage return that a newline follows is dropped. -/
def unifyEnds : List Char → List Char
  | '\r' :: '\n' :: cs => '\n' :: unifyEnds cs
  | c :: cs => c :: unifyEnds cs
  | [] => []

/-- The pieces between newlines: one more than there are newlines. -/
def splitLines : List Char → List (List Char)
  | [] => [[]]
  | c :: cs =>
    if c = '\n' then [] :: splitLines cs
    else match splitLines cs with
      | [] => [[c]]
      | line :: rest => (c :: line) :: rest

def joinLines : List (List Char) → List Char
  | [] => []
  | [line] => line
  | line :: rest => line ++ '\n' :: joinLines rest

def lines (s : String) : List String := (splitLines (unifyEnds s.toList)).map String.ofList

def unlines (ls : List String) : String := String.ofList (joinLines (ls.map String.toList))

/-- Line ends of every kind, a lone carriage return too, become newlines. -/
def universalEnds : List Char → List Char
  | '\r' :: '\n' :: cs => '\n' :: universalEnds cs
  | c :: cs => (if c = '\r' then '\n' else c) :: universalEnds cs
  | [] => []

theorem splitLines_ne_nil (cs : List Char) : splitLines cs ≠ [] := by
  cases cs with
  | nil => simp [splitLines]
  | cons c cs =>
    simp only [splitLines]
    split
    · simp
    · split <;> simp

theorem lines_ne_nil (s : String) : lines s ≠ [] := by
  simp [lines, splitLines_ne_nil]

end CoqConsole.Text
