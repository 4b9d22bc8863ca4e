/-!
# Words of a command line

Words are separated by spaces, tabs and line ends. Single quotes keep everything as it is; inside
double quotes a backslash escapes only a double quote or a backslash; outside it escapes any
character. A pair of quotes with nothing inside is a word.

* `Text.words?` : the words, `none` if a quote is left open or a backslash ends the text.
-/

namespace CoqConsole.Text

inductive WordMode
  | plain
  | quoted (q : Char)
  | escaped (q : Option Char)
  deriving DecidableEq

def isWordBreak (c : Char) : Bool := c == ' ' || c == '\t' || c == '\r' || c == '\n'

/-- Split the rest; `current` is the word begun, last character first. -/
def splitWords : WordMode → Option (List Char) → List Char → Option (List (List Char))
  | .plain, current, [] => some (current.map List.reverse).toList
  | .quoted _, _, [] => none
  | .escaped _, _, [] => none
  | .plain, current, c :: cs =>
    if isWordBreak c then
      (splitWords .plain none cs).map ((current.map List.reverse).toList ++ ·)
    else if c = '\\' then splitWords (.escaped none) current cs
    else if c = '"' ∨ c = '\'' then splitWords (.quoted c) (some (current.getD [])) cs
    else splitWords .plain (some (c :: current.getD [])) cs
  | .quoted q, current, c :: cs =>
    if c = q then splitWords .plain current cs
    else if c = '\\' ∧ q = '"' then splitWords (.escaped (some q)) current cs
    else splitWords (.quoted q) (some (c :: current.getD [])) cs
  | .escaped none, current, c :: cs => splitWords .plain (some (c :: current.getD [])) cs
  | .escaped (some q), current, c :: cs =>
    let kept := if c = '\\' ∨ c = q then [c] else [c, '\\']
    splitWords (.quoted q) (some (kept ++ current.getD [])) cs

def words? (s : String) : Option (List String) :=
  (splitWords .plain none s.toList).map (·.map String.ofList)

end CoqConsole.Text
