/-!
# Blank characters

* `Text.isBlank` : white space of any script, with the four separators `U+001C` to `U+001F`;
* `Text.isAsciiBlank` : tab, newline, vertical tab, form feed, carriage return and space;
* `Text.trim` : a text without blanks at its ends; `Text.trimEnd` : at its end only.
-/

namespace CoqConsole.Text

def isBlank (c : Char) : Bool :=
  let n := c.toNat
  (decide (0x09 ≤ n) && decide (n ≤ 0x0d)) || (decide (0x1c ≤ n) && decide (n ≤ 0x20)) ||
    n == 0x85 || n == 0xa0 || n == 0x1680 || (decide (0x2000 ≤ n) && decide (n ≤ 0x200a)) ||
    n == 0x2028 || n == 0x2029 || n == 0x202f || n == 0x205f || n == 0x3000

def isAsciiBlank (c : Char) : Bool :=
  let n := c.toNat
  (decide (0x09 ≤ n) && decide (n ≤ 0x0d)) || n == 0x20

/-- Drop what satisfies `p` from the end. -/
def dropEnd (p : Char → Bool) (cs : List Char) : List Char := (cs.reverse.dropWhile p).reverse

def trim (cs : List Char) : List Char := dropEnd isBlank (cs.dropWhile isBlank)

def trimEnd (cs : List Char) : List Char := dropEnd isBlank cs

end CoqConsole.Text
