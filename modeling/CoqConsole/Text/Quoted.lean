import CoqConsole.Text.Printable

/-!
# Quoted text

A text is put between single quotes, or between double ones if it holds a single quote and no double
one. Inside, the quote in use and the backslash are escaped, newline, carriage return and tab have
escapes of their own, and other hidden characters are written by their code point.

* `Text.hex` : a number in lower-case hexadecimal with leading zeros;
* `Text.quoted` : the quoted text.
-/

namespace CoqConsole.Text

/-- Lower-case hexadecimal, at least `width` digits. -/
def hex (width n : Nat) : List Char :=
  let ds := Nat.toDigits 16 n
  List.replicate (width - ds.length) '0' ++ ds

/-- One character between quotes `q`. -/
def quotedChar (q c : Char) : List Char :=
  if c = q ∨ c = '\\' then ['\\', c]
  else if c = '\n' then ['\\', 'n']
  else if c = '\r' then ['\\', 'r']
  else if c = '\t' then ['\\', 't']
  else if isPrintable c then [c]
  else if c.toNat < 0x100 then '\\' :: 'x' :: hex 2 c.toNat
  else if c.toNat < 0x10000 then '\\' :: 'u' :: hex 4 c.toNat
  else '\\' :: 'U' :: hex 8 c.toNat

def quoted (cs : List Char) : List Char :=
  let q := if cs.contains '\'' && !cs.contains '"' then '"' else '\''
  q :: cs.flatMap (quotedChar q) ++ [q]

end CoqConsole.Text
