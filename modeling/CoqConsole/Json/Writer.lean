import CoqConsole.Json.Value
import CoqConsole.Text.Quoted

/-!
# Written JSON

Items are separated by a comma and a space, keys end with a colon and a space, and every character
outside printable ASCII is written by its UTF-16 code units.

* `Json.escaped` : a character inside a written text;
* `Json.number` : a whole number in decimal;
* `Json.chars`, `Json.write` : the written value.
-/

namespace CoqConsole.Json

def digits (n : Nat) : List Char := Nat.toDigits 10 n

def number (n : Int) : List Char :=
  if n < 0 then '-' :: digits n.natAbs else digits n.natAbs

def unit (n : Nat) : List Char := '\\' :: 'u' :: Text.hex 4 n

def escaped (c : Char) : List Char :=
  if c = '"' then ['\\', '"']
  else if c = '\\' then ['\\', '\\']
  else if c = '\n' then ['\\', 'n']
  else if c = '\r' then ['\\', 'r']
  else if c = '\t' then ['\\', 't']
  else if c = '\x0c' then ['\\', 'f']
  else if c = '\x08' then ['\\', 'b']
  else if 0x20 ≤ c.toNat ∧ c.toNat ≤ 0x7e then [c]
  else if c.toNat < 0x10000 then unit c.toNat
  else
    let n := c.toNat - 0x10000
    unit (0xd800 + n / 0x400) ++ unit (0xdc00 + n % 0x400)

def quotedText (s : String) : List Char := '"' :: s.toList.flatMap escaped ++ ['"']

mutual

def chars : Json → List Char
  | null => "null".toList
  | bool true => "true".toList
  | bool false => "false".toList
  | int n => number n
  | real x => x.text "Infinity" "NaN"
  | text s => quotedText s
  | array items => '[' :: (itemChars items ++ [']'])
  | object members => '\x7b' :: (memberChars members ++ ['\x7d'])

def itemChars : List Json → List Char
  | [] => []
  | [v] => chars v
  | v :: rest => chars v ++ ',' :: ' ' :: itemChars rest

def memberChars : List (String × Json) → List Char
  | [] => []
  | [(k, v)] => quotedText k ++ ':' :: ' ' :: chars v
  | (k, v) :: rest => quotedText k ++ ':' :: ' ' :: (chars v ++ ',' :: ' ' :: memberChars rest)

end

def write (v : Json) : String := String.ofList (chars v)

end CoqConsole.Json
