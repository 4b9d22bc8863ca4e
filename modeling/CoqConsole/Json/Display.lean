import CoqConsole.Json.Writer

/-!
# How values are shown in messages

* `Json.quoted` : a value as it stands inside a list: texts in quotes, `None`, `True` and `False`;
* `Json.shown` : a value as it stands in a sentence: a text as it is, the rest as above.
-/

namespace CoqConsole.Json

mutual

def quotedChars : Json → List Char
  | null => "None".toList
  | bool true => "True".toList
  | bool false => "False".toList
  | int n => number n
  | real x => x.text "inf" "nan"
  | text s => Text.quoted s.toList
  | array items => '[' :: (quotedItems items ++ [']'])
  | object members => '\x7b' :: (quotedMembers members ++ ['\x7d'])

def quotedItems : List Json → List Char
  | [] => []
  | [v] => quotedChars v
  | v :: rest => quotedChars v ++ ',' :: ' ' :: quotedItems rest

def quotedMembers : List (String × Json) → List Char
  | [] => []
  | [(k, v)] => Text.quoted k.toList ++ ':' :: ' ' :: quotedChars v
  | (k, v) :: rest =>
    Text.quoted k.toList ++ ':' :: ' ' :: (quotedChars v ++ ',' :: ' ' :: quotedMembers rest)

end

def quoted (v : Json) : String := String.ofList (quotedChars v)

def shown : Json → String
  | text s => s
  | v => v.quoted

end CoqConsole.Json
