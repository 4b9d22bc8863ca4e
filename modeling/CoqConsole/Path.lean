import CoqConsole.Text.Utf8
import CoqConsole.Text.Quoted

/-!
# Paths

* `Path.tidy` : a path as it was given, without empty and `.` parts;
* `Path` : an absolute path by its parts; `Path.resolve` takes `..` by the parts alone;
* `Path.text`, `Path.name`, `Path.parent`, `Path.uri`.
-/

namespace CoqConsole

structure Path where
  parts : List String
  deriving DecidableEq, Repr, Inhabited

namespace Path

def cut : List Char → List (List Char)
  | [] => [[]]
  | c :: cs =>
    if c = '/' then [] :: cut cs
    else match cut cs with
      | [] => [[c]]
      | part :: rest => (c :: part) :: rest

/-- The parts of a path but the empty ones and `.`. -/
def partsOf (s : String) : List String :=
  ((cut s.toList).map String.ofList).filter fun p => !(p == "" || p == ".")

/-- What an absolute path starts with: two slashes are kept, more count as one. -/
def rootOf : List Char → String
  | '/' :: '/' :: '/' :: _ => "/"
  | '/' :: '/' :: _ => "//"
  | '/' :: _ => "/"
  | _ => ""

/-- A path as it was given, without empty and `.` parts. -/
def tidy (s : String) : String :=
  let t := rootOf s.toList ++ String.intercalate "/" (partsOf s)
  if t.isEmpty then "." else t

/-- Follow parts from a directory; `..` leaves it. -/
def follow (start : List String) (parts : List String) : List String :=
  parts.foldl (fun place p => if p = ".." then place.dropLast else place ++ [p]) start

/-- The absolute path that is meant in a directory. -/
def resolve (cwd : Path) (s : String) : Path :=
  ⟨follow (if (rootOf s.toList).isEmpty then cwd.parts else []) (partsOf s)⟩

def text (p : Path) : String := "/" ++ String.intercalate "/" p.parts

/-- The last part, empty for the root. -/
def name (p : Path) : String := p.parts.getLast?.getD ""

def parent (p : Path) : Path := ⟨p.parts.dropLast⟩

/-- A character that stands for itself in an address. -/
def isPlain (b : UInt8) : Bool :=
  let n := b.toNat
  (decide (48 ≤ n) && decide (n ≤ 57)) || (decide (65 ≤ n) && decide (n ≤ 90)) ||
    (decide (97 ≤ n) && decide (n ≤ 122)) || n == 95 || n == 46 || n == 45 || n == 126 || n == 47

def quotedOctet (b : UInt8) : List Char :=
  if isPlain b then [Char.ofNat b.toNat] else '%' :: (Text.hex 2 b.toNat).map Char.toUpper

def uri (p : Path) : String :=
  "file://" ++ String.ofList ((Utf8.encode p.text.toList).flatMap quotedOctet)

def isAbove (p q : Path) : Bool := p.parts.isPrefixOf q.parts && decide (p.parts.length < q.parts.length)

end Path
end CoqConsole
