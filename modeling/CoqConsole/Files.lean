import CoqConsole.Failure
import CoqConsole.Keyed
import CoqConsole.Path
import CoqConsole.Text.Lines

/-!
# Files

* `Files` : the octets of files by path; directories are the paths above them and a few more;
* `Files.exists`, `Files.readText`.
-/

namespace CoqConsole

/-- Files by path, and directories that are there without any. -/
structure Files where
  contents : List (Path × List UInt8)
  directories : List Path

namespace Files

def isDirectory (fs : Files) (p : Path) : Bool :=
  fs.directories.contains p || fs.contents.any fun (q, _) => p.isAbove q

def exists? (fs : Files) (p : Path) : Bool := Keyed.has p fs.contents || fs.isDirectory p

/-- The text of a file, every line end a newline. -/
def readText (fs : Files) (p : Path) : Except Failure String :=
  match Keyed.get? p fs.contents with
  | some octets =>
    match Utf8.decode? octets with
    | some cs => .ok (String.ofList (Text.universalEnds cs))
    | none => .error .badUtf8
  | none => if fs.isDirectory p then .error (.isDirectory p.text) else .error (.missingFile p.text)

end Files
end CoqConsole
