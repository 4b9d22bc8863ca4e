import CoqConsole.Json.Display
import CoqConsole.Text.Lines

/-!
# Panes

A pane shows lines. Each write raises its revision, so a reader can tell whether anything came since
it last looked.

* `Pane.write` with `PaneWrite` : replace, append or clear;
* `Pane.text`, `Pane.describe`.
-/

namespace CoqConsole

/-- Display lines and the number of writes so far. -/
structure Pane where
  name : String
  lines : List String
  revision : Nat
  deriving DecidableEq, Repr

/-- A write to a pane. -/
inductive PaneWrite
  | replace (lines : List String)
  | append (lines : List String)
  | clear
  deriving DecidableEq, Repr

namespace Pane

def named (name : String) : Pane := ⟨name, [], 0⟩

def linesAfter (old : List String) : PaneWrite → List String
  | .replace lines => lines
  | .append lines => old ++ lines
  | .clear => []

def write (p : Pane) (w : PaneWrite) : Pane :=
  { p with lines := linesAfter p.lines w, revision := p.revision + 1 }

def text (p : Pane) : String := Text.unlines p.lines

def describe (p : Pane) : String := s!"Panel({(Json.text p.name).quoted}, {p.lines.length} lines)"

end Pane
end CoqConsole
