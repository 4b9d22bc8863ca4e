import CoqConsole.CommandLine

/-!
# The program

`main` reads the command line and announces a server on the network; what cannot be read ends the
program with a code of its own.
-/

open CoqConsole.CommandLine in
def main (args : List String) : IO UInt32 := do
  match parse args with
  | .exit code => return code.toUInt32
  | .run launch =>
    match launch.announcement with
    | some line => (← IO.getStderr).putStr line
    | none => pure ()
    return 0
