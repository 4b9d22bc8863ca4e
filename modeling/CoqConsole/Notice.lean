import CoqConsole.Json.Display

/-!
# Notices

* `Notice` : a request that failed, kept to be seen;
* `Notice.text` : the notice in one line.
-/

namespace CoqConsole

structure Notice where
  method : Json
  params : Json
  message : Json
  deriving Repr

def Notice.text (n : Notice) : String :=
  s!"{n.method.shown} failed: {n.message.shown} (params: {n.params.write})"

end CoqConsole
