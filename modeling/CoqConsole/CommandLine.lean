import CoqConsole.Number.Numeral

/-!
# The command line

Options may stand before and after the one command, `serve`, which may be left out. Long options may
be shortened as long as they stay unambiguous, take a value after `=` or as the next word, and the
one-letter options without value may be written together.

* `Word`, `classify` : what each word of the line is, before any of it takes effect;
* `Launch` : what to run;
* `CommandLine.parse` : the words in order. The command starts from the defaults again.
-/

namespace CoqConsole.CommandLine

inductive Transport
  | stdio
  | http
  | sse
  deriving DecidableEq, Repr

namespace Transport

def name : Transport → String
  | stdio => "stdio"
  | http => "http"
  | sse => "sse"

def named? (name : String) : Option Transport := [stdio, http, sse].find? fun t => t.name == name

end Transport

structure Launch where
  transport : Transport
  host : String
  port : Int
  verbose : Bool
  deriving DecidableEq, Repr

namespace Launch

def defaults : Launch := ⟨.stdio, "127.0.0.1", 8000, false⟩

/-- The line that announces a server on the network. -/
def announcement (l : Launch) : Option String :=
  match l.transport with
  | .stdio => none
  | t => some s!"VSCoq MCP server starting on {l.host}:{l.port} ({t.name})\n"

end Launch

/-- How reading the line ends. -/
inductive Outcome
  | run (launch : Launch)
  | exit (code : Nat)
  deriving DecidableEq, Repr

/-- The code after help was shown. -/
def helpCode : Nat := 0

/-- The code of a line that cannot be read. -/
def errorCode : Nat := 2

inductive Flag
  | help
  | transport
  | port
  | host
  | verbose
  deriving DecidableEq, Repr

def longFlags : List (String × Flag) :=
  [("--help", .help), ("--transport", .transport), ("--port", .port), ("--host", .host),
   ("--verbose", .verbose)]

def shortFlag? : Char → Option Flag
  | 'h' => some .help
  | 'v' => some .verbose
  | _ => none

/-- What a word of the line is. -/
inductive Word
  /-- A value or a command. -/
  | operand (s : String)
  /-- The two dashes after which all words are operands. -/
  | marker
  /-- A long option, with its value if one stands after `=`. -/
  | long (flag : Flag) (value : Option String)
  /-- One-letter options in one word. -/
  | cluster (flags : List Flag)
  /-- A word that looks like options but breaks their rules. -/
  | broken
  /-- A word that looks like an option and is none. -/
  | stranger
  deriving DecidableEq, Repr

/-- The options of a cluster of letters; `none` if a letter is unknown. -/
def letters? : List Char → Option (List Flag)
  | [] => some []
  | c :: cs => do
    let f ← shortFlag? c
    return f :: (← letters? cs)

/-- What follows the first letter of a cluster: letters, behind an equals sign if they are written as
its value. -/
def followers : List Char → List Char
  | '=' :: c :: cs => c :: cs
  | cs => cs

/-- A dash and a number with or without a fraction. -/
def isNegativeNumber (cs : List Char) : Bool :=
  let isDigit (c : Char) : Bool := (Text.digitValue? c).isSome
  let cs := if cs.getLast? = some '\n' then cs.dropLast else cs
  match cs with
  | '-' :: rest =>
    let whole := rest.takeWhile isDigit
    match rest.drop whole.length with
    | [] => !whole.isEmpty
    | '.' :: fraction => !fraction.isEmpty && fraction.all isDigit
    | _ => false
  | _ => false

def unmatched (cs : List Char) : Word :=
  if isNegativeNumber cs ∨ cs.contains ' ' then .operand (String.ofList cs) else .stranger

/-- The part before the first `=`, and what stands behind it. -/
def cutValue (cs : List Char) : List Char × Option String :=
  let name := cs.takeWhile (· != '=')
  (name, if name.length < cs.length then some (String.ofList (cs.drop (name.length + 1))) else none)

/-- A word that starts with two dashes; `none` if it is ambiguous. -/
def classifyLong (cs : List Char) : Option Word :=
  let (name, value) := cutValue cs
  match longFlags.find? fun (long, _) => long.toList == name with
  | some (_, flag) => some (.long flag value)
  | none =>
    match longFlags.filter fun (long, _) => name.isPrefixOf long.toList with
    | [] => some (unmatched cs)
    | [(_, flag)] => some (.long flag value)
    | _ => none

/-- What a word is; `none` if it is ambiguous. -/
def classify (s : String) : Option Word :=
  match s.toList with
  | '-' :: '-' :: cs => classifyLong ('-' :: '-' :: cs)
  | '-' :: c :: cs =>
    match shortFlag? c, letters? (followers cs) with
    | some f, some fs => some (.cluster (f :: fs))
    | some _, none => some .broken
    | none, _ => some (unmatched ('-' :: c :: cs))
  | _ => some (.operand s)

/-- What the words are; after the marker all are operands. -/
def classifyAll : List String → Option (List Word)
  | [] => some []
  | s :: rest =>
    if s = "--" then some (.marker :: rest.map .operand)
    else do
      let word ← classify s
      return word :: (← classifyAll rest)

/-- An option with its value; `none` if the value is not allowed. -/
def setValue (l : Launch) (flag : Flag) (value : String) : Option Launch :=
  match flag with
  | .transport => (Transport.named? value).map fun t => { l with transport := t }
  | .port => (Number.numeral? value).map fun n => { l with port := n }
  | .host => some { l with host := value }
  | _ => none

/-- Options without value, in order; `none` if help is among them. -/
def setFlags (l : Launch) : List Flag → Option Launch
  | [] => some l
  | .help :: _ => none
  | _ :: rest => setFlags { l with verbose := true } rest

/-- Go through the words. Before the command `inServe` is false; `extra` says that a word was met that
has no place, which is an error at the end, unless help is asked for before. -/
def consume (inServe : Bool) (l : Launch) (extra : Bool) : List Word → Outcome
  | [] => if extra then .exit errorCode else .run l
  | .operand s :: rest =>
    if inServe then consume true l true rest
    else if s = "serve" then consume true .defaults extra rest
    else .exit errorCode
  | .marker :: _ => .exit errorCode
  | .broken :: _ => .exit errorCode
  | .stranger :: rest => consume inServe l true rest
  | .cluster flags :: rest =>
    match setFlags l flags with
    | none => .exit helpCode
    | some l => consume inServe l extra rest
  | .long flag (some value) :: rest =>
    match setValue l flag value with
    | some l => consume inServe l extra rest
    | none => .exit errorCode
  | .long .help none :: _ => .exit helpCode
  | .long .verbose none :: rest => consume inServe { l with verbose := true } extra rest
  | .long flag none :: .operand value :: rest =>
    match setValue l flag value with
    | some l => consume inServe l extra rest
    | none => .exit errorCode
  | .long _ none :: _ => .exit errorCode

def parse (argv : List String) : Outcome :=
  match classifyAll argv with
  | some words => consume false .defaults false words
  | none => .exit errorCode

end CoqConsole.CommandLine
