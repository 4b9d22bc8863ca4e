import CoqConsole.Json.Display
import CoqConsole.Number.Numeral

/-!
# Causes of failure

* `Json.Kind` : the kinds of values, by the names that messages use;
* `Failure` : why an operation did not succeed;
* `Failure.ofRefusal` : the failure that an error answer stands for;
* `Failure.wording` : the sentence shown for a cause.
-/

namespace CoqConsole

/-- The kinds of JSON values. -/
inductive Json.Kind
  | null | bool | int | real | text | array | object
  deriving DecidableEq, Repr

namespace Json

def kind : Json → Kind
  | null => .null
  | bool _ => .bool
  | int _ => .int
  | real _ => .real
  | text _ => .text
  | array _ => .array
  | object _ => .object

def Kind.name : Kind → String
  | .null => "NoneType"
  | .bool => "bool"
  | .int => "int"
  | .real => "float"
  | .text => "str"
  | .array => "list"
  | .object => "dict"

end Json

/-- Why an operation did not succeed. -/
inductive Failure
  /-- A box of no known kind. -/
  | unknownBox (spec : Json)
  /-- A layout tree that is neither a text nor a non-empty list. -/
  | malformedTree (wire : Json)
  /-- A node whose parts are missing or of the wrong kind. -/
  | malformedNode (tag : String) (wire : Json)
  /-- A node of no known name. -/
  | unknownNode (tag : Json)
  /-- The messages of a proof view are no list of severities and trees. -/
  | malformedMessages (messages : Json)
  /-- Something in the place of a layout tree. -/
  | strayNode (value : Json)
  /-- A break outside every box in a layout of no known name. -/
  | unknownLayout (mode : Json)
  /-- A text leaf whose content is no text, as a whole document. -/
  | notAText (kind : Json.Kind)
  /-- A text leaf whose content is no text, among others. -/
  | notJoinable
  /-- A break wider than any text can be. -/
  | tooWide
  /-- A break wider than there is room for. -/
  | noRoom
  /-- A buffer that the session holds already. -/
  | alreadyAttached (uri : String)
  /-- A buffer that the session does not hold. -/
  | notAttached (uri : String)
  /-- The server answered a request with an error. -/
  | refused (method params code message : Json)
  /-- No server process that could be written to. -/
  | notRunning
  /-- The server's output ended while an answer was due. -/
  | lostConnection
  /-- The server was stopped while an answer was due. -/
  | stopped
  /-- The server chose a position encoding that is not supported. -/
  | unsupportedChoice (encoding : Json)
  /-- The server cannot be reached, for a reason of its own. -/
  | unreachable (reason : String)
  /-- No answer in time. -/
  | timedOut
  /-- The server closed its input while it was written to. -/
  | brokenPipe
  /-- A signal that the client may not send. -/
  | notPermitted
  /-- The server's program does not exist. -/
  | missingProgram (name : String)
  /-- A position encoding that is not supported. -/
  | unsupportedEncoding (encoding : Json)
  /-- A buffer event of no known name. -/
  | unknownEvent (name : Json)
  /-- A progress status of no known name. -/
  | unknownStatus (name : String)
  /-- A step in no known direction. -/
  | unknownDirection (known : List String) (direction : Json)
  /-- A query of no known kind. -/
  | unknownKind (known : List String) (kind : Json)
  /-- A frame without its length. -/
  | missingLength (headers : List (String × String))
  /-- A frame whose headers cannot be read. -/
  | badHeader
  /-- The stream ended inside a frame's body. -/
  | truncatedFrame
  /-- Octets that are not UTF-8. -/
  | badUtf8
  /-- A text that is not JSON. -/
  | badJson
  /-- Values nested too deep. -/
  | tooDeep
  /-- An object without the key. -/
  | absent (key : String)
  /-- A value of this kind has no parts under a key. -/
  | noParts (kind : Json.Kind)
  /-- A value of this kind lacks an operation of objects. -/
  | noOperation (kind : Json.Kind) (operation : String)
  /-- Nothing is there where something with this operation was due. -/
  | nothingThere (operation : String)
  /-- A value of this kind has no elements. -/
  | noElements (kind : Json.Kind)
  /-- Too few or too many elements. -/
  | wrongCount
  /-- A value of this kind is no number. -/
  | noNumber (kind : Json.Kind)
  /-- A text that writes no whole number. -/
  | badNumeral (text : String)
  /-- A numeral with too many digits. -/
  | longNumeral (digits : Nat)
  /-- An infinity in the place of a whole number. -/
  | infiniteNumber
  /-- What is no number in the place of a whole number. -/
  | undefinedNumber
  /-- A number that names no proof mode. -/
  | unknownMode (number : Int)
  /-- A value of a kind that the operation cannot use. -/
  | wrongKind
  /-- A place in a text that is no whole number. -/
  | unevenPlace
  /-- A compound value in the place of a key. -/
  | noKey (kind : Json.Kind)
  /-- An entry that has no elements. -/
  | noEntry (place : Nat)
  /-- An entry whose elements are no key and value. -/
  | noPair (place count : Nat)
  /-- A command line whose quotes do not match. -/
  | unclosedQuote
  /-- A file that does not exist. -/
  | missingFile (path : String)
  /-- A directory in the place of a file. -/
  | isDirectory (path : String)
  /-- Listeners called one another without end. -/
  | endless
  deriving Repr, Inhabited

namespace Failure

/-- At most the first two hundred characters of a quoted text. -/
def clipped (s : String) : String := String.ofList ((Text.quoted s.toList).take 200)

def choices (known : List String) : String := String.intercalate ", " known

/-- The failure of a request that was answered with an error. -/
def ofRefusal (method params error : Json) : Failure :=
  match error with
  | .object members =>
    refused method params ((Keyed.get? "code" members).getD .null)
      ((Keyed.get? "message" members).getD (.text ""))
  | v => noOperation v.kind "get"

/-- The sentence shown for a cause; empty where there is none. -/
def wording : Failure → String
  | unknownBox spec => s!"Unknown box kind: {spec.quoted}"
  | malformedTree wire => s!"Malformed PpString: {wire.quoted}"
  | malformedNode tag wire => s!"Malformed {tag}: {wire.quoted}"
  | unknownNode tag => s!"Unknown PpString tag: {tag.quoted}"
  | malformedMessages messages => s!"Malformed proofView messages: {messages.quoted}"
  | strayNode value => s!"Not a PpDoc node: {value.quoted}"
  | unknownLayout mode => s!"Unknown layout mode: {mode.quoted}"
  | notAText kind => s!"'{kind.name}' object has no attribute 'replace'"
  | notJoinable => ""
  | tooWide => ""
  | noRoom => ""
  | alreadyAttached uri => s!"Already attached: {uri}"
  | notAttached uri => s!"Not attached: {uri}"
  | refused method _ code message => s!"{method.shown} failed ({code.shown}): {message.shown}"
  | notRunning => "vscoqtop not running"
  | lostConnection => "lost connection to vscoqtop"
  | stopped => "vscoqtop stopped"
  | unsupportedChoice encoding => s!"Server chose unsupported position encoding {encoding.quoted}"
  | unreachable reason => reason
  | timedOut => ""
  | brokenPipe => "Connection lost"
  | notPermitted => "[Errno 1] Operation not permitted"
  | missingProgram name => s!"[Errno 2] No such file or directory: {(Json.text name).quoted}"
  | unsupportedEncoding encoding => s!"Unsupported position encoding: {encoding.quoted}"
  | unknownEvent name => s!"Unknown document event: {name.quoted}"
  | unknownStatus name => s!"Unknown highlight status: {(Json.text name).quoted}"
  | unknownDirection known direction =>
    s!"direction must be one of {choices known}, got {direction.quoted}"
  | unknownKind known kind =>
    s!"kind must be one of {choices known}, got {kind.quoted}"
  | missingLength headers =>
    let shown := Json.object (headers.map fun (k, v) => (k, Json.text v))
    s!"Missing Content-Length header: {shown.quoted}"
  | badHeader => ""
  | truncatedFrame => ""
  | badUtf8 => ""
  | badJson => ""
  | tooDeep => ""
  | absent key => (Json.text key).quoted
  | noParts .array => "list indices must be integers or slices, not str"
  | noParts .text => "string indices must be integers, not 'str'"
  | noParts kind => s!"'{kind.name}' object is not subscriptable"
  | noOperation kind operation => s!"'{kind.name}' object has no attribute '{operation}'"
  | nothingThere operation => s!"'NoneType' object has no attribute '{operation}'"
  | noElements kind => s!"'{kind.name}' object is not iterable"
  | wrongCount => ""
  | noNumber kind =>
    "int() argument must be a string, a bytes-like object or a real number, not " ++ s!"'{kind.name}'"
  | badNumeral text => "invalid literal for int() with base 10: " ++ clipped text
  | longNumeral digits =>
    s!"Exceeds the limit ({Number.digitLimit} digits) for integer string conversion: " ++
      s!"value has {digits} digits; use sys.set_int_max_str_digits() to increase the limit"
  | infiniteNumber => "cannot convert float infinity to integer"
  | undefinedNumber => "cannot convert float NaN to integer"
  | unknownMode number => s!"{number} is not a valid ProofMode"
  | wrongKind => ""
  | unevenPlace => "slice indices must be integers or None or have an __index__ method"
  | noKey kind => s!"unhashable type: '{kind.name}'"
  | noEntry place => s!"cannot convert dictionary update sequence element #{place} to a sequence"
  | noPair place count =>
    s!"dictionary update sequence element #{place} has length {count}; 2 is required"
  | unclosedQuote => ""
  | missingFile path => s!"[Errno 2] No such file or directory: {(Json.text path).quoted}"
  | isDirectory path => s!"[Errno 21] Is a directory: {(Json.text path).quoted}"
  | endless => ""

end Failure
end CoqConsole
