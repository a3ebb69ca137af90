/-
What can go wrong.

Each fault is a cause; `Fault.message` is the one place that words it. A `ConfigError` names the section it concerns,
if any.
-/
import KeyHold.Value.Text

namespace KeyHold

/-- a settings file or one of its sections is not acceptable -/
structure ConfigError where
  part? : Option String
  text : String
deriving DecidableEq, Repr

/-- the section stands in brackets in front; an empty name counts as none -/
def ConfigError.message (e : ConfigError) : String :=
  match e.part? with
  | some s => if s = "" then e.text else "[" ++ s ++ "] " ++ e.text
  | none => e.text

/-- how an outside device failed: the kind of failure and what was said about it -/
structure Outage where
  kind : String
  text : String
deriving DecidableEq, Repr

/-- the kinds of failure that are the operating system's -/
def Outage.systemKinds : List String := [
  "OSError", "BlockingIOError", "ChildProcessError", "ConnectionError", "BrokenPipeError", "ConnectionAbortedError",
  "ConnectionRefusedError", "ConnectionResetError", "FileExistsError", "FileNotFoundError", "InterruptedError",
  "IsADirectoryError", "NotADirectoryError", "PermissionError", "ProcessLookupError", "TimeoutError", "gaierror",
  "herror"]

/-- an outage that is not of the operating system's making is not expected anywhere and is passed on -/
def Outage.expected (o : Outage) : Bool := systemKinds.contains o.kind

inductive Fault where
  /-- a whole number was asked of "not a number" -/
  | nanToWhole
  /-- a whole number was asked of an infinity -/
  | infiniteToWhole
  /-- an integer lies beyond the range of doubles -/
  | beyondDoubles
  /-- the quotient of two integers lies beyond the range of doubles -/
  | quotientBeyondDoubles
  /-- a scripted source of draws has none left -/
  | drawsExhausted
  /-- a device outside failed -/
  | outage (o : Outage)
  | config (e : ConfigError)
  /-- a settings file is not well formed; `detail` says what is wrong and where -/
  | malformed (path detail : String)
  | unknownMode (name : Value)
  | unknownEntropySource (name : String)
  /-- the scan step is below the resolution of the clock -/
  | stepTooShort (step : Float)
  /-- statistics of no values at all -/
  | noValues
  /-- an operation on a value of the wrong kind -/
  | wrongKind (text : String)
  /-- a value of the wrong kind was asked for something it does not have -/
  | lacksMember (kind member : String)
  /-- a text that does not denote a value of its kind -/
  | badValue (text : String)
  /-- a number that does not fit where it is needed -/
  | tooLarge (text : String)
  /-- a word without an entry in a table -/
  | noEntry (word : String)
  /-- a character was asked of an empty text -/
  | emptyText
  /-- a file was asked for where a directory is -/
  | isDirectory (path : String)
  /-- a path goes on below a file -/
  | notDirectory (path : String)
  /-- a directory is to be made where a file is -/
  | fileExists (path : String)
  /-- there is nothing at a path -/
  | noFile (path : String)
  /-- a level of the journal that is neither a number nor a level's name -/
  | unknownLevel (name : String)
  /-- the person at the keyboard interrupted the program -/
  | interrupted
  /-- an effector without an implementation -/
  | notImplemented

def Fault.message : Fault → String
  | nanToWhole => "cannot convert float NaN to integer"
  | infiniteToWhole => "cannot convert float infinity to integer"
  | beyondDoubles => "int too large to convert to float"
  | quotientBeyondDoubles => "integer division result too large for a float"
  | drawsExhausted => "pop from empty list"
  | outage o => o.text
  | config e => e.message
  | malformed path detail => "invalid YAML in " ++ path ++ ": " ++ detail
  | unknownMode name => "Unknown macro mode: " ++ name.written
  | unknownEntropySource name =>
    "Unknown entropy source " ++ Text.quoted name ++ "; expected one of ['clock', 'os']"
  | stepTooShort step => "step_ms must be at least 0.001, got " ++ Decimal.text step
  | noValues => "zero-size array to reduction operation minimum which has no identity"
  | wrongKind text => text
  | lacksMember kind member => "'" ++ kind ++ "' object has no attribute '" ++ member ++ "'"
  | badValue text => text
  | tooLarge text => text
  | noEntry word => Text.quoted word
  | emptyText => "string index out of range"
  | isDirectory path => "[Errno 21] Is a directory: " ++ Text.quoted path
  | notDirectory path => "[Errno 20] Not a directory: " ++ Text.quoted path
  | fileExists path => "[Errno 17] File exists: " ++ Text.quoted path
  | noFile path => "[Errno 2] No such file or directory: " ++ Text.quoted path
  | unknownLevel name => "Unknown level: " ++ Text.quoted name
  | interrupted => ""
  | notImplemented => ""

def Fault.ofNotWhole : Decimal.NotWhole → Fault
  | .nan => nanToWhole
  | .infinite => infiniteToWhole

/-- the whole part of a double, toward zero -/
def wholePart (x : Float) : Except Fault Int := (Decimal.truncate x).mapError Fault.ofNotWhole

/-- the whole number nearest to a double -/
def nearestWhole (x : Float) : Except Fault Int := (Decimal.roundEven x).mapError Fault.ofNotWhole

/-- the double nearest to an integer -/
def toDouble (n : Int) : Except Fault Float :=
  match Decimal.ofInt? n with
  | some x => .ok x
  | none => .error .beyondDoubles

end KeyHold
