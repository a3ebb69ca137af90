/-
Where records go.

There is always a console, and a file if one is asked for. A record counts if its rank reaches the threshold of the
whole; the console has a threshold of its own, the file takes everything from debug up. With a file the threshold of
the whole is debug, so the file also holds what the console does not show.
-/
import KeyHold.Fault
import KeyHold.Files.Path
import KeyHold.Journal.Record

namespace KeyHold

/-- the sinks and what has been written to them -/
structure Sinks where
  /-- the threshold of the whole -/
  threshold : Int
  /-- the threshold of the console -/
  consoleFrom : Int
  colored : Bool
  file? : Option String := none
  console : String := ""
  fileText : String := ""
deriving Repr, Inhabited

namespace Sinks

def consoleTemplate : Template := Template.read "%(asctime)s - %(name)s - %(levelname)s - %(message)s"

/-- the line within the source is not kept; a letter stands for its number -/
def fileTemplate : Template :=
  Template.read "%(asctime)s - %(name)s - %(levelname)s - %(filename)s:N - %(message)s"

/-- the time of day of records on the console and in a file -/
def consoleTime : String := "00:00:00"

def fileTime : String := "1970-01-01 00:00:00"

/-- the part of a log file's name that tells when it was begun -/
def begun : String := "20240102_030405"

/-- letters in upper case, as far as the result is ASCII -/
def upperAscii (c : Char) : String :=
  if c.toNat < 128 then c.toUpper.toString
  else
    match c with
    | 'ı' => "I"
    | 'ſ' => "S"
    | 'ß' => "SS"
    | 'ﬀ' => "FF"
    | 'ﬁ' => "FI"
    | 'ﬂ' => "FL"
    | 'ﬃ' => "FFI"
    | 'ﬄ' => "FFL"
    | 'ﬅ' | 'ﬆ' => "ST"
    | c => c.toString

def upper (s : String) : String := String.join (s.toList.map upperAscii)

/-- the rank of a level's name in any case; information for a name that is none -/
def rankOf (level : String) : Except Fault Int :=
  match upper level with
  | "DEBUG" => .ok 10
  | "INFO" => .ok 20
  | "WARN" | "WARNING" => .ok 30
  | "ERROR" => .ok 40
  | "CRITICAL" | "FATAL" => .ok 50
  | "NOTSET" => .ok 0
  | "BASIC_FORMAT" => .error (.unknownLevel "%(levelname)s:%(name)s:%(message)s")
  | _ => .ok 20

/-- writes a record to the sinks whose thresholds it reaches -/
def emit (r : Record) (s : Sinks) : Sinks :=
  if r.rank ≤ 0 ∨ r.rank < s.threshold then s
  else
    let shown := if s.colored then r.colored else r
    let s := if s.consoleFrom ≤ r.rank then
        { s with console := s.console ++ consoleTemplate.fill consoleTime shown ++ "\n" }
      else s
    if s.file?.isSome ∧ 10 ≤ r.rank then
      { s with fileText := s.fileText ++ fileTemplate.fill fileTime r ++ "\n" }
    else s

/-- the file asked for by name, or one in a directory named for the time -/
def fileOf (logFile logDir : Option String) : Option String :=
  match logFile.filter (· ≠ ""), logDir.filter (· ≠ "") with
  | some f, _ => some (Path.normal f)
  | none, some d => some (Path.below d ("humanhold_" ++ begun ++ ".log"))
  | none, none => none

/-- the sinks for a level, a file or a directory for one, and a choice of colours -/
def open? (level : String) (logFile logDir : Option String) (colored : Bool) : Except Fault Sinks := do
  let rank ← rankOf level
  let s : Sinks := { threshold := rank, consoleFrom := rank, colored }
  match fileOf logFile logDir with
  | none => return s
  | some path =>
    let note : Record :=
      { name := "root", rank := 20, levelName := "INFO", text := "Logging to file: " ++ path, source := "logging.py" }
    return emit note { s with threshold := 10, file? := some path }

end Sinks
end KeyHold
