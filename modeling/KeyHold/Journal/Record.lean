/-
Records of the journal and how they are written.

A record is an entry with all that a line about it can show. A `Template` is a text with fields in it, written as a
percent sign, the field's name in round brackets, and a letter, between which a minus sign and a width may stand.
-/
import KeyHold.Journal
import KeyHold.Text.Quoted

namespace KeyHold

structure Record where
  name : String
  rank : Int
  levelName : String
  text : String
  source : String
  line : Nat := 0
deriving Repr, Inhabited

/-- the name of a rank; a rank between the levels has its number for a name -/
def rankName (rank : Int) : String :=
  if rank = 0 then "NOTSET"
  else
    match [Level.debug, .info, .warning, .error, .critical].find? fun l => (l.rank : Int) == rank with
    | some l => l.name
    | none => "Level " ++ toString rank

/-- the source that a speaker's records are attributed to -/
def Speaker.source (s : Speaker) : String :=
  match (Text.splitAt '.' s.name.toList).getLast? with
  | some part => String.ofList part ++ ".py"
  | none => ""

def Record.ofEntry (e : Entry) : Record :=
  { name := e.speaker.name
    rank := e.level.rank
    levelName := e.level.name
    text := e.text
    source := e.speaker.source }

/-- a part of a template: text as it stands, or a field padded to a width -/
inductive Piece where
  | text (s : String)
  | field (name : String) (left : Bool) (width : Nat)
deriving DecidableEq, Repr

abbrev Template := List Piece

namespace Template

/-- a field after its percent sign and bracket: name, flags and width, letter -/
def readField (cs : List Char) : Option (Piece × List Char) :=
  let name := cs.takeWhile (· != ')')
  match cs.dropWhile (· != ')') with
  | [] => none
  | _ :: rest =>
    let flags := rest.takeWhile fun c => c == '-' || c == ' ' || c == '+' || c == '#'
    let rest := rest.dropWhile fun c => c == '-' || c == ' ' || c == '+' || c == '#'
    let width := rest.takeWhile Char.isDigit
    match rest.dropWhile Char.isDigit with
    | [] => none
    | _ :: rest =>
      let n := width.foldl (fun n c => n * 10 + (c.toNat - 48)) 0
      some (.field (String.ofList name) (flags.contains '-') n, rest)

/-- the pieces of a text, read with as many steps as it has characters -/
def readPieces : Nat → List Char → Template
  | 0, _ => []
  | _, [] => []
  | fuel + 1, '%' :: '%' :: rest => .text "%" :: readPieces fuel rest
  | fuel + 1, '%' :: '(' :: rest =>
    match readField rest with
    | some (piece, rest) => piece :: readPieces fuel rest
    | none => .text "%(" :: readPieces fuel rest
  | fuel + 1, c :: rest => .text c.toString :: readPieces fuel rest

def read (s : String) : Template := readPieces s.length s.toList

/-- what a field shows of a record, given the time of day -/
def fieldText (time : String) (r : Record) : String → String
  | "asctime" => time
  | "name" => r.name
  | "levelname" => r.levelName
  | "levelno" => toString r.rank
  | "message" => r.text
  | "filename" => r.source
  | "lineno" => toString r.line
  | _ => ""

def fill (time : String) (r : Record) (t : Template) : String :=
  String.join <| t.map fun piece =>
    match piece with
    | .text s => s
    | .field name left width =>
      let s := fieldText time r name
      if left then Text.padRight width s else Text.padLeft width s

end Template

/-- the escape sequence that begins a colour -/
def levelColor : String → String
  | "DEBUG" => "\x1b[36m"
  | "INFO" => "\x1b[32m"
  | "WARNING" => "\x1b[33m"
  | "ERROR" => "\x1b[31m"
  | "CRITICAL" => "\x1b[35m"
  | _ => ""

/-- a copy of a record with its level in colour; a level without a colour only gets the end of one -/
def Record.colored (r : Record) : Record := { r with levelName := levelColor r.levelName ++ r.levelName ++ "\x1b[0m" }

end KeyHold
