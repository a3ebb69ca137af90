/-
Data as YAML text.

Collections are written in blocks, two columns deeper at each level, empty ones in brackets; a sequence that is the
value of a key stands no deeper than the key. A text is written plainly if it reads back as itself, else in single
quotes, and in double quotes with escapes if it has characters that neither form can show. Lines of more than 80
columns are folded at spaces.
-/
import KeyHold.Value.Text
import KeyHold.Yaml.Basic
import KeyHold.Yaml.Tag

namespace KeyHold.Yaml

/-- where writing has got to -/
structure Pen where
  out : String := ""
  column : Nat := 0
  /-- nothing need separate what is written next from what is there -/
  apart : Bool := true
  /-- only indentation and indicators stand on this line -/
  leading : Bool := true

namespace Pen

/-- lines are folded behind this column -/
def width : Nat := 80

def write (s : String) (p : Pen) : Pen := { p with out := p.out ++ s, column := p.column + s.length }

def writeChars (cs : List Char) (p : Pen) : Pen := p.write (String.ofList cs)

def newLine (p : Pen) : Pen := { out := p.out ++ "\n" }

/-- to a column, on a new line unless only indentation to the left of it stands on this one -/
def indentTo (column : Nat) (p : Pen) : Pen :=
  let p := if !p.leading || column < p.column || (p.column == column && !p.apart) then p.newLine else p
  if p.column < column then
    { p.writeChars (List.replicate (column - p.column) ' ') with apart := true }
  else p

/-- an indicator; `spaced` if something must separate it from what is there -/
def indicator (s : String) (spaced leads : Bool) (p : Pen) : Pen :=
  let p := p.write (if p.apart || !spaced then s else " " ++ s)
  { p with apart := false, leading := p.leading && leads }

/-- the dash before an item, on a line of its own -/
def dash (indent : Nat) (p : Pen) : Pen := (p.indentTo indent).indicator "-" true true

/-- goes on with a text on the next line -/
def foldTo (indent : Nat) (p : Pen) : Pen := { p.indentTo indent with apart := false, leading := false }

end Pen

/-! ## The form of a text -/

inductive Style where
  | plain
  | single
  | double
deriving DecidableEq, Repr

/-- characters that quotes without escapes can show -/
def isShown (c : Char) : Bool := c == '\n' || (' ' ≤ c && c ≤ '~')

/-- a first character that makes a text mean something else -/
def startsOddly : List Char → Bool
  | '-' :: '-' :: '-' :: _ | '.' :: '.' :: '.' :: _ => true
  | c :: rest =>
    "#,[]\x7b\x7d&*!|>\x27\x22%@\x60".toList.contains c
      || ((c == '?' || c == ':' || c == '-') && endsWord (rest.headD '\x00'))
  | [] => false

/-- a colon before white space or a comment after it -/
def hasIndicator : List Char → Bool
  | c :: d :: rest =>
    (endsWord c && d == '#') || (d == ':' && endsWord (rest.headD '\x00')) || hasIndicator (d :: rest)
  | _ => false

/-- a character of one class right before one of another -/
def hasPair (p q : Char → Bool) : List Char → Bool
  | c :: d :: rest => (p c && q d) || hasPair p q (d :: rest)
  | _ => false

def isSpace (c : Char) : Bool := c == ' '

/-- a space or a break at either end -/
def hasMargin (cs : List Char) : Bool :=
  let margin (c : Option Char) : Bool := c.any fun c => c == ' ' || isBreak c
  margin cs.head? || margin cs.getLast?

def allowsPlain (cs : List Char) : Bool :=
  !hasMargin cs && !cs.any isBreak && cs.all isShown && !startsOddly cs && !hasIndicator cs

def allowsSingle (cs : List Char) : Bool := !hasPair isBreak isSpace cs && !hasPair isSpace isBreak cs && cs.all isShown

/-- the form of a text that stands for itself; a key on one line shows no break -/
def styleOf (inKey : Bool) (text : String) : Style :=
  let cs := text.toList
  if Tag.ofPlain text == Tag.str && allowsPlain cs then .plain
  else if allowsSingle cs && !(inKey && cs.any isBreak) then .single
  else .double

/-! ## Plain and single quoted texts -/

/-- a break, a space or part of a word -/
def charClass (c : Char) : Nat := if isBreak c then 0 else if isSpace c then 1 else 2

/-- the text in runs of breaks, of spaces and of other characters -/
def runs : List Char → List (List Char)
  | [] => []
  | c :: cs =>
    match runs cs with
    | (d :: ds) :: rest => if charClass c == charClass d then (c :: d :: ds) :: rest else [c] :: (d :: ds) :: rest
    | rest => [c] :: rest

/-- the runs of a text; a single space between words is where a long line is folded -/
def writeRuns (fold : Bool) (indent : Nat) (first : Bool) : List (List Char) → Pen → Pen
  | [], p => p
  | run :: rest, p =>
    let p :=
      if fold && run == [' '] && Pen.width < p.column && !first && !rest.isEmpty then p.foldTo indent
      else p.writeChars run
    writeRuns fold indent false rest p

def writePlain (fold : Bool) (indent : Nat) (text : String) (p : Pen) : Pen :=
  let p := if p.apart then p else p.write " "
  writeRuns fold indent true (runs text.toList) { p with apart := false, leading := false }

/-- a run within single quotes: a quote is written twice, and breaks as one more than they are -/
def writeSingleRun (indent : Nat) (run : List Char) (p : Pen) : Pen :=
  if run.any isBreak then (run.foldl (fun p _ => p.newLine) p.newLine).indentTo indent
  else p.writeChars (run.flatMap fun c => if c == '\x27' then [c, c] else [c])

/-- the runs of a text within single quotes -/
def writeSingleRuns (fold : Bool) (indent : Nat) (first : Bool) : List (List Char) → Pen → Pen
  | [], p => p
  | run :: rest, p =>
    let p :=
      if fold && run == [' '] && Pen.width < p.column && !first && !rest.isEmpty then p.foldTo indent
      else writeSingleRun indent run p
    writeSingleRuns fold indent false rest p

def writeSingle (fold : Bool) (indent : Nat) (text : String) (p : Pen) : Pen :=
  (writeSingleRuns fold indent true (runs text.toList) (p.indicator "\x27" true false)).indicator "\x27" false false

/-! ## Double quoted texts -/

/-- the letters that stand for characters after a backslash -/
def escapeLetters : List (Char × Char) := [
  ('\x00', '0'), ('\x07', 'a'), ('\x08', 'b'), ('\t', 't'), ('\n', 'n'), ('\x0b', 'v'), ('\x0c', 'f'), ('\x0d', 'r'),
  ('\x1b', 'e'), ('\x22', '\x22'), ('\\', '\\'), ('\x85', 'N'), ('\xa0', '_'), ('\u2028', 'L'), ('\u2029', 'P')]

def upperHex (width n : Nat) : String := String.ofList ((Text.hex width n).toList.map Char.toUpper)

/-- the escape of a character that cannot be shown as it is -/
def escape? (c : Char) : Option String :=
  match escapeLetters.lookup c with
  | some letter => some ("\\" ++ letter.toString)
  | none =>
    if ' ' ≤ c ∧ c ≤ '~' then none
    else if c.toNat ≤ 0xFF then some ("\\x" ++ upperHex 2 c.toNat)
    else if c.toNat ≤ 0xFFFF then some ("\\u" ++ upperHex 4 c.toNat)
    else some ("\\U" ++ upperHex 8 c.toNat)

/-- breaks the line with a backslash, and shows with another that a space goes on the text -/
def breakEscaped (indent : Nat) (next : Option Char) (p : Pen) : Pen :=
  let p := (p.write "\\").foldTo indent
  if next == some ' ' then p.write "\\" else p

/-- character after character; `held` are those not written yet, in reverse. A line that has grown too long is broken
before a space or next to an escape. -/
def writeEscaped (fold : Bool) (indent : Nat) (first : Bool) (held : List Char) : List Char → Pen → Pen
  | [], p => p.writeChars held.reverse
  | c :: rest, p =>
    let mayBreak := fold && !first && !rest.isEmpty
    match escape? c with
    | some e =>
      let p := (p.writeChars held.reverse).write e
      let p := if mayBreak && Pen.width + 1 < p.column then breakEscaped indent rest.head? p else p
      writeEscaped fold indent false [] rest p
    | none =>
      if mayBreak && (c == ' ' || held.isEmpty) && Pen.width < p.column + held.length then
        writeEscaped fold indent false [c] rest (breakEscaped indent (some c) (p.writeChars held.reverse))
      else writeEscaped fold indent false (c :: held) rest p

def writeDouble (fold : Bool) (indent : Nat) (text : String) (p : Pen) : Pen :=
  (writeEscaped fold indent true [] text.toList (p.indicator "\x22" true false)).indicator "\x22" false false

/-! ## Values -/

/-- a text as a key on one line (`inKey`) or as a value, folded to `indent` -/
def writeText (inKey : Bool) (indent : Nat) (text : String) (p : Pen) : Pen :=
  match styleOf inKey text with
  | .plain => writePlain (!inKey) indent text p
  | .single => writeSingle (!inKey) indent text p
  | .double => writeDouble (!inKey) indent text p

/-- the fewest digits that read back, with a point even if there is only an exponent -/
def floatText (x : Float) : String :=
  if x.isNaN then ".nan"
  else if x == Decimal.infinity then ".inf"
  else if x == -Decimal.infinity then "-.inf"
  else
    let s := Decimal.text x
    match Text.splitAt 'e' s.toList with
    | [digits, exponent] =>
      if digits.contains '.' then s else String.ofList (digits ++ ".0e".toList ++ exponent)
    | _ => s

/-- the text of a value that is no collection, and the name of its tag -/
def plainForm : Value → String × String
  | .null => ("null", "!!null")
  | .bool b => (if b then "true" else "false", "!!bool")
  | .int n => (toString n, "!!int")
  | .float x => (floatText x, "!!float")
  | .date d => (Value.dateText d, "!!timestamp")
  | .moment t => (Value.momentText " " t, "!!timestamp")
  | v => (v.plain, "!!str")

/-- the columns that a key on one line would take with its tag, if it can be one -/
def keyWidth? : Value → Option Nat
  | .str s => if s.isEmpty || s.toList.any isBreak then none else some (s.length + 5)
  | .list [] | .map [] => some 0
  | .list _ | .map _ | .set _ | .pair .. => none
  | v => some ((plainForm v).1.length + (plainForm v).2.length)

/-- a key stands on the line of its value if it takes less than this -/
def keyLimit : Nat := 128

def isSimpleKey (v : Value) : Bool := (keyWidth? v).any (· < keyLimit)

mutual

/-- a value; collections in it are indented from `indent`; `underKey` if it is the value of a key -/
def writeValue (inKey underKey : Bool) (indent : Nat) : Value → Pen → Pen
  | .list [], p => (p.indicator "[" true false).indicator "]" false false
  | .map [], p => (p.indicator "\x7b" true false).indicator "\x7d" false false
  | .list items, p | .set items, p => writeItems (if underKey && !p.leading then indent else indent + 2) items p
  | .pair a b, p =>
    let inner := if underKey && !p.leading then indent else indent + 2
    let p := writeValue false false inner a (p.dash inner)
    writeValue false false inner b (p.dash inner)
  | .map entries, p => writeEntries (indent + 2) entries p
  | .str s, p => writeText inKey (indent + 2) s p
  | v, p => writePlain (!inKey) (indent + 2) (plainForm v).1 p

/-- the items of a sequence, each after its dash -/
def writeItems (indent : Nat) : List Value → Pen → Pen
  | [], p => p
  | item :: items, p => writeItems indent items (writeValue false false indent item (p.dash indent))

/-- the entries of a mapping; a key that takes more than its line is marked as such -/
def writeEntries (indent : Nat) : List (Value × Value) → Pen → Pen
  | [], p => p
  | (k, v) :: es, p =>
    let p := p.indentTo indent
    let p :=
      if isSimpleKey k then (writeValue true true indent k p).indicator ":" false false
      else ((writeValue false true indent k (p.indicator "?" true true)).indentTo indent).indicator ":" true true
    writeEntries indent es (writeValue false true indent v p)

end

/-- a mapping as the text of a file -/
def print (entries : List (Value × Value)) : String :=
  if entries.isEmpty then "\x7b\x7d\n" else ((writeEntries 0 entries {}).indentTo 0).out

end KeyHold.Yaml
