/-
The texts of a document: quoted, in a block, or plain.

A line break within a text is folded: alone it is a space, of several the first is dropped. In a block that is kept
as it stands every break counts; in a folded one only those next to indented or empty lines do.
-/
import KeyHold.Yaml.Cursor

namespace KeyHold.Yaml

open Read

/-- what a break and the breaks after it stand for -/
def folded (first : Char) (others : List Char) : List Char :=
  (if first != '\n' then [first] else if others.isEmpty then [' '] else []) ++ others

/-! ## Quoted texts -/

/-- the characters that letters stand for after a backslash -/
def escapes : List (Char × Char) := [
  ('0', '\x00'), ('a', '\x07'), ('b', '\x08'), ('t', '\t'), ('\t', '\t'), ('n', '\n'), ('v', '\x0b'), ('f', '\x0c'),
  ('r', '\x0d'), ('e', '\x1b'), (' ', ' '), ('\x22', '\x22'), ('\\', '\\'), ('/', '/'), ('N', '\x85'), ('_', '\xa0'),
  ('L', '\u2028'), ('P', '\u2029')]

/-- letters after which that many hexadecimal digits give a character -/
def codeLengths : List (Char × Nat) := [('x', 2), ('u', 4), ('U', 8)]

/-- half of a surrogate pair is no character; the replacement character stands for it -/
def charOfCode (n : Nat) : Result Char :=
  if n < 0x110000 then .ok (if n.isValidChar then Char.ofNat n else '\ufffd')
  else if n < 0x80000000 then .error (.value (.badValue "chr() arg not in range(0x110000)"))
  else .error (.value (.tooLarge "Python int too large to convert to C int"))

def inDouble : String := "while scanning a double-quoted scalar"

def inQuotes : String := "while scanning a quoted scalar"

/-- a character given by `n` digits -/
def codedChar (start : Mark) (n : Nat) : Read Char := do
  let c ← get
  let digits := (List.range n).map fun (k : Nat) => c.peekAt k
  match digits.find? (!isHexDigit ·) with
  | some d =>
    fails inDouble start
      ("expected escape sequence of " ++ toString n ++ " hexadecimal numbers, but found " ++ quotedChar d)
  | none =>
    let ch ← charOfCode (hexValue digits)
    skip n
    return ch

/-- empty lines, each up to its break, and the blanks that begin the line after them -/
def emptyLines (start : Mark) : Nat → Read (List Char)
  | 0 => return []
  | fuel + 1 => do
    if (← get).atSeparator then fails inQuotes start "found unexpected document separator"
    let _ ← span isBlank
    match ← lineBreak? with
    | some b => return b :: (← emptyLines start fuel)
    | none => return []

/-- what comes after a backslash -/
def escaped (start : Mark) (fuel : Nat) : Read (List Char) := do
  let c ← peek
  match escapes.lookup c, codeLengths.lookup c with
  | some e, _ =>
    skip 1
    return [e]
  | none, some n =>
    skip 1
    return [← codedChar start n]
  | none, none =>
    match ← lineBreak? with
    | some _ => emptyLines start fuel
    | none => fails inDouble start ("found unknown escape character " ++ quotedChar c)

/-- the part of a quoted text up to white space or the closing quote -/
def quotedWord (double : Bool) (start : Mark) : Nat → Read (List Char)
  | 0 => return []
  | fuel + 1 => do
    let word ← span fun c => !(c == '\x27' || c == '\x22' || c == '\\' || endsWord c)
    let c ← peek
    if !double && c == '\x27' && (← peekAt 1) == '\x27' then
      skip 2
      return word ++ c :: (← quotedWord double start fuel)
    else if (double && c == '\x27') || (!double && (c == '\x22' || c == '\\')) then
      skip 1
      return word ++ c :: (← quotedWord double start fuel)
    else if double && c == '\\' then
      skip 1
      let cs ← escaped start fuel
      return word ++ cs ++ (← quotedWord double start fuel)
    else return word

/-- white space within a quoted text -/
def quotedGap (start : Mark) (fuel : Nat) : Read (List Char) := do
  let blanks ← span isBlank
  if (← peek) == '\x00' then fails inQuotes start "found unexpected end of stream"
  match ← lineBreak? with
  | some b => return folded b (← emptyLines start fuel)
  | none => return blanks

/-- words and gaps up to the closing quote -/
def quotedRest (double : Bool) (start : Mark) : Nat → Read (List Char)
  | 0 => return []
  | fuel + 1 => do
    if (← peek) == (if double then '\x22' else '\x27') then
      skip 1
      return []
    let gap ← quotedGap start fuel
    let word ← quotedWord double start fuel
    return gap ++ word ++ (← quotedRest double start fuel)

/-- a text in quotes, from the opening quote on -/
def quotedText : Read String := do
  let start ← mark
  let double := (← peek) == '\x22'
  let fuel := (← get).fuel
  skip 1
  let word ← quotedWord double start fuel
  return String.ofList (word ++ (← quotedRest double start fuel))

/-! ## Texts in a block -/

/-- what becomes of the breaks at the end of a block -/
inductive Chomping where
  | clip
  | strip
  | keep
deriving DecidableEq, Repr

def inBlock : String := "while scanning a block scalar"

def chomping? : Read (Option Chomping) := do
  match ← peek with
  | '+' =>
    skip 1
    return some .keep
  | '-' =>
    skip 1
    return some .strip
  | _ => return none

/-- the digit that gives the indentation -/
def increment? (start : Mark) : Read (Option Nat) := do
  let c ← peek
  if !c.isDigit then return none
  if c == '0' then fails inBlock start "expected indentation indicator in the range 1-9, but found 0"
  skip 1
  return some (c.toNat - 48)

/-- chomping and indentation, in either order -/
def blockHeader (start : Mark) : Read (Chomping × Option Nat) := do
  let first ← chomping?
  let increment ← increment? start
  let chomping ← match first with
    | some c => pure (some c)
    | none => if increment.isSome then chomping? else pure none
  if !endsField (← peek) then failsFound inBlock start "chomping or indentation indicators"
  return (chomping.getD .clip, increment)

/-- the empty lines at the start of a block, and the widest of their indentations and of the line after them -/
def blockIndentation (widest : Nat) : Nat → Read (List Char × Nat)
  | 0 => return ([], widest)
  | fuel + 1 => do
    if (← peek) == ' ' then
      skip 1
      blockIndentation (max widest (← mark).column) fuel
    else
      match ← lineBreak? with
      | some b =>
        let (breaks, widest) ← blockIndentation widest fuel
        return (b :: breaks, widest)
      | none => return ([], widest)

/-- spaces up to a column -/
def spacesTo (column : Nat) : Read Unit := do
  let c ← get
  skip ((c.rest.take (column - c.mark.column)).takeWhile (· == ' ')).length

/-- empty lines within a block, and the indentation of the line after them -/
def blockBreaks (indent : Nat) : Nat → Read (List Char)
  | 0 => return []
  | fuel + 1 => do
    spacesTo indent
    match ← lineBreak? with
    | some b => return b :: (← blockBreaks indent fuel)
    | none => return []

/-- whether the next line of the block begins here -/
def atBlockLine (indent : Nat) : Read Bool := do
  let c ← get
  return c.mark.column == indent && c.peek != '\x00'

/-- the lines of a block, each after the empty lines before it, and the breaks that end the block -/
def blockLines (fold : Bool) (indent : Nat) : Nat → List Char → Read (List Char × Option Char × List Char)
  | 0, breaks => return ([], none, breaks)
  | fuel + 1, breaks => do
    let flush := !isBlank (← peek)
    let line ← span (!endsLine ·)
    let ending ← lineBreak?
    let more ← blockBreaks indent fuel
    if ← atBlockLine indent then
      let flush := flush && !isBlank (← peek)
      let join := match ending with
        | some b => if fold && b == '\n' && flush then (if more.isEmpty then [' '] else []) else [b]
        | none => []
      let (text, ending, last) ← blockLines fold indent fuel more
      return (breaks ++ line ++ join ++ text, ending, last)
    return (breaks ++ line, ending, more)

/-- a text in a block, from its indicator on; `outer` is the indentation around it -/
def blockText (outer : Int) : Read String := do
  let start ← mark
  let fold := (← peek) == '>'
  let fuel := (← get).fuel
  skip 1
  let (chomping, increment) ← blockHeader start
  restOfLine inBlock start
  let least := (max 1 (outer + 1)).toNat
  let (breaks, indent) ← match increment with
    | some n => do
      let indent := least + n - 1
      pure (← blockBreaks indent fuel, indent)
    | none => do
      let (breaks, widest) ← blockIndentation 0 fuel
      pure (breaks, max least widest)
  let (text, ending, last) ←
    if ← atBlockLine indent then blockLines fold indent fuel breaks else pure ([], none, breaks)
  let tail := match chomping with
    | .strip => []
    | .clip => ending.toList
    | .keep => ending.toList ++ last
  return String.ofList (text ++ tail)

/-! ## Plain texts -/

/-- empty lines after a line of plain text; none if a document ends among them -/
def plainBreaks : Nat → Read (Option (List Char))
  | 0 => return some []
  | fuel + 1 => do
    let _ ← span (· == ' ')
    match ← lineBreak? with
    | some b =>
      if (← get).atSeparator then return none
      return (← plainBreaks fuel).map (b :: ·)
    | none => return some []

/-- white space within a plain text: what it stands for, none if the text ends, and whether it has a line break -/
def plainGap (fuel : Nat) : Read (Option (List Char) × Bool) := do
  let spaces ← span (· == ' ')
  match ← lineBreak? with
  | some b =>
    if (← get).atSeparator then return (none, true)
    return ((← plainBreaks fuel).map (folded b), true)
  | none => return (if spaces.isEmpty then none else some spaces, false)

/-- the length of a plain word; a colon ends it only before white space, or in brackets before one of their marks -/
def wordLength (inFlow : Bool) : List Char → Nat
  | [] => 0
  | c :: rest =>
    let after := rest.headD '\x00'
    if endsWord c || (c == ':' && (endsWord after || (inFlow && isFlowMark after)))
      || (inFlow && (isFlowMark c || c == '?')) then 0
    else wordLength inFlow rest + 1

/-- words and gaps, each word after the gap before it, and whether the last gap had a line break -/
def plainWords (inFlow : Bool) (indent : Int) : Nat → List Char → Bool → Read (List Char × Bool)
  | 0, _, broken => return ([], broken)
  | fuel + 1, gap, broken => do
    let c ← get
    let length := if c.peek == '#' then 0 else wordLength inFlow c.rest
    if length == 0 then return ([], broken)
    skip length
    let word := c.rest.take length
    match ← plainGap fuel with
    | (none, broken) => return (gap ++ word, broken)
    | (some next, broken) =>
      let c ← get
      if c.peek == '#' || (!inFlow && (c.mark.column : Int) < indent) then return (gap ++ word, broken)
      let (rest, broken) ← plainWords inFlow indent fuel next broken
      return (gap ++ word ++ rest, broken)

/-- a plain text, and whether a line break follows it -/
def plainText (inFlow : Bool) (indent : Int) : Read (String × Bool) := do
  let (text, broken) ← plainWords inFlow indent (← get).fuel [] false
  return (String.ofList text, broken)

end KeyHold.Yaml
