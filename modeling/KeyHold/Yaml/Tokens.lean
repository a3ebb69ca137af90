/-
A YAML text as tokens.

What a character means depends on what came before: the column decides which blocks go on (`indent`, `outer`), and a
token may turn out to be a key only when the colon after it is met (`candidates`). A token is therefore held back
while it may still become a key; once it is given out, what follows can no longer change it. A text that goes wrong
still has the tokens given out before that.

- `scan`: the tokens of a text in order, and the failure that ends them, if any.
-/
import KeyHold.Yaml.Scalar
import KeyHold.Yaml.Token

namespace KeyHold.Yaml

/-- a place where a key may have begun -/
structure Candidate where
  /-- the number of the token that would be the key -/
  number : Nat
  /-- whether nothing but a key can stand there -/
  required : Bool
  mark : Mark
deriving Repr

structure Scan where
  cursor : Cursor
  /-- the column of the block that goes on here, or minus one -/
  indent : Int := -1
  outer : List Int := []
  /-- how many brackets are open -/
  flow : Int := 0
  /-- whether a key may begin here -/
  keyAllowed : Bool := true
  /-- at most one for each depth of brackets -/
  candidates : List (Int × Candidate) := []
  /-- tokens given out so far -/
  given : Nat := 0
  /-- tokens held back, in order -/
  held : List Token := []
  finished : Bool := false

namespace Scan

abbrev Step := StateT Scan Result

def inBlock (s : Scan) : Bool := s.flow == 0

def read {α : Type} (r : Read α) : Step α := fun s => do
  let (a, cursor) ← r s.cursor
  return (a, { s with cursor })

def emit (t : Token) : Step Unit := modify fun s => { s with held := s.held ++ [t] }

/-- a token of no length at the current position -/
def emitHere (kind : TokenKind) : Step Unit := do
  let m := (← get).cursor.mark
  emit ⟨kind, m, m⟩

/-- a token of `n` characters -/
def emitNext (kind : TokenKind) (n : Nat) : Step Unit := do
  let start := (← get).cursor.mark
  read (Read.skip n)
  emit ⟨kind, start, (← get).cursor.mark⟩

/-- a token that is read from here -/
def emitRead (r : Read TokenKind) : Step Unit := do
  let start := (← get).cursor.mark
  let kind ← read r
  emit ⟨kind, start, (← get).cursor.mark⟩

def allowKey (b : Bool) : Step Unit := modify fun s => { s with keyAllowed := b }

/-! ## Keys -/

/-- a candidate is given up; one that is required must not be -/
def giveUp (c : Candidate) : Step Unit := do
  if c.required then
    fun s => fail "while scanning a simple key" c.mark "could not find expected ':'" s.cursor.mark

/-- a key ends on its line and within 1024 characters -/
def dropStale : Step Unit := do
  let s ← get
  let here := s.cursor.mark
  let stale (c : Candidate) : Bool := c.mark.line != here.line || here.index - c.mark.index > 1024
  for (_, c) in s.candidates do
    if stale c then giveUp c
  modify fun s => { s with candidates := s.candidates.filter fun e => !stale e.2 }

/-- gives up the candidate at this depth of brackets -/
def dropCandidate : Step Unit := do
  let s ← get
  match s.candidates.lookup s.flow with
  | some c => giveUp c
  | none => return
  modify fun s => { s with candidates := s.candidates.filter fun e => e.1 != s.flow }

/-- the next token may be a key, if keys are allowed here -/
def addCandidate : Step Unit := do
  let s ← get
  if s.keyAllowed then
    dropCandidate
    let c : Candidate :=
      { number := s.given + s.held.length
        required := s.inBlock && s.indent == s.cursor.mark.column
        mark := s.cursor.mark }
    modify fun s => { s with candidates := s.candidates ++ [(s.flow, c)] }

/-! ## Blocks -/

/-- ends the blocks that begin to the right of a column -/
def closeBlocks (column : Int) : List Int → Step Unit
  | [] => return
  | o :: rest => do
    if (← get).indent ≤ column then return
    emitHere .blockEnd
    modify fun s => { s with indent := o, outer := rest }
    closeBlocks column rest

def unwind (column : Int) : Step Unit := do
  let s ← get
  if s.inBlock then closeBlocks column s.outer

/-- a block begins at a column, if it is to the right of the one that goes on -/
def openBlock (column : Int) : Step Bool := do
  let s ← get
  if s.indent < column then
    set { s with indent := column, outer := s.indent :: s.outer }
    return true
  return false

/-- in a block, a block of a kind begins here unless one goes on; `problem` if that is not allowed here -/
def openHere (kind : TokenKind) (problem : String) : Step Unit := do
  let s ← get
  if s.inBlock then
    if !s.keyAllowed then fun s => failAt problem s.cursor.mark
    if ← openBlock s.cursor.mark.column then emitHere kind

/-! ## One token -/

/-- ends everything that is open, and nothing may become a key any more -/
def endDocument : Step Unit := do
  unwind (-1)
  dropCandidate
  allowKey false

def streamEnd : Step Unit := do
  endDocument
  modify fun s => { s with candidates := [], finished := true }
  emitHere .streamEnd

def directive : Step Unit := do
  endDocument
  let start := (← get).cursor.mark
  let (d, stop) ← read directiveToken
  emit ⟨.directive d, start, stop⟩

def separator (kind : TokenKind) : Step Unit := do
  endDocument
  emitNext kind 3

def flowStart (kind : TokenKind) : Step Unit := do
  addCandidate
  modify fun s => { s with flow := s.flow + 1, keyAllowed := true }
  emitNext kind 1

def flowEnd (kind : TokenKind) : Step Unit := do
  dropCandidate
  modify fun s => { s with flow := s.flow - 1, keyAllowed := false }
  emitNext kind 1

def flowEntry : Step Unit := do
  allowKey true
  dropCandidate
  emitNext .flowEntry 1

def blockEntry : Step Unit := do
  openHere .blockSequenceStart "sequence entries are not allowed here"
  allowKey true
  dropCandidate
  emitNext .blockEntry 1

def key : Step Unit := do
  openHere .blockMappingStart "mapping keys are not allowed here"
  allowKey (← get).inBlock
  dropCandidate
  emitNext .key 1

/-- the held tokens with some put in before the one of a number -/
def insertAt (number : Nat) (ts : List Token) : Step Unit :=
  modify fun s => { s with held := s.held.take (number - s.given) ++ ts ++ s.held.drop (number - s.given) }

/-- the colon after a key: the candidate at this depth becomes one -/
def value : Step Unit := do
  let s ← get
  match s.candidates.lookup s.flow with
  | some c =>
    modify fun s => { s with candidates := s.candidates.filter fun e => e.1 != s.flow }
    let opens ← if s.inBlock then openBlock c.mark.column else pure false
    insertAt c.number
      ((if opens then [⟨.blockMappingStart, c.mark, c.mark⟩] else []) ++ [⟨.key, c.mark, c.mark⟩])
    allowKey false
  | none =>
    openHere .blockMappingStart "mapping values are not allowed here"
    allowKey s.inBlock
    dropCandidate
  emitNext .value 1

/-- a token that may be a key or belong to one -/
def keyPart (r : Read TokenKind) : Step Unit := do
  addCandidate
  allowKey false
  emitRead r

def block : Step Unit := do
  allowKey true
  dropCandidate
  let outer := (← get).indent
  emitRead (return .scalar (← blockText outer) false)

def plain : Step Unit := do
  addCandidate
  let s ← get
  let start := s.cursor.mark
  let (text, broken) ← read (plainText (!s.inBlock) (s.indent + 1))
  allowKey broken
  emit ⟨.scalar text true, start, (← get).cursor.mark⟩

/-- white space, comments and line breaks before a token; in a block a key may begin on a new line -/
def toNext : Nat → Step Unit
  | 0 => return
  | fuel + 1 => do
    let _ ← read (Read.span (· == ' '))
    if (← get).cursor.peek == '#' then
      let _ ← read (Read.span (!endsLine ·))
    match ← read Read.lineBreak? with
    | some _ =>
      if (← get).inBlock then allowKey true
      toNext fuel
    | none => return

/-- a plain text begins here -/
def atPlain (s : Scan) : Bool :=
  let c := s.cursor.peek
  !(endsWord c || isIndicator c)
    || (!endsWord (s.cursor.peekAt 1) && (c == '-' || (s.inBlock && (c == '?' || c == ':'))))

/-- the next token, whatever it is, with the block ends before it -/
def next : Step Unit := do
  if (← get).cursor.mark.index == 0 && (← get).cursor.peek == '\ufeff' then read (Read.skip 1)
  toNext (← get).cursor.fuel
  dropStale
  unwind (← get).cursor.mark.column
  let s ← get
  let c := s.cursor.peek
  let atStart := s.cursor.mark.column == 0
  let apart := endsWord (s.cursor.peekAt 1)
  if c == '\x00' then streamEnd
  else if c == '%' && atStart then directive
  else if c == '-' && atStart && s.cursor.atSeparator then separator .documentStart
  else if c == '.' && atStart && s.cursor.atSeparator then separator .documentEnd
  else if c == '[' then flowStart .flowSequenceStart
  else if c == '\x7b' then flowStart .flowMappingStart
  else if c == ']' then flowEnd .flowSequenceEnd
  else if c == '\x7d' then flowEnd .flowMappingEnd
  else if c == ',' then flowEntry
  else if c == '-' && apart then blockEntry
  else if c == '?' && (!s.inBlock || apart) then key
  else if c == ':' && (!s.inBlock || apart) then value
  else if c == '*' then keyPart (return .reference (← nameAfter "alias"))
  else if c == '&' then keyPart (return .anchor (← nameAfter "anchor"))
  else if c == '!' then keyPart tagToken
  else if (c == '|' || c == '>') && s.inBlock then block
  else if c == '\x27' || c == '\x22' then keyPart (return .scalar (← quotedText) false)
  else if s.atPlain then plain
  else
    throw (.malformed (.grammar (some "while scanning for the next token") none
      ("found character " ++ quotedChar c ++ " that cannot start any token") s.cursor.mark))

/-! ## All tokens -/

/-- how many of the held tokens can no longer become keys -/
def settled (s : Scan) : Nat :=
  match (s.candidates.map fun e => e.2.number).min? with
  | some n => n - s.given
  | none => s.held.length

/-- token after token until the text ends or goes wrong -/
def run : Nat → Array Token → Scan → Array Token × Option Failure
  | 0, out, _ => (out, none)
  | fuel + 1, out, s =>
    if s.finished then (out, none)
    else
      match (do next; if !(← get).finished then dropStale : Step Unit) s with
      | .error e => (out, some e)
      | .ok (_, s) =>
        let n := s.settled
        run fuel (out ++ s.held.take n) { s with given := s.given + n, held := s.held.drop n }

end Scan

/-- the tokens of a text, and the failure that ends them, if any -/
def scan (text : List Char) : List Token × Option Failure :=
  match (text.zipIdx).find? fun e => !isAcceptable e.1 with
  | some (c, i) => ([], some (.malformed (.character c.toNat i)))
  | none =>
    let (tokens, failure) := Scan.run (text.length + 2) #[] { cursor := ⟨text, {}⟩ }
    (tokens.toList, failure)

end KeyHold.Yaml
