/-
Reading a text character by character.

A `Cursor` is what is left of the text and the position reached; `Read` is a computation that moves one.
-/
import KeyHold.Yaml.Basic

namespace KeyHold.Yaml

structure Cursor where
  rest : List Char
  mark : Mark := {}
deriving Inhabited

namespace Cursor

/-- the character `n` places on -/
def peekAt (n : Nat) (c : Cursor) : Char := c.rest.getD n '\x00'

def peek (c : Cursor) : Char := c.rest.headD '\x00'

/-- the position after a character; a byte order mark takes no column -/
def after (ch : Char) (m : Mark) : Mark :=
  if isBreak ch then ⟨m.index + 1, m.line + 1, 0⟩
  else if ch == '\ufeff' then ⟨m.index + 1, m.line, m.column⟩
  else ⟨m.index + 1, m.line, m.column + 1⟩

def next (c : Cursor) : Cursor :=
  match c.rest with
  | [] => c
  | ch :: rest => ⟨rest, after ch c.mark⟩

def skip : Nat → Cursor → Cursor
  | 0, c => c
  | n + 1, c => skip n c.next

/-- three dashes or dots here, and no more of the word -/
def atSeparator (c : Cursor) : Bool :=
  match c.rest with
  | '-' :: '-' :: '-' :: rest | '.' :: '.' :: '.' :: rest => endsWord (rest.headD '\x00')
  | _ => false

/-- more steps than there are characters left -/
def fuel (c : Cursor) : Nat := c.rest.length + 1

end Cursor

abbrev Read := StateT Cursor Result

namespace Read

def peek : Read Char := return (← get).peek

def peekAt (n : Nat) : Read Char := return (← get).peekAt n

def mark : Read Mark := return (← get).mark

def skip (n : Nat) : Read Unit := modify (Cursor.skip n)

/-- the characters of a class, as far as they go -/
def span (p : Char → Bool) : Read (List Char) := do
  let word := (← get).rest.takeWhile p
  skip word.length
  return word

/-- a line break, if there is one, and what it stands for -/
def lineBreak? : Read (Option Char) := do
  let c ← peek
  if isBreak c then
    skip 1
    return some (if c == '\x85' then '\n' else c)
  return none

def fails {α : Type} (context : String) (start : Mark) (problem : String) : Read α := do
  fun c => fail context start problem c.mark

/-- the same, naming the character found here -/
def failsFound {α : Type} (context : String) (start : Mark) (expected : String) : Read α := do
  fails context start ("expected " ++ expected ++ ", but found " ++ quotedChar (← peek))

/-- the rest of a line that may only hold a comment -/
def restOfLine (context : String) (start : Mark) : Read Unit := do
  let _ ← span (· == ' ')
  if (← peek) == '#' then
    let _ ← span (!endsLine ·)
  if !endsLine (← peek) then failsFound context start "a comment or a line break"
  let _ ← lineBreak?

end Read
end KeyHold.Yaml
