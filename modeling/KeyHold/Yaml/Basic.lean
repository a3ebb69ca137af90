/-
Positions in a YAML text, what can be wrong with one, and the classes of characters its grammar speaks of.

Settings are kept in YAML 1.1. A text is read in three steps: characters to tokens (`Yaml.Tokens`), tokens to a tree
of nodes (`Yaml.Node`), the tree to data (`Yaml.Data`); `Yaml.Print` writes data out again.
-/
import KeyHold.Fault

namespace KeyHold.Yaml

/-- a position in a text, all counted from zero -/
structure Mark where
  index : Nat := 0
  line : Nat := 0
  column : Nat := 0
deriving DecidableEq, Repr, Inhabited

/-- a position as people count, in a text of the given name -/
def Mark.text (name : String) (m : Mark) : String :=
  "  in \x22" ++ name ++ "\x22, line " ++ toString (m.line + 1) ++ ", column " ++ toString (m.column + 1)

/-- what is wrong with a text -/
inductive Trouble where
  /-- a character that no text may contain -/
  | character (code position : Nat)
  /-- a problem at a mark, and what was being read when it was met -/
  | grammar (context? : Option String) (start? : Option Mark) (problem : String) (mark : Mark)
deriving DecidableEq, Repr

/-- the start of what was being read is told only if it is not where the problem is -/
def Trouble.message (name : String) : Trouble → String
  | character code position =>
    "unacceptable character #x" ++ Text.hex 4 code ++ ": special characters are not allowed\n  in \x22" ++ name
      ++ "\x22, position " ++ toString position
  | grammar context? start? problem mark =>
    let start := match start? with
      | some s => if s.line = mark.line ∧ s.column = mark.column then [] else [s.text name]
      | none => []
    Text.joined "\n" (context?.toList ++ start ++ [problem, mark.text name])

/-- a text that cannot be read: it is not well formed, or a value in it is not what it claims to be -/
inductive Failure where
  | malformed (t : Trouble)
  | value (f : Fault)

/-- a failure as a fault of the file of the given name -/
def Failure.fault (name : String) : Failure → Fault
  | malformed t => .malformed name (t.message name)
  | value f => f

abbrev Result := Except Failure

def fail {α : Type} (context : String) (start : Mark) (problem : String) (mark : Mark) : Result α :=
  .error (.malformed (.grammar (some context) (some start) problem mark))

/-- a problem that needs no context -/
def failAt {α : Type} (problem : String) (mark : Mark) : Result α :=
  .error (.malformed (.grammar none none problem mark))

/-! ## Classes of characters. Beyond its end a text reads as the zero character, which no text may contain. -/

def isBreak (c : Char) : Bool := c == '\n' || c == '\x85' || c == '\u2028' || c == '\u2029'

def endsLine (c : Char) : Bool := c == '\x00' || isBreak c

/-- a space or the end of a line -/
def endsField (c : Char) : Bool := c == ' ' || endsLine c

/-- white space or the end of a line -/
def endsWord (c : Char) : Bool := c == '\t' || endsField c

def isBlank (c : Char) : Bool := c == ' ' || c == '\t'

/-- characters of names -/
def isNameChar (c : Char) : Bool := c.isAlphanum || c == '-' || c == '_'

/-- characters of tags -/
def isTagChar (c : Char) : Bool := c.isAlphanum || "-;/?:@&=+$,_.!~*\x27()[]%".toList.contains c

def isHexDigit (c : Char) : Bool := c.isDigit || ('a' ≤ c && c ≤ 'f') || ('A' ≤ c && c ≤ 'F')

/-- the number that hexadecimal digits stand for -/
def hexValue (cs : List Char) : Nat :=
  cs.foldl (fun n c => n * 16 + (if c.isDigit then c.toNat - 48 else c.toLower.toNat - 87)) 0

/-- brackets and the comma, which have a meaning inside brackets -/
def isFlowMark (c : Char) : Bool := c == ',' || c == '[' || c == ']' || c == '\x7b' || c == '\x7d'

/-- characters that begin something else than a plain text -/
def isIndicator (c : Char) : Bool := isFlowMark c || "-?:#&*!|>\x27\x22%@\x60".toList.contains c

/-- characters that a text may contain -/
def isAcceptable (c : Char) : Bool :=
  let n := c.toNat
  n == 9 || n == 10 || n == 13 || (0x20 ≤ n && n ≤ 0x7E) || n == 0x85 || (0xA0 ≤ n && n ≤ 0xD7FF)
    || (0xE000 ≤ n && n ≤ 0xFFFD) || 0x10000 ≤ n

/-- a character in quotes -/
def quotedChar (c : Char) : String := Text.quoted c.toString

end KeyHold.Yaml
