/-
JSON texts.

A text is written in ASCII: every other character as one escape for each of its 16-bit units. `Json.line` writes a
value on one line, `Json.indented` over several, two blanks deeper on each level.
-/
import KeyHold.Decimal.Notation
import KeyHold.Text.Quoted

namespace KeyHold

inductive Json where
  | null
  | bool (b : Bool)
  | int (n : Int)
  | float (x : Float)
  | str (s : String)
  | arr (items : List Json)
  | obj (fields : List (String × Json))
deriving Inhabited

namespace Json

/-- the 16-bit units of a character: one, or a high and a low surrogate -/
def units (c : Char) : List Nat :=
  let n := c.toNat
  if n < 0x10000 then [n] else [0xD800 + (n - 0x10000) / 0x400, 0xDC00 + (n - 0x10000) % 0x400]

/-- one unit inside quotes -/
def escapeUnit (n : Nat) : String :=
  if n = 0x22 then "\\\""
  else if n = 0x5C then "\\\\"
  else if 0x20 ≤ n ∧ n < 0x7F then (Char.ofNat n).toString
  else if n = 0x0A then "\\n"
  else if n = 0x0D then "\\r"
  else if n = 0x09 then "\\t"
  else if n = 0x08 then "\\b"
  else if n = 0x0C then "\\f"
  else "\\u" ++ Text.hex 4 n

def escape (s : String) : String := String.join ((s.toList.flatMap units).map escapeUnit)

def string (s : String) : String := "\"" ++ escape s ++ "\""

/-- a number; the non-finite ones have names that JSON itself does not know -/
def number (x : Float) : String :=
  match Decimal.parts x with
  | .nan => "NaN"
  | .infinite neg => if neg then "-Infinity" else "Infinity"
  | .finite .. => Decimal.text x

def scalar : Json → String
  | null => "null"
  | bool b => if b then "true" else "false"
  | int n => toString n
  | float x => number x
  | str s => string s
  | arr _ | obj _ => ""

mutual

/-- on one line, a blank after each comma and colon -/
def line : Json → String
  | arr xs => "[" ++ Text.joined ", " (lineItems xs) ++ "]"
  | obj fs => "\x7b" ++ Text.joined ", " (lineFields fs) ++ "\x7d"
  | null => "null"
  | bool b => scalar (bool b)
  | int n => scalar (int n)
  | float x => scalar (float x)
  | str s => scalar (str s)

def lineItems : List Json → List String
  | [] => []
  | x :: xs => line x :: lineItems xs

def lineFields : List (String × Json) → List String
  | [] => []
  | (k, x) :: fs => (string k ++ ": " ++ line x) :: lineFields fs

end

/-- the start of a new line at a depth -/
def newLine (depth : Nat) : String := "\n" ++ String.ofList (List.replicate (2 * depth) ' ')

/-- items on lines of their own between two brackets; nothing at all between them if there are none -/
def block (opening closing : String) (depth : Nat) (items : List String) : String :=
  if items.isEmpty then opening ++ closing
  else opening ++ newLine (depth + 1) ++ Text.joined ("," ++ newLine (depth + 1)) items ++ newLine depth ++ closing

mutual

/-- over several lines, from a depth on -/
def indentedFrom (depth : Nat) : Json → String
  | arr xs => block "[" "]" depth (indentedItems (depth + 1) xs)
  | obj fs => block "\x7b" "\x7d" depth (indentedFields (depth + 1) fs)
  | null => "null"
  | bool b => scalar (bool b)
  | int n => scalar (int n)
  | float x => scalar (float x)
  | str s => scalar (str s)

def indentedItems (depth : Nat) : List Json → List String
  | [] => []
  | x :: xs => indentedFrom depth x :: indentedItems depth xs

def indentedFields (depth : Nat) : List (String × Json) → List String
  | [] => []
  | (k, x) :: fs => (string k ++ ": " ++ indentedFrom depth x) :: indentedFields depth fs

end

def indented (j : Json) : String := indentedFrom 0 j

/-- the value of a field; of a field given twice, the last -/
def get? (j : Json) (key : String) : Option Json :=
  match j with
  | obj fields => (fields.reverse.find? (·.1 == key)).map (·.2)
  | _ => none

end Json
end KeyHold
