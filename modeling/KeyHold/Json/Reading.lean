/-
Reading JSON.

`Json.read?` reads one value. A numeral with a point or an exponent is a double, any other an integer. The characters
between quotes are read as 16-bit units, of which surrogate pairs are then put together.
-/
import KeyHold.Json.Basic
import KeyHold.Decimal.Reading

namespace KeyHold.Json

def hexDigit? (c : Char) : Option Nat :=
  if c.isDigit then some (c.toNat - 48)
  else if 'a' ≤ c ∧ c ≤ 'f' then some (c.toNat - 87)
  else if 'A' ≤ c ∧ c ≤ 'F' then some (c.toNat - 55)
  else none

def hex4? (a b c d : Char) : Option Nat := do
  return (((← hexDigit? a) * 16 + (← hexDigit? b)) * 16 + (← hexDigit? c)) * 16 + (← hexDigit? d)

/-- the unit that a letter after a backslash stands for -/
def letterUnit? (c : Char) : Option Nat :=
  if c = '"' ∨ c = '\\' ∨ c = '/' then some c.toNat
  else if c = 'n' then some 10
  else if c = 'r' then some 13
  else if c = 't' then some 9
  else if c = 'b' then some 8
  else if c = 'f' then some 12
  else none

/-- the units up to the closing quote, and what follows it -/
def readUnits : List Char → Option (List Nat × List Char)
  | [] => none
  | '"' :: rest => some ([], rest)
  | '\\' :: 'u' :: a :: b :: c :: d :: rest => do
    let n ← hex4? a b c d
    let (ns, rest) ← readUnits rest
    return (n :: ns, rest)
  | '\\' :: c :: rest => do
    let n ← letterUnit? c
    let (ns, rest) ← readUnits rest
    return (n :: ns, rest)
  | c :: rest => do
    let (ns, rest) ← readUnits rest
    return (units c ++ ns, rest)

def isHigh (n : Nat) : Bool := 0xD800 ≤ n && n < 0xDC00

def isLow (n : Nat) : Bool := 0xDC00 ≤ n && n < 0xE000

/-- the characters of a sequence of units; a surrogate without its partner becomes the replacement character -/
def ofUnits : List Nat → List Char
  | [] => []
  | h :: l :: rest =>
    if isHigh h && isLow l then Char.ofNat (0x10000 + (h - 0xD800) * 0x400 + (l - 0xDC00)) :: ofUnits rest
    else (if isHigh h || isLow h then '\uFFFD' else Char.ofNat h) :: ofUnits (l :: rest)
  | [h] => [if isHigh h || isLow h then '\uFFFD' else Char.ofNat h]

/-- a text whose opening quote has been read -/
def readString (cs : List Char) : Option (String × List Char) :=
  (readUnits cs).map fun (ns, rest) => (String.ofList (ofUnits ns), rest)

def isGap (c : Char) : Bool := c == ' ' || c == '\n' || c == '\t' || c == '\r'

def skipGap (cs : List Char) : List Char := cs.dropWhile isGap

def isNumeral (c : Char) : Bool := c.isDigit || c == '-' || c == '+' || c == '.' || c == 'e' || c == 'E'

/-- a word or a numeral -/
def readAtom (cs : List Char) : Option (Json × List Char) :=
  let word (w : String) (j : Json) : Option (Json × List Char) :=
    if w.toList.isPrefixOf cs then some (j, cs.drop w.length) else none
  let numeral : Option (Json × List Char) := do
    let t := cs.takeWhile isNumeral
    let s := String.ofList t
    let j ← if t.any fun c => c == '.' || c == 'e' || c == 'E' then (Decimal.readReal? s).map float
      else (Decimal.readInt? s).map int
    return (j, cs.dropWhile isNumeral)
  word "null" null <|> word "true" (bool true) <|> word "false" (bool false) <|> word "NaN" (float Decimal.nan)
    <|> word "Infinity" (float Decimal.infinity) <|> word "-Infinity" (float (-Decimal.infinity)) <|> numeral

mutual

/-- one value; each level of nesting and each item takes one from `fuel` -/
def readValue : Nat → List Char → Option (Json × List Char)
  | 0, _ => none
  | fuel + 1, cs =>
    match skipGap cs with
    | '\x7b' :: rest =>
      match skipGap rest with
      | '\x7d' :: rest => some (obj [], rest)
      | rest => (readFields fuel rest).map fun (fs, rest) => (obj fs, rest)
    | '[' :: rest =>
      match skipGap rest with
      | ']' :: rest => some (arr [], rest)
      | rest => (readItems fuel rest).map fun (xs, rest) => (arr xs, rest)
    | '"' :: rest => (readString rest).map fun (s, rest) => (str s, rest)
    | cs => readAtom cs

/-- the items up to the closing bracket -/
def readItems : Nat → List Char → Option (List Json × List Char)
  | 0, _ => none
  | fuel + 1, cs => do
    let (x, rest) ← readValue fuel cs
    match skipGap rest with
    | ']' :: rest => return ([x], rest)
    | ',' :: rest =>
      let (xs, rest) ← readItems fuel rest
      return (x :: xs, rest)
    | _ => none

/-- the fields up to the closing brace -/
def readFields : Nat → List Char → Option (List (String × Json) × List Char)
  | 0, _ => none
  | fuel + 1, cs =>
    match skipGap cs with
    | '"' :: rest => do
      let (k, rest) ← readString rest
      match skipGap rest with
      | ':' :: rest =>
        let (x, rest) ← readValue fuel rest
        match skipGap rest with
        | '\x7d' :: rest => return ([(k, x)], rest)
        | ',' :: rest =>
          let (fs, rest) ← readFields fuel rest
          return ((k, x) :: fs, rest)
        | _ => none
      | _ => none
    | _ => none

end

/-- the value that a text holds, with nothing but blanks after it -/
def read? (s : String) : Option Json :=
  match readValue (2 * s.length + 1) s.toList with
  | some (j, rest) => if skipGap rest = [] then some j else none
  | none => none

end KeyHold.Json
