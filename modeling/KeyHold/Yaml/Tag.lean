/-
Tags: what kind of value a node stands for.

A node may name its tag; one that does not has a tag by its form. Of texts only the plain ones are looked at: words for
truth values and for nothing, numerals, dates, and the signs for merging and for a default value.
-/
import KeyHold.Text.Quoted

namespace KeyHold.Yaml

namespace Tag

/-- what the tags of the language itself begin with -/
def stem : String := "tag:yaml.org,2002:"

def null : String := stem ++ "null"
def bool : String := stem ++ "bool"
def int : String := stem ++ "int"
def float : String := stem ++ "float"
def binary : String := stem ++ "binary"
def timestamp : String := stem ++ "timestamp"
def omap : String := stem ++ "omap"
def pairs : String := stem ++ "pairs"
def set : String := stem ++ "set"
def str : String := stem ++ "str"
def seq : String := stem ++ "seq"
def map : String := stem ++ "map"
def merge : String := stem ++ "merge"
def value : String := stem ++ "value"
def yaml : String := stem ++ "yaml"

/-! ## The forms of plain texts -/

def boolWords : List String := [
  "yes", "Yes", "YES", "no", "No", "NO", "true", "True", "TRUE", "false", "False", "FALSE", "on", "On", "ON", "off",
  "Off", "OFF"]

def nullWords : List String := ["", "~", "null", "Null", "NULL"]

def dropSign : List Char → List Char
  | '-' :: cs | '+' :: cs => cs
  | cs => cs

def isOneOf (chars : String) (c : Char) : Bool := chars.toList.contains c

def isDigitOrGap (c : Char) : Bool := c.isDigit || c == '_'

/-- at least one character, all of a class -/
def someOf (p : Char → Bool) (cs : List Char) : Bool := !cs.isEmpty && cs.all p

/-- up to 59, in one digit or two -/
def isSixtieth : List Char → Bool
  | [d] => d.isDigit
  | [t, d] => '0' ≤ t && t ≤ '5' && d.isDigit
  | _ => false

/-- groups of sixtieths after colons, at least one -/
def areSixtieths (groups : List (List Char)) : Bool := !groups.isEmpty && groups.all isSixtieth

/-- the parts between colons: the first, and the groups after it -/
def atColons (cs : List Char) : List Char × List (List Char) :=
  match Text.splitAt ':' cs with
  | first :: groups => (first, groups)
  | [] => ([], [])

/-- binary, octal, decimal, hexadecimal, or in groups of sixty -/
def isInt (cs : List Char) : Bool :=
  match dropSign cs with
  | '0' :: 'b' :: ds => someOf (isOneOf "01_") ds
  | '0' :: 'x' :: ds => someOf (fun c => c.isDigit || isOneOf "abcdefABCDEF_" c) ds
  | ['0'] => true
  | '0' :: ds => someOf (isOneOf "01234567_") ds
  | d :: ds =>
    d.isDigit &&
      match atColons ds with
      | (rest, []) => rest.all isDigitOrGap
      | (rest, groups) => rest.all isDigitOrGap && areSixtieths groups
  | [] => false

/-- nothing, or `e`, a sign and digits -/
def isExponent : List Char → Bool
  | [] => true
  | e :: s :: ds => (e == 'e' || e == 'E') && (s == '-' || s == '+') && someOf Char.isDigit ds
  | _ => false

/-- places after a point, and an exponent -/
def isFraction (cs : List Char) : Bool := isExponent (cs.dropWhile isDigitOrGap)

def infinityWords : List String := [".inf", ".Inf", ".INF"]

def nanWords : List String := [".nan", ".NaN", ".NAN"]

/-- a numeral with a point: decimal, in groups of sixty, or the name of an infinity or of "not a number" -/
def isFloat (cs : List Char) : Bool :=
  let body := dropSign cs
  infinityWords.contains (String.ofList body) || nanWords.contains (String.ofList cs) ||
    match cs, body with
    | '.' :: d :: rest, _ => d.isDigit && isFraction rest
    | _, d :: rest =>
      d.isDigit &&
        match atColons (rest.takeWhile (· != '.')), rest.dropWhile (· != '.') with
        | (whole, []), '.' :: places => whole.all isDigitOrGap && isFraction places
        | (whole, groups), '.' :: places =>
          whole.all isDigitOrGap && areSixtieths groups && places.all isDigitOrGap
        | _, _ => false
    | _, [] => false

/-- the numbers in a date or a moment -/
structure Stamp where
  year : Nat
  month : Nat
  day : Nat
  /-- hour, minute, second, and the digits of a fraction -/
  time? : Option (Nat × Nat × Nat × List Char) := none
  /-- the distance from universal time: minus sign, hours and minutes -/
  zone? : Option (Bool × Nat × Nat) := none
deriving Repr

/-- a number of `least` to `most` digits, and the rest -/
def digits? (least most : Nat) (cs : List Char) : Option (Nat × List Char) :=
  let ds := (cs.take most).takeWhile Char.isDigit
  if ds.length < least then none
  else some (ds.foldl (fun n c => n * 10 + (c.toNat - 48)) 0, cs.drop ds.length)

def char? (p : Char → Bool) : List Char → Option (List Char)
  | c :: cs => if p c then some cs else none
  | [] => none

/-- the distance from universal time at the end of a moment, if it is there at all -/
def zone? (cs : List Char) : Option (Option (Bool × Nat × Nat)) :=
  if cs.isEmpty then some none
  else
    match cs.dropWhile (isOneOf " \t") with
    | ['Z'] => some (some (false, 0, 0))
    | s :: rest => do
      let rest ← char? (isOneOf "+-") (s :: rest)
      let (hours, rest) ← digits? 1 2 rest
      if rest.isEmpty then return some (s == '-', hours, 0)
      let (minutes, rest) ← digits? 2 2 (← char? (· == ':') rest)
      if rest.isEmpty then return some (s == '-', hours, minutes)
      none
    | [] => none

/-- a time of day and what comes after it -/
def time? (cs : List Char) : Option ((Nat × Nat × Nat × List Char) × Option (Bool × Nat × Nat)) := do
  let (hour, rest) ← digits? 1 2 cs
  let (minute, rest) ← digits? 2 2 (← char? (· == ':') rest)
  let (second, rest) ← digits? 2 2 (← char? (· == ':') rest)
  match rest with
  | '.' :: rest =>
    return ((hour, minute, second, rest.takeWhile Char.isDigit), ← zone? (rest.dropWhile Char.isDigit))
  | rest => return ((hour, minute, second, []), ← zone? rest)

/-- a date, or a date and a time of day with `T` or blanks between them -/
def stamp? (cs : List Char) : Option Stamp := do
  let (year, rest) ← digits? 4 4 cs
  let (month, rest) ← digits? 1 2 (← char? (· == '-') rest)
  let (day, rest) ← digits? 1 2 (← char? (· == '-') rest)
  match rest with
  | [] => return { year, month, day }
  | c :: rest' =>
    let rest ← if c == 'T' || c == 't' then some rest' else do
      let _ ← char? (isOneOf " \t") rest
      some (rest.dropWhile (isOneOf " \t"))
    let (time, zone) ← time? rest
    return { year, month, day, time? := some time, zone? := zone }

/-- a date alone has two digits each for month and day -/
def isStamp (cs : List Char) : Bool :=
  match stamp? cs with
  | some s => s.time?.isSome || cs.length == 10
  | none => false

/-- the tag of a plain text -/
def ofPlain (text : String) : String :=
  let cs := text.toList
  if nullWords.contains text then null
  else if boolWords.contains text then bool
  else if isInt cs then int
  else if isFloat cs then float
  else if isStamp cs then timestamp
  else if text == "<<" then merge
  else if text == "=" then value
  else if text == "!" || text == "&" || text == "*" then yaml
  else str

end Tag
end KeyHold.Yaml
