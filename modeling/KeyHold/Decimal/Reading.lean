/-
Reading numerals.

A real numeral is an optional sign and digits with an optional point and exponent, or a name of infinity or of "not
a number"; a whole numeral is an optional sign and digits. Around either blanks are ignored, between two digits one
underscore may stand, and the digits may be of any script. A real numeral is read as the nearest double, beyond the
range as an infinity; a whole one has `maxDigits` digits at most.
-/
import KeyHold.Decimal.Binary
import KeyHold.Text.Blank

namespace KeyHold.Decimal

open KeyHold.Text

/-- the value of a run of ASCII digits -/
def natOfDigits (cs : List Char) : Nat := cs.foldl (fun n c => n * 10 + (c.toNat - 48)) 0

/-- the double nearest to `n * 10^e`; far beyond the range in either direction without forming the power -/
def nearest (n : Nat) (e : Int) : Float :=
  if n = 0 then 0.0
  else
    let size := e + (Nat.toDigits 10 n).length
    if 400 < size then infinity
    else if size < -400 then 0.0
    else if e < 0 then Float.ofScientific n true e.natAbs
    else Float.ofScientific n false e.toNat

/-- other scripts' digits and blanks as those of ASCII -/
def plain (cs : List Char) : List Char :=
  cs.map fun c =>
    if c.toNat < 128 then c
    else if isBlank c then ' '
    else match digitValue? c with
      | some d => Char.ofNat (48 + d)
      | none => c

/-- without the underscores, if each stands between two digits; `after` is the character before -/
def dropUnderscores (after : Char) : List Char → Option (List Char)
  | [] => if after = '_' then none else some []
  | c :: rest =>
    if c = '_' then (if after.isDigit then dropUnderscores c rest else none)
    else if after = '_' ∧ !c.isDigit then none
    else (dropUnderscores c rest).map (c :: ·)

/-- the sign in front, `true` for minus -/
def takeSign : List Char → Bool × List Char
  | '-' :: rest => (true, rest)
  | '+' :: rest => (false, rest)
  | cs => (false, cs)

/-- the exponent of a numeral: nothing, or `e`, an optional sign and digits -/
def exponent? : List Char → Option Int
  | [] => some 0
  | e :: rest =>
    if e = 'e' ∨ e = 'E' then
      let (neg, ds) := takeSign rest
      if ds ≠ [] ∧ ds.all Char.isDigit then some (signed neg (natOfDigits ds)) else none
    else none

/-- a numeral without sign, in ASCII -/
def unsigned? (cs : List Char) : Option Float :=
  let word := cs.map Char.toLower
  if word = "inf".toList ∨ word = "infinity".toList then some infinity
  else if word = "nan".toList then some nan
  else
    let whole := cs.takeWhile Char.isDigit
    let rest := cs.dropWhile Char.isDigit
    let (places, rest) :=
      match rest with
      | '.' :: rest => (rest.takeWhile Char.isDigit, rest.dropWhile Char.isDigit)
      | rest => ([], rest)
    if whole ++ places = [] then none
    else (exponent? rest).map fun e => nearest (natOfDigits (whole ++ places)) (e - places.length)

/-- the double that a real numeral stands for -/
def readReal? (s : String) : Option Float := do
  let cs ← dropUnderscores ' ' (strip (plain s.toList))
  let (neg, cs) := takeSign cs
  let x ← unsigned? cs
  return if neg then -x else x

/-- the most digits that an integer is read or written with -/
def maxDigits : Nat := 4300

/-- the sign and the digits of a whole numeral -/
def whole? (s : String) : Option (Bool × List Char) := do
  let (neg, cs) := takeSign (strip (plain s.toList))
  let ds ← dropUnderscores ' ' cs
  if ds ≠ [] ∧ ds.all Char.isDigit then some (neg, ds) else none

/-- the integer that a whole numeral stands for, if it does not have too many digits -/
def readInt? (s : String) : Option Int := do
  let (neg, ds) ← whole? s
  if ds.length ≤ maxDigits then some (signed neg (natOfDigits ds)) else none

end KeyHold.Decimal
