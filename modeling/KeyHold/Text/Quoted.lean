/-
A text in quotes, as messages show it, and the other small arts of laying out text.

Single quotes stand around a text unless it holds one and no double quote. The quote and the backslash are escaped,
tab, line feed and carriage return by letter, every other character that is not printable by its code point in two,
four or eight hexadecimal digits.
-/
import KeyHold.Text.Printable

namespace KeyHold.Text

/-- `n` in lower-case hexadecimal digits, at least `width` of them -/
def hex (width n : Nat) : String :=
  let ds := Nat.toDigits 16 n
  String.ofList (List.replicate (width - ds.length) '0' ++ ds)

def quoteChar (quote c : Char) : String :=
  if c = quote ∨ c = '\\' then "\\" ++ c.toString
  else if c = '\n' then "\\n"
  else if c = '\r' then "\\r"
  else if c = '\t' then "\\t"
  else if isPrintable c then c.toString
  else
    let n := c.toNat
    if n < 0x100 then "\\x" ++ hex 2 n
    else if n < 0x10000 then "\\u" ++ hex 4 n
    else "\\U" ++ hex 8 n

/-- the quote that needs the fewest escapes, single if in doubt -/
def quoteFor (cs : List Char) : Char :=
  if cs.contains '\x27' && !cs.contains '\x22' then '\x22' else '\x27'

def quoted (s : String) : String :=
  let cs := s.toList
  let quote := quoteFor cs
  quote.toString ++ String.join (cs.map (quoteChar quote)) ++ quote.toString

/-- filled with blanks on the right to `width` characters -/
def padRight (width : Nat) (s : String) : String :=
  s ++ String.ofList (List.replicate (width - s.length) ' ')

/-- filled with blanks on the left to `width` characters -/
def padLeft (width : Nat) (s : String) : String :=
  String.ofList (List.replicate (width - s.length) ' ') ++ s

/-- the items with a separator between each two -/
def joined (sep : String) (items : List String) : String := String.intercalate sep items

/-- the parts between the separators, one more than there are separators -/
def splitAt (sep : Char) : List Char → List (List Char)
  | [] => [[]]
  | c :: rest =>
    match splitAt sep rest with
    | [] => [[c]]
    | part :: parts => if c = sep then [] :: part :: parts else (c :: part) :: parts

theorem splitAt_ne_nil (sep : Char) (cs : List Char) : splitAt sep cs ≠ [] := by
  cases cs with
  | nil => simp [splitAt]
  | cons c rest =>
    unfold splitAt
    split
    · simp
    · split <;> simp

def lines (s : String) : List String := (splitAt '\n' s.toList).map String.ofList

end KeyHold.Text
