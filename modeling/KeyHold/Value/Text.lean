/-
The written form of values.

Messages show a value as it would be written down: texts quoted, numbers in the fewest digits that read back, lists
in brackets, mappings in braces. `plain` is the form that stands inside a sentence: a text or a date as it is.
-/
import KeyHold.Value.Basic
import KeyHold.Decimal.Notation
import KeyHold.Text.Quoted

namespace KeyHold

open Text (padLeft quoted hex joined)

def padZeros (width n : Nat) : String :=
  let ds := toString n
  String.ofList (List.replicate (width - ds.length) '0') ++ ds

namespace Value

/-- a byte string: printable ASCII as it is, all else by code -/
def bytesText (bs : List UInt8) : String :=
  let cs := bs.map fun b => Char.ofNat b.toNat
  let quote := Text.quoteFor cs
  let one (c : Char) : String :=
    if c = quote ∨ c = '\\' then "\\" ++ c.toString
    else if c = '\n' then "\\n"
    else if c = '\r' then "\\r"
    else if c = '\t' then "\\t"
    else if 32 ≤ c.toNat ∧ c.toNat < 127 then c.toString
    else "\\x" ++ hex 2 c.toNat
  "b" ++ quote.toString ++ String.join (cs.map one) ++ quote.toString

def dateText (d : Date) : String :=
  padZeros 4 d.year ++ "-" ++ padZeros 2 d.month ++ "-" ++ padZeros 2 d.day

/-- hours and minutes of an offset with its sign, and seconds if there are any -/
def offsetText (s : Int) : String :=
  let n := s.natAbs
  (if s < 0 then "-" else "+") ++ padZeros 2 (n / 3600) ++ ":" ++ padZeros 2 (n / 60 % 60)
    ++ (if n % 60 = 0 then "" else ":" ++ padZeros 2 (n % 60))

/-- date, `sep` and time; the fraction only if there is one -/
def momentText (sep : String) (t : Moment) : String :=
  dateText t.date ++ sep ++ padZeros 2 t.hour ++ ":" ++ padZeros 2 t.minute ++ ":" ++ padZeros 2 t.second
    ++ (if t.micro = 0 then "" else "." ++ padZeros 6 t.micro)
    ++ (match t.offset with | none => "" | some s => offsetText s)

/-- the calls that would build a moment, as its written form -/
def momentCall (t : Moment) : String :=
  let nums := [t.date.year, t.date.month, t.date.day, t.hour, t.minute]
    ++ (if t.second = 0 ∧ t.micro = 0 then [] else [t.second]) ++ (if t.micro = 0 then [] else [t.micro])
  let zone : List String :=
    match t.offset with
    | none => []
    | some 0 => ["tzinfo=datetime.timezone.utc"]
    | some s =>
      let days := s / 86400
      let rest := s % 86400
      let parts := (if days = 0 then [] else ["days=" ++ toString days])
        ++ (if rest = 0 then [] else ["seconds=" ++ toString rest])
      ["tzinfo=datetime.timezone(datetime.timedelta(" ++ joined ", " parts ++ "))"]
  "datetime.datetime(" ++ joined ", " (nums.map toString ++ zone) ++ ")"

def dateCall (d : Date) : String :=
  "datetime.date(" ++ joined ", " ([d.year, d.month, d.day].map toString) ++ ")"

mutual

/-- the written form of a value, however long it is -/
def written : Value → String
  | null => "None"
  | bool b => if b then "True" else "False"
  | int n => toString n
  | float x => Decimal.text x
  | str s => quoted s
  | bytes bs => bytesText bs
  | date d => dateCall d
  | moment t => momentCall t
  | list xs => "[" ++ joined ", " (writtenAll xs) ++ "]"
  | pair a b => "(" ++ written a ++ ", " ++ written b ++ ")"
  | set xs => if xs.isEmpty then "set()" else "\x7b" ++ joined ", " (writtenAll xs) ++ "\x7d"
  | map es => "\x7b" ++ joined ", " (writtenEntries es) ++ "\x7d"

def writtenAll : List Value → List String
  | [] => []
  | x :: xs => written x :: writtenAll xs

def writtenEntries : List (Value × Value) → List String
  | [] => []
  | (k, v) :: es => (written k ++ ": " ++ written v) :: writtenEntries es

end

/-- the form that stands inside a sentence -/
def plain : Value → String
  | str s => s
  | date d => dateText d
  | moment t => momentText " " t
  | v => v.written

end Value
end KeyHold
