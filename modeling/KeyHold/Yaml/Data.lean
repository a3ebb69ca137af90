/-
The data that a YAML document stands for.

Each tag says how the text or the contents of its node are taken. Mappings keep the order of their entries; of two
entries with one key the later gives the value. A mapping may be merged with others: their entries come first, so its
own prevail. Collections are entered level by level, so of two faults the one nearer to the root is found first, and
on one level the one that stands first.

- `Yaml.read?`: the data of a text.
-/
import KeyHold.Decimal.Reading
import KeyHold.Text.Case
import KeyHold.Value.Text
import KeyHold.Yaml.Node

namespace KeyHold.Yaml

/-! ## Texts -/

namespace Scalar

def badValue {α : Type} (text : String) : Result α := .error (.value (.badValue text))

def boolOf (text : String) : Result Value :=
  let word := Text.lower text
  if ["yes", "true", "on"].contains word then .ok (.bool true)
  else if ["no", "false", "off"].contains word then .ok (.bool false)
  else .error (.value (.noEntry word))

def digitIn (base : Nat) (c : Char) : Option Nat :=
  let n := if c.isDigit then c.toNat - 48 else if c.isAlpha then c.toLower.toNat - 87 else base
  if n < base then some n else none

/-- a numeral to a base, which may begin with a sign and the base's own letter -/
def numeral? (base : Nat) (text : String) : Option Int := do
  let (neg, cs) := Decimal.takeSign (Text.strip (Decimal.plain text.toList))
  let cs := match base, cs with
    | 2, '0' :: 'b' :: rest | 8, '0' :: 'o' :: rest | 16, '0' :: 'x' :: rest => rest
    | 2, '0' :: 'B' :: rest | 8, '0' :: 'O' :: rest | 16, '0' :: 'X' :: rest => rest
    | _, cs => cs
  if cs.isEmpty then none
  let n ← cs.foldlM (fun n c => (digitIn base c).map (n * base + ·)) 0
  return Decimal.signed neg n

def tooManyDigits (count : Nat) : Result Int :=
  badValue ("Exceeds the limit (4300 digits) for integer string conversion: value has " ++ toString count
    ++ " digits; use sys.set_int_max_str_digits() to increase the limit")

def notInBase (base : Nat) (text : String) : Result Int :=
  badValue ("invalid literal for int() with base " ++ toString base ++ ": " ++ Text.quoted text)

/-- an integer to the base ten, which has a bound on its digits -/
def decimal (text : String) : Result Int :=
  match Decimal.whole? text with
  | none => notInBase 10 text
  | some (neg, ds) =>
    if Decimal.maxDigits < ds.length then tooManyDigits ds.length
    else .ok (Decimal.signed neg (Decimal.natOfDigits ds))

/-- an integer to another base -/
def numeral (base : Nat) (text : String) : Result Int :=
  match numeral? base text with
  | some n => .ok n
  | none => notInBase base text

def real (text : String) : Result Float :=
  match Decimal.readReal? text with
  | some x => .ok x
  | none => badValue ("could not convert string to float: " ++ Text.quoted text)

def withoutGaps (text : String) : List Char := text.toList.filter (· != '_')

/-- a number without its sign -/
def unsigned (cs : List Char) : Result Int := do
  let text := String.ofList cs
  match cs with
  | [] => .error (.value .emptyText)
  | ['0'] => return 0
  | '0' :: 'b' :: rest => numeral 2 (String.ofList rest)
  | '0' :: 'x' :: rest => numeral 16 (String.ofList rest)
  | '0' :: _ => numeral 8 text
  | cs =>
    if cs.contains ':' then
      (Text.splitAt ':' cs).foldlM (fun n part => do return n * 60 + (← decimal (String.ofList part))) 0
    else decimal text

def intOf (text : String) : Result Value := do
  match withoutGaps text with
  | [] => .error (.value .emptyText)
  | cs =>
    let n ← unsigned (Tag.dropSign cs)
    return .int (if cs.head? == some '-' then -n else n)

/-- groups of sixty, the last one first, each worth sixty times the one before -/
def sixtieths (parts : List Float) : Float :=
  (parts.reverse.foldl (fun (sum, base) d => (sum + d * base, base * 60.0)) (0.0, 1.0)).1

def floatOf (text : String) : Result Value := do
  match (Text.lower (String.ofList (withoutGaps text))).toList with
  | [] => .error (.value .emptyText)
  | cs =>
    let body := Tag.dropSign cs
    let word := String.ofList body
    let x ←
      if word == ".inf" then pure Decimal.infinity
      else if word == ".nan" then pure Decimal.nan
      else if body.contains ':' then
        sixtieths <$> (Text.splitAt ':' body).mapM fun part => real (String.ofList part)
      else real word
    return .float (if cs.head? == some '-' then -x else x)

def sixBits? (c : Char) : Option Nat :=
  if 'A' ≤ c ∧ c ≤ 'Z' then some (c.toNat - 65)
  else if 'a' ≤ c ∧ c ≤ 'z' then some (c.toNat - 71)
  else if c.isDigit then some (c.toNat + 4)
  else if c == '+' then some 62
  else if c == '/' then some 63
  else none

/-- the state of reading bytes in groups of four characters -/
structure Group where
  out : Array UInt8 := #[]
  /-- characters read in this group, and the bits of the last one that no byte has used -/
  place : Nat := 0
  bits : Nat := 0
  fillers : Nat := 0

/-- the bytes that characters of six bits each stand for; other characters are passed over -/
def bytesFrom (g : Group) : List Char → Except String (List UInt8)
  | [] =>
    match g.place with
    | 0 => .ok g.out.toList
    | 1 => .error ("Invalid base64-encoded string: number of data characters (" ++ toString (g.out.size / 3 * 4 + 1)
        ++ ") cannot be 1 more than a multiple of 4")
    | _ => .error "Incorrect padding"
  | '=' :: rest =>
    if 2 ≤ g.place then
      if 4 ≤ g.place + g.fillers + 1 then .ok g.out.toList
      else bytesFrom { g with fillers := g.fillers + 1 } rest
    else bytesFrom g rest
  | c :: rest =>
    match sixBits? c with
    | none => bytesFrom g rest
    | some n =>
      let all := g.bits * 64 + n
      let push (left : Nat) : Array UInt8 := g.out.push (UInt8.ofNat (all / Decimal.two left))
      match g.place with
      | 0 => bytesFrom ⟨g.out, 1, n, 0⟩ rest
      | 1 => bytesFrom ⟨push 4, 2, n % 16, 0⟩ rest
      | 2 => bytesFrom ⟨push 2, 3, n % 4, 0⟩ rest
      | _ => bytesFrom ⟨push 0, 0, 0, 0⟩ rest

def bytesOf (text : String) (mark : Mark) : Result Value :=
  if text.toList.any (·.toNat ≥ 128) then
    failAt "failed to convert base64 data into ascii" mark
  else
    match bytesFrom {} text.toList with
    | .ok bs => .ok (.bytes bs)
    | .error e => failAt ("failed to decode base64 data: " ++ e) mark

def daysIn (year month : Nat) : Nat :=
  if month == 2 then (if year % 4 == 0 && (year % 100 != 0 || year % 400 == 0) then 29 else 28)
  else if [4, 6, 9, 11].contains month then 30
  else 31

def dateOf (s : Tag.Stamp) : Result Date := do
  if s.year == 0 then badValue "year 0 is out of range"
  if s.month == 0 || 12 < s.month then badValue "month must be in 1..12"
  if s.day == 0 || daysIn s.year s.month < s.day then badValue "day is out of range for month"
  return ⟨s.year, s.month, s.day⟩

/-- a distance from universal time in seconds, less than a day -/
def offsetOf (minus : Bool) (hours minutes : Nat) : Result Int := do
  let n := Decimal.signed minus (hours * 3600 + minutes * 60)
  if n.natAbs < 86400 then return n
  let parts := (if n / 86400 == 0 then [] else ["days=" ++ toString (n / 86400)])
    ++ (if n % 86400 == 0 then [] else ["seconds=" ++ toString (n % 86400)])
  badValue ("offset must be a timedelta strictly between -timedelta(hours=24) and timedelta(hours=24), not "
    ++ "datetime.timedelta(" ++ Text.joined ", " parts ++ ")")

/-- millionths of a second from the digits of a fraction, six of them at most -/
def microsOf (digits : List Char) : Nat :=
  let ds := digits.take 6
  Decimal.natOfDigits (ds ++ List.replicate (6 - ds.length) '0')

def stampOf (text : String) : Result Value := do
  match Tag.stamp? text.toList with
  | none => .error (.value (.lacksMember "NoneType" "groupdict"))
  | some s =>
    match s.time? with
    | none => return .date (← dateOf s)
    | some (hour, minute, second, fraction) =>
      let offset ← match s.zone? with
        | none => pure none
        | some (minus, hours, minutes) => some <$> offsetOf minus hours minutes
      let date ← dateOf s
      if 23 < hour then badValue "hour must be in 0..23"
      if 59 < minute then badValue "minute must be in 0..59"
      if 59 < second then badValue "second must be in 0..59"
      return .moment { date, hour, minute, second, micro := microsOf fraction, offset }

/-- the reader of texts with a tag -/
def reader? (tag : String) (mark : Mark) : Option (String → Result Value) :=
  if tag == Tag.null then some fun _ => .ok .null
  else if tag == Tag.bool then some boolOf
  else if tag == Tag.int then some intOf
  else if tag == Tag.float then some floatOf
  else if tag == Tag.binary then some (bytesOf · mark)
  else if tag == Tag.timestamp then some stampOf
  else if tag == Tag.str then some fun s => .ok (.str s)
  else none

end Scalar

/-! ## Contents of collections -/

namespace Node

mutual

/-- the text of a node; a mapping with a default value has the text of that -/
def text : Node → Result String
  | scalar _ s _ => .ok s
  | seq _ _ m => failAt "expected a scalar node, but found sequence" m
  | map _ es m => defaultText m es

def defaultText (m : Mark) : List (Node × Node) → Result String
  | [] => failAt "expected a scalar node, but found mapping" m
  | (k, v) :: es => if k.tag == Tag.value then text v else defaultText m es

end

def inMapping : String := "while constructing a mapping"

/-- the sign for a default value is a text like any other when it is a key -/
def asKey : Node → Node
  | scalar t s m => scalar (if t == Tag.value then Tag.str else t) s m
  | n => n

mutual

/-- the entries of a mapping with those of the mappings it is merged with in front -/
def merged : Node → Result (List (Node × Node))
  | map _ es m => (mergedEntries m es).map fun (others, own) => others ++ own
  | _ => .ok []

/-- the entries that are merged in, and the others -/
def mergedEntries (m : Mark) : List (Node × Node) → Result (List (Node × Node) × List (Node × Node))
  | [] => .ok ([], [])
  | (k, v) :: es =>
    if k.tag == Tag.merge then
      match v with
      | .map t fs n => do
        let here ← merged (.map t fs n)
        let (others, own) ← mergedEntries m es
        return (here ++ others, own)
      | .seq _ items _ => do
        let here ← mergedItems m items
        let (others, own) ← mergedEntries m es
        return (here ++ others, own)
      | .scalar _ _ n => fail inMapping m "expected a mapping or list of mappings for merging, but found scalar" n
    else do
      let (others, own) ← mergedEntries m es
      return (others, (k.asKey, v) :: own)

/-- the entries of several mappings, those of the last in front -/
def mergedItems (m : Mark) : List Node → Result (List (Node × Node))
  | [] => .ok []
  | .map t fs n :: items => do
    let here ← merged (.map t fs n)
    let later ← mergedItems m items
    return later ++ here
  | n :: _ => fail inMapping m ("expected a mapping for merging, but found " ++ n.form) n.mark

end

mutual

/-- levels below a node -/
def depth : Node → Nat
  | scalar .. => 0
  | seq _ items _ => depthItems items + 1
  | map _ es _ => depthEntries es + 1

def depthItems : List Node → Nat
  | [] => 0
  | n :: items => max (depth n) (depthItems items)

def depthEntries : List (Node × Node) → Nat
  | [] => 0
  | (k, v) :: es => max (max (depth k) (depth v)) (depthEntries es)

end

/-- the tags of collections -/
def collectionTags : List String := [Tag.omap, Tag.pairs, Tag.set, Tag.seq, Tag.map]

/-- a node is a collection, or its text is read; other tags stand for nothing -/
def scalarValue? (n : Node) : Result (Option Value) := do
  match Scalar.reader? n.tag n.mark with
  | some read => return some (← read (← n.text))
  | none =>
    if collectionTags.contains n.tag then return none
    failAt ("could not determine a constructor for the tag " ++ Text.quoted n.tag) n.mark

/-- the entries of a node that must be a mapping -/
def entries (n : Node) : Result (List (Node × Node)) :=
  match n with
  | map .. => n.merged
  | n => failAt ("expected a mapping node, but found " ++ n.form) n.mark

/-- the items of a node that must be a sequence -/
def items (n : Node) : Result (List Node) :=
  match n with
  | seq _ items _ => .ok items
  | n => failAt ("expected a sequence node, but found " ++ n.form) n.mark

/-- the one entry of a mapping that is an item of a list of pairs -/
def single (context : String) (whole item : Node) : Result (Node × Node) :=
  match item with
  | map _ [e] _ => .ok e
  | map _ es m =>
    fail context whole.mark ("expected a single mapping item, but found " ++ toString es.length ++ " items") m
  | n => fail context whole.mark ("expected a mapping of length 1, but found " ++ n.form) n.mark

/-- what messages say a list of pairs is -/
def pairContext (n : Node) : String :=
  if n.tag == Tag.omap then "while constructing an ordered map" else "while constructing pairs"

/-- the items of a list of pairs -/
def pairItems (n : Node) : Result (List Node) :=
  match n with
  | seq _ items _ => .ok items
  | n => fail n.pairContext n.mark ("expected a sequence, but found " ++ n.form) n.mark

/-- the collections among nodes, when every text among them can be read -/
def collections (ns : List Node) : Result (List Node) := do
  let found ← ns.mapM fun n => do return if (← n.scalarValue?).isNone then [n] else []
  return found.flatten

/-- the collections just below a collection, when all that stands there is as it should be -/
def inner (n : Node) : Result (List Node) := do
  if n.tag == Tag.seq then collections (← n.items)
  else if n.tag == Tag.map || n.tag == Tag.set then
    let found ← (← n.entries).mapM fun (k, v) => do
      if !(← collections [k]).isEmpty then fail inMapping n.mark "found unhashable key" k.mark
      collections [v]
    return found.flatten
  else
    let found ← (← n.pairItems).mapM fun item => do
      let (k, v) ← single n.pairContext n item
      collections [k, v]
    return found.flatten

/-- level after level is as it should be -/
def checkLevels : Nat → List Node → Result Unit
  | 0, _ => .ok ()
  | _, [] => .ok ()
  | fuel + 1, ns => do
    let found ← ns.mapM inner
    checkLevels fuel found.flatten

/-- the value of a node with at most `fuel` levels -/
def value : Nat → Node → Result Value
  | 0, n => do return (← n.scalarValue?).getD .null
  | fuel + 1, n => do
    match ← n.scalarValue? with
    | some v => return v
    | none =>
      if n.tag == Tag.seq then return .list (← (← n.items).mapM (value fuel))
      else if n.tag == Tag.map then
        let es ← (← n.entries).mapM fun (k, v) => do return (← value fuel k, ← value fuel v)
        return .map (es.foldl (fun es (k, v) => Value.insert k v es) [])
      else if n.tag == Tag.set then
        let ks ← (← n.entries).mapM fun (k, _) => value fuel k
        return .set (ks.foldl (fun ks k => Value.adjoin k ks) [])
      else
        let pairs ← (← n.pairItems).mapM fun item => do
          let (k, v) ← single n.pairContext n item
          return Value.pair (← value fuel k) (← value fuel v)
        return .list pairs

/-- the data that a node stands for -/
def toValue (n : Node) : Result Value := do
  let fuel := n.depth + 1
  checkLevels fuel (← collections [n])
  value fuel n

end Node

/-- the data of a text given by its characters; an empty text stands for nothing -/
def readChars (text : List Char) : Result Value := do
  match ← Node.read? text with
  | none => return .null
  | some n => n.toValue

/-- the data of a text -/
def read? (text : String) : Result Value := readChars text.toList

end KeyHold.Yaml
