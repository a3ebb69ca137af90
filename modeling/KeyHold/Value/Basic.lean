/-
Data as a settings file holds it.

A `Value` is what one node of a settings file stands for: nothing, a truth value, a number, a text, bytes, a date or
a moment, a list, a pair, a set, or a mapping whose keys may be any of these and keep their order. Texts quote values,
so each has a written form (in `Value.Text`), a name for its kind, and a truth value: empty and zero count as false.

- `same`: equality of values; numbers are compared across kinds, so `1`, `1.0` and true are one key.
- `insert`, `find?`: a mapping as an ordered list of entries. A key that is there keeps its place and its first form.
-/
import KeyHold.Decimal.Binary

namespace KeyHold

/-- a day of the calendar -/
structure Date where
  year : Nat
  month : Nat
  day : Nat
deriving DecidableEq, Repr, Inhabited

/-- a date and a time of day; `offset` is the distance from universal time in seconds, if it is known -/
structure Moment where
  date : Date
  hour : Nat
  minute : Nat
  second : Nat
  micro : Nat
  offset : Option Int
deriving DecidableEq, Repr, Inhabited

/-- days since the first of March of the year 0 -/
def Date.dayNumber (d : Date) : Int :=
  let y : Int := if d.month ≤ 2 then d.year - 1 else d.year
  let m : Int := if d.month ≤ 2 then d.month + 9 else d.month - 3
  365 * y + y / 4 - y / 100 + y / 400 + (153 * m + 2) / 5 + d.day - 1

/-- microseconds since the first of March of the year 0, at the clock's own offset -/
def Moment.instant (t : Moment) : Int :=
  let s := Date.dayNumber t.date * 86400 + t.hour * 3600 + t.minute * 60 + t.second - t.offset.getD 0
  s * 1000000 + t.micro

/-- two moments are the same instant; one without an offset is never one with -/
def Moment.same (s t : Moment) : Bool :=
  s.offset.isSome == t.offset.isSome && Moment.instant s == Moment.instant t

inductive Value where
  | null
  | bool (b : Bool)
  | int (n : Int)
  | float (x : Float)
  | str (s : String)
  | bytes (bs : List UInt8)
  | date (d : Date)
  | moment (t : Moment)
  | list (items : List Value)
  | pair (fst snd : Value)
  | set (items : List Value)
  | map (entries : List (Value × Value))
deriving Inhabited

namespace Value

/-- the short name of the kind of a value -/
def kind : Value → String
  | null => "NoneType"
  | bool _ => "bool"
  | int _ => "int"
  | float _ => "float"
  | str _ => "str"
  | bytes _ => "bytes"
  | date _ => "date"
  | moment _ => "datetime"
  | list _ => "list"
  | pair .. => "tuple"
  | set _ => "set"
  | map _ => "dict"

/-- the name of the kind that messages about a failed operation use -/
def longKind (v : Value) : String :=
  match v with
  | date _ | moment _ => "datetime." ++ v.kind
  | _ => v.kind

/-- empty values and zeros count as false -/
def truthy : Value → Bool
  | null => false
  | bool b => b
  | int n => n != 0
  | float x => !(x == 0.0)
  | str s => s != ""
  | bytes bs => !bs.isEmpty
  | date _ | moment _ | pair .. => true
  | list xs | set xs => !xs.isEmpty
  | map es => !es.isEmpty

/-- only values that cannot change may be keys -/
def hashable : Value → Bool
  | list _ | set _ | map _ => false
  | pair a b => a.hashable && b.hashable
  | _ => true

/-- a number as an exact quotient `n / 2^k`; infinities and "not a number" have none -/
def quotient? : Value → Option (Int × Nat)
  | bool b => some (if b then 1 else 0, 0)
  | int n => some (n, 0)
  | float x =>
    match Decimal.parts x with
    | .finite neg m q => some (Decimal.signed neg (m * Decimal.two q.toNat), (-q).toNat)
    | _ => none
  | _ => none

mutual

/-- equality of values -/
def same : Value → Value → Bool
  | null, null => true
  | str a, str b => a == b
  | bytes a, bytes b => a == b
  | date a, date b => a == b
  | moment a, moment b => Moment.same a b
  | list a, list b => sameAll a b
  | pair a b, pair c d => same a c && same b d
  | set a, set b => a.length == b.length && sameIn a b
  | map a, map b => a.length == b.length && sameEntries a b
  | float x, float y => x == y
  | a, b =>
    match a.quotient?, b.quotient? with
    | some (n, j), some (m, k) => n * Decimal.two k == m * Decimal.two j
    | _, _ => false

/-- item by item -/
def sameAll : List Value → List Value → Bool
  | [], [] => true
  | a :: as, b :: bs => same a b && sameAll as bs
  | _, _ => false

/-- each of the first is in the second -/
def sameIn : List Value → List Value → Bool
  | [], _ => true
  | a :: as, bs => bs.any (same a) && sameIn as bs

/-- each entry of the first is in the second -/
def sameEntries : List (Value × Value) → List (Value × Value) → Bool
  | [], _ => true
  | (k, v) :: es, fs => fs.any (fun f => same k f.1 && same v f.2) && sameEntries es fs

end

/-- the entry of a key; keys are compared, so one that is not the same as itself has none -/
def find? (key : Value) (entries : List (Value × Value)) : Option Value :=
  (entries.find? fun e => same e.1 key).map (·.2)

/-- the value of a text key in a mapping -/
def get? (v : Value) (key : String) : Option Value :=
  match v with
  | map entries => find? (str key) entries
  | _ => none

/-- sets the value of a key, in place if the key is there, else at the end; keys are compared -/
def insert (key value : Value) : List (Value × Value) → List (Value × Value)
  | [] => [(key, value)]
  | e :: es => if same e.1 key then (e.1, value) :: es else e :: insert key value es

/-- adds an item to a set, if none is the same -/
def adjoin (item : Value) (items : List Value) : List Value :=
  if items.any (same · item) then items else items ++ [item]

end Value
end KeyHold
