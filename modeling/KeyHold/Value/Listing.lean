/-
Listing the keys that nobody knows.

`listed` sorts keys and joins them with commas. Only texts can be joined, and only values of one sort can be put in
order: any other collection of keys has no listing, and the fault says which kinds stood in the way.
-/
import KeyHold.Fault

namespace KeyHold.Value

/-- whether one value comes before another; none if they cannot be compared -/
def before? : Value → Value → Option Bool
  | str a, str b => some (a < b)
  | bytes a, bytes b => some (a.map UInt8.toNat < b.map UInt8.toNat)
  | date a, date b => some (a.dayNumber < b.dayNumber)
  | moment a, moment b => if a.offset.isSome = b.offset.isSome then some (a.instant < b.instant) else none
  | a, b =>
    match a.quotient?, b.quotient? with
    | some (n, j), some (m, k) => some (n * Decimal.two k < m * Decimal.two j)
    | _, _ =>
      match a, b with
      | float x, float y => some (x < y)
      | float x, _ => if b.quotient?.isSome then some (x < 0.0) else none
      | _, float y => if a.quotient?.isSome then some (0.0 < y) else none
      | _, _ => none

/-- the fault of comparing two values that have no order -/
def incomparable (a b : Value) : Fault :=
  .wrongKind ("'<' not supported between instances of '" ++ a.longKind ++ "' and '" ++ b.longKind ++ "'")

def insertSorted (v : Value) : List Value → Except Fault (List Value)
  | [] => .ok [v]
  | w :: ws =>
    match v.before? w with
    | none => .error (incomparable v w)
    | some true => .ok (v :: w :: ws)
    | some false => (insertSorted v ws).map (w :: ·)

/-- the values in order, equal ones as they came -/
def sorted (vs : List Value) : Except Fault (List Value) := vs.foldlM (fun ws v => insertSorted v ws) []

/-- the texts joined with commas; the first item that is no text has no place in a listing -/
def joinTexts (vs : List Value) : Except Fault String :=
  let rec check (i : Nat) : List Value → Except Fault (List String)
    | [] => .ok []
    | str s :: rest => (check (i + 1) rest).map (s :: ·)
    | v :: _ => .error (.wrongKind ("sequence item " ++ toString i ++ ": expected str instance, " ++ v.longKind
        ++ " found"))
  (check 0 vs).map (Text.joined ", ")

def listed (vs : List Value) : Except Fault String := sorted vs >>= joinTexts

end KeyHold.Value
