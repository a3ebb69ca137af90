/-
How doubles are written.

`Style` says where positional notation ends and what is kept; `general` lays a numeral out in a style. The three
notations of this library: `text` (the fewest digits that read back, positional from 10^-4 up to 10^16), `compact`
(a number of significant digits, without trailing zeros) and `fixed` (a number of places).
-/
import KeyHold.Decimal.Shortest

namespace KeyHold.Decimal

/-- where positional notation is used and whether a whole number keeps its `.0` -/
structure Style where
  least : Int
  most : Int
  keepPoint : Bool
deriving DecidableEq, Repr

/-- the fewest digits: positional from 10^-4 to below 10^16, whole numbers end in `.0` -/
def textStyle : Style := ⟨-4, 15, true⟩

/-- `p` significant digits: positional from 10^-4 to below 10^p, no trailing zeros -/
def compactStyle (p : Nat) : Style := ⟨-4, (p : Int) - 1, false⟩

/-- at least two digits, with a sign -/
def exponentText (e : Int) : String :=
  let ds := toString e.natAbs
  (if e < 0 then "e-" else "e+") ++ (if ds.length < 2 then "0" ++ ds else ds)

def Style.lay (s : Style) (n : Numeral) : String :=
  let e := n.exponent
  let ds := n.digits
  if e < s.least ∨ s.most < e then
    match ds with
    | [] => ""
    | [d] => d.toString ++ exponentText e
    | d :: rest => d.toString ++ "." ++ String.ofList rest ++ exponentText e
  else if e < 0 then
    "0." ++ String.ofList (List.replicate (-e - 1).toNat '0' ++ ds)
  else
    let whole := ds.take (e.toNat + 1)
    let whole := whole ++ List.replicate (e.toNat + 1 - whole.length) '0'
    match ds.drop (e.toNat + 1) with
    | [] => String.ofList whole ++ (if s.keepPoint then ".0" else "")
    | rest => String.ofList whole ++ "." ++ String.ofList rest

def signText (neg : Bool) : String := if neg then "-" else ""

/-- the fewest digits that read back, such as `0.1`, `900.0`, `1e+16` -/
def text (x : Float) : String :=
  match parts x with
  | .nan => "nan"
  | .infinite neg => signText neg ++ "inf"
  | .finite neg m q =>
    signText neg ++ (if m = 0 then "0.0" else textStyle.lay (shortest m q))

/-- `p` significant digits at most, such as `60`, `0.001`, `1e+06` -/
def compact (p : Nat) (x : Float) : String :=
  match parts x with
  | .nan => "nan"
  | .infinite neg => signText neg ++ "inf"
  | .finite neg m q =>
    if m = 0 then signText neg ++ "0"
    else
      let n := significant p m q
      signText neg ++ (compactStyle p).lay { n with digits := dropTrailingZeros n.digits }

/-- `n` places, such as `900.0` for one -/
def fixed (n : Nat) (x : Float) : String :=
  match parts x with
  | .nan => "nan"
  | .infinite neg => signText neg ++ "inf"
  | .finite neg m q =>
    let ds := Nat.toDigits 10 (fixedPlaces n m q)
    let ds := List.replicate (n + 1 - ds.length) '0' ++ ds
    let whole := String.ofList (ds.take (ds.length - n))
    signText neg ++ (if n = 0 then whole else whole ++ "." ++ String.ofList (ds.drop (ds.length - n)))

end KeyHold.Decimal
