/-
The fewest decimal digits that read back.

Every real number closer to a double than to its neighbours reads as that double: these reals form an interval
around m * 2^q, with its ends when m is even. `shortest` looks at the grids of 1, 2, ... 17 digits in turn and takes
the first that has a point in the interval; of two points it takes the nearer, and the even one of an exact tie.
`significant` and `fixedPlaces` round the exact value to a given number of digits or places, a half going to even.
-/
import KeyHold.Decimal.Binary

namespace KeyHold.Decimal

/-- the reals that read as one double, over a common denominator: `lo / den` to `hi / den` around `mid / den` -/
structure Span where
  lo : Nat
  mid : Nat
  hi : Nat
  den : Nat
  /-- the ends belong to it -/
  closed : Bool
deriving DecidableEq, Repr

/-- the interval around `m * 2^q`; below a power of two the neighbour is half as far -/
def Span.around (m : Nat) (q : Int) : Span :=
  let (up, den) := ratio 1 (q - 2)
  let below := if m = two 52 ∧ -1074 < q then 1 else 2
  { lo := (4 * m - below) * up, mid := 4 * m * up, hi := (4 * m + 2) * up, den, closed := m % 2 == 0 }

/-- whether `n * 10^k` lies in the interval -/
def Span.has (s : Span) (n : Nat) (k : Int) : Bool :=
  let x := n * ten k.toNat * s.den
  let lo := s.lo * ten (-k).toNat
  let hi := s.hi * ten (-k).toNat
  (lo < x && x < hi) || (s.closed && (x == lo || x == hi))

/-- the point of the grid `n * 10^k` that lies in the interval and nearest to its middle -/
def Span.onGrid? (s : Span) (k : Int) : Option Nat :=
  let step := s.den * ten k.toNat
  let mid := s.mid * ten (-k).toNat
  let n := mid / step
  match s.has n k, s.has (n + 1) k with
  | true, true => some (divEven mid step)
  | true, false => some n
  | false, true => some (n + 1)
  | false, false => none

/-- the exponent of the first digit of `num / den`: the `e` with `10^e ≤ num / den < 10^(e+1)` -/
def leadingExponent (num den : Nat) : Int :=
  let guess := (((num.log2 : Int) - den.log2) * 30103) / 100000
  let reaches (e : Int) : Bool := den * ten e.toNat ≤ num * ten (-e).toNat
  if reaches (guess + 1) then guess + 1
  else if reaches guess then guess
  else guess - 1

/-- a decimal numeral: `digits` are the decimal digits, the first of them at `10^exponent` -/
structure Numeral where
  digits : List Char
  exponent : Int
deriving DecidableEq, Repr

def dropTrailingZeros (ds : List Char) : List Char :=
  match (ds.reverse.dropWhile (· == '0')).reverse with
  | [] => ['0']
  | ds => ds

/-- the numeral of `n * 10^k`, without trailing zeros -/
def Numeral.ofScaled (n : Nat) (k : Int) : Numeral :=
  let ds := Nat.toDigits 10 n
  { digits := dropTrailingZeros ds, exponent := k + ds.length - 1 }

/-- the fewest digits that read back as `m * 2^q`, for `m` not zero -/
def shortest (m : Nat) (q : Int) : Numeral :=
  let s := Span.around m q
  let e := leadingExponent s.mid s.den
  let found := (List.range 17).findSome? fun (i : Nat) =>
    let k := e - (i : Int)
    (s.onGrid? k).map (Numeral.ofScaled · k)
  found.getD ⟨['0'], 0⟩

/-- the nearest numeral of `p` digits, trailing zeros kept, for `m` not zero -/
def significant (p : Nat) (m : Nat) (q : Int) : Numeral :=
  let (num, den) := ratio m q
  let e := leadingExponent num den
  let shift := (p : Int) - 1 - e
  let n := divEven (num * ten shift.toNat) (den * ten (-shift).toNat)
  let ds := Nat.toDigits 10 n
  { digits := ds.take p, exponent := e + ds.length - p }

/-- the nearest whole number of units of `10^-n` -/
def fixedPlaces (n : Nat) (m : Nat) (q : Int) : Nat :=
  let (num, den) := ratio m q
  divEven (num * ten n) den

end KeyHold.Decimal
