/-
Statistics of hold durations.

Sums are taken pairwise: up to seven values from left to right, up to 128 in eight interleaved partial sums, more in
two halves. The deviation is the one of the population; a percentile lies between two neighbours of the sorted values.
-/
import KeyHold.Fault

namespace KeyHold

structure HoldStats where
  count : Int
  mean : Float
  std : Float
  min : Float
  p5 : Float
  p95 : Float
  max : Float
deriving Inhabited

namespace HoldStats

def plainSum (xs : List Float) : Float := xs.foldl (· + ·) 0.0

/-- eight partial sums, each advanced by one value -/
def addRow (acc row : List Float) : List Float := List.zipWith (· + ·) acc row

/-- the sums of eight columns over the rows that are full, and the values left over -/
def columns (acc : List Float) : Nat → List Float → List Float × List Float
  | 0, xs => (acc, xs)
  | rows + 1, xs => columns (addRow acc (xs.take 8)) rows (xs.drop 8)

/-- eight partial sums folded together in pairs -/
def foldEight : List Float → Float
  | [a, b, c, d, e, f, g, h] => ((a + b) + (c + d)) + ((e + f) + (g + h))
  | xs => plainSum xs

/-- `n` values in at most `depth` halvings -/
def sumBy : Nat → Nat → List Float → Float
  | 0, _, xs => plainSum xs
  | depth + 1, n, xs =>
    if n < 8 then plainSum xs
    else if n ≤ 128 then
      let (acc, rest) := columns (xs.take 8) (n / 8 - 1) (xs.drop 8)
      rest.foldl (· + ·) (foldEight acc)
    else
      let half := n / 2 - n / 2 % 8
      sumBy depth half (xs.take half) + sumBy depth (n - half) (xs.drop half)

/-- the pairwise sum -/
def sum (xs : List Float) : Float := 0.0 + sumBy xs.length xs.length xs

def average (xs : List Float) : Float := sum xs / xs.length.toFloat

/-- the root of the mean squared distance from the mean -/
def deviation (xs : List Float) : Float :=
  let m := average xs
  Float.sqrt (sum (xs.map fun x => (x - m) * (x - m)) / xs.length.toFloat)

/-- the value below which `q` percent of the sorted values lie -/
def percentile (sorted : List Float) (q : Float) : Float :=
  let last := sorted.length - 1
  let v := last.toFloat * (q / 100.0)
  let k := if v ≥ last.toFloat then last else v.toUInt64.toNat
  let a := sorted.getD k 0.0
  let b := sorted.getD (if v ≥ last.toFloat then last else k + 1) 0.0
  let t := v - k.toFloat
  let d := b - a
  if t ≥ 0.5 then b - d * (1.0 - t) else a + d * t

def anyNan (xs : List Float) : Bool := xs.any Float.isNaN

def ofValues (xs : List Float) : Except Fault HoldStats :=
  match xs with
  | [] => .error .noValues
  | first :: rest =>
    let sorted := xs.mergeSort fun a b => decide (a ≤ b)
    let unlessNan (x : Float) : Float := if anyNan xs then Decimal.nan else x
    .ok
      { count := xs.length
        mean := average xs
        std := deviation xs
        min := unlessNan (rest.foldl (fun m x => if m < x then m else x) first)
        p5 := unlessNan (percentile sorted 5.0)
        p95 := unlessNan (percentile sorted 95.0)
        max := unlessNan (rest.foldl (fun m x => if m > x then m else x) first) }

end HoldStats
end KeyHold
