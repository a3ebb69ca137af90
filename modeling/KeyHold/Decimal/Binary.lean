/-
Binary floating point, read exactly.

A double is a sign with m * 2^q, an infinity, or not a number. Everything that prints a double or takes its whole
part goes through this decoding, in integers; the arithmetic itself stays `Float`'s.

- `truncate`: the whole part, toward zero.
- `roundEven`: the nearest whole number, a half going to the even neighbour.
- `divEven`: the same for a quotient of naturals.
- `ofInt?`, `ofIntScaled?`: the nearest double to n and to n / 10^k, none when it lies beyond the finite range.
-/
namespace KeyHold.Decimal

/-- what a double stands for; the finite case is `m * 2^q` with its sign -/
inductive Parts where
  | nan
  | infinite (neg : Bool)
  | finite (neg : Bool) (m : Nat) (q : Int)
deriving DecidableEq, Repr, Inhabited

/-- a power of two -/
def two (k : Nat) : Nat := Nat.pow 2 k

/-- a power of ten -/
def ten (k : Nat) : Nat := Nat.pow 10 k

/-- why a double has no whole part -/
inductive NotWhole where
  | nan
  | infinite
deriving DecidableEq, Repr

/-- the decoding of the 64 bits: sign, 11 bits of exponent, 52 of fraction -/
def partsOfBits (b : Nat) : Parts :=
  let neg := b / two 63 % 2 == 1
  let e : Nat := b / two 52 % two 11
  let f : Nat := b % two 52
  if e = 2047 then
    if f = 0 then .infinite neg else .nan
  else if e = 0 then .finite neg f (-1074)
  else .finite neg (f + two 52) ((e : Int) - 1075)

def parts (x : Float) : Parts := partsOfBits x.toBits.toNat

/-- neither infinite nor not a number -/
def Finite (x : Float) : Prop := ∃ neg m q, parts x = .finite neg m q

def isFinite (x : Float) : Bool :=
  match parts x with
  | .finite .. => true
  | _ => false

theorem isFinite_iff (x : Float) : isFinite x = true ↔ Finite x := by
  unfold isFinite Finite
  cases parts x <;> simp

instance (x : Float) : Decidable (Finite x) := decidable_of_iff _ (isFinite_iff x)

/-- the nearest natural to `num / den`, a half going to the even neighbour -/
def divEven (num den : Nat) : Nat :=
  let q := num / den
  let r := num % den
  if 2 * r < den then q
  else if den < 2 * r then q + 1
  else if q % 2 = 0 then q else q + 1

/-- `m * 2^q` as a quotient of naturals -/
def ratio (m : Nat) (q : Int) : Nat × Nat :=
  if 0 ≤ q then (m * two q.toNat, 1) else (m, two (-q).toNat)

def signed (neg : Bool) (n : Nat) : Int := if neg then -(n : Int) else n

/-- the whole part of a double, toward zero -/
def truncate (x : Float) : Except NotWhole Int :=
  match parts x with
  | .nan => .error .nan
  | .infinite _ => .error .infinite
  | .finite neg m q => let (n, d) := ratio m q; .ok (signed neg (n / d))

/-- the whole number nearest to a double, a half going to the even one -/
def roundEven (x : Float) : Except NotWhole Int :=
  match parts x with
  | .nan => .error .nan
  | .infinite _ => .error .infinite
  | .finite neg m q => let (n, d) := ratio m q; .ok (signed neg (divEven n d))

/-- a double has a whole part exactly when it is finite -/
theorem truncate_isOk_iff (x : Float) : (∃ n, truncate x = .ok n) ↔ Finite x := by
  unfold truncate Finite
  cases parts x <;> simp

theorem roundEven_isOk_iff (x : Float) : (∃ n, roundEven x = .ok n) ↔ Finite x := by
  unfold roundEven Finite
  cases parts x <;> simp

/-- the nearest double to `n / 10^k`, if it is finite -/
def ofIntScaled? (n : Int) (k : Nat) : Option Float :=
  let x := Float.ofScientific n.natAbs true k
  let x := if n < 0 then -x else x
  if isFinite x then some x else none

/-- the nearest double to `n`, if it is finite -/
def ofInt? (n : Int) : Option Float := ofIntScaled? n 0

def nan : Float := 0.0 / 0.0

def infinity : Float := 1.0 / 0.0

end KeyHold.Decimal
