/-
The random generator.

Two 64-bit words make the state. A step shifts and adds them; the state is never both words zero, since a step leads
there only from there, and `heal` replaces it by a fixed pair where a state is built or mixed. `seedMix` folds 32 bits
of entropy into the state.

- `next`: one step and its 64-bit output; every draw of a session comes from it.
- `unit`: a double in [0, 1), a multiple of 2^-24.
- `range`, `oneIn`, `choice`: a whole number in a range, an event of a given rarity, an index. Degenerate requests
  draw nothing.
-/
namespace KeyHold

structure Generator where
  s0 : UInt64
  s1 : UInt64
deriving DecidableEq, Repr, Inhabited

namespace Generator

/-- the state a generator has unless told otherwise -/
def default : Generator := ⟨0x243F6A8885A308D3, 0x13198A2E03707344⟩

/-- the state that stands in for the zero state -/
def fallback : Generator := ⟨0x0123456789ABCDEF, 0xFEDCBA9876543210⟩

def isZero (g : Generator) : Bool := g.s0 == 0 && g.s1 == 0

/-- the zero state is replaced; the flag tells whether it was -/
def heal (g : Generator) : Generator × Bool := if g.isZero then (fallback, true) else (g, false)

/-- the generator of any two integers, of which the low 64 bits count -/
def ofInts (a b : Int) : Generator × Bool := heal ⟨UInt64.ofInt a, UInt64.ofInt b⟩

/-- the state after one step -/
def step (g : Generator) : Generator :=
  let x := g.s0 ^^^ (g.s0 <<< 23)
  ⟨g.s1, x ^^^ g.s1 ^^^ (x >>> 17) ^^^ (g.s1 >>> 26)⟩

/-- what a step gives out: the sum of the two newest words -/
def output (g : Generator) : UInt64 := g.step.s1 + g.s1

def next (g : Generator) : UInt64 × Generator := (g.output, g.step)

/-- the word that entropy is folded into the state as -/
def mixWord (entropy : Int) : UInt64 :=
  let s := UInt64.ofNat (entropy % 4294967296).toNat
  (s <<< 32) ||| (s ^^^ 0xA5A5A5A5)

/-- folds the low 32 bits of an entropy value into the state; the flag tells whether it had to be healed -/
def seedMix (entropy : Int) (g : Generator) : Generator × Bool :=
  let mix := mixWord entropy
  let g := step ⟨g.s0 ^^^ mix, g.s1⟩
  heal ⟨g.s0, g.s1 ^^^ (mix >>> 17)⟩

/-- a multiple of 2^-24 in [0, 1): the high 24 bits of an output -/
def unitOf (w : UInt64) : Float := (w >>> 40).toFloat / 16777216.0

def unit (g : Generator) : Float × Generator := (unitOf g.output, g.step)

/-- a whole number from `low` to `high`; a range of one or none gives `low` and draws nothing -/
def range (low high : Int) (g : Generator) : Int × Generator :=
  if high ≤ low then (low, g) else (low + (g.output.toNat : Int) % (high - low + 1), g.step)

/-- an event of probability 1 / n; none if n is not positive, without a draw -/
def oneIn (n : Int) (g : Generator) : Bool × Generator :=
  if n ≤ 0 then (false, g) else ((g.output.toNat : Int) % n == 0, g.step)

/-- an index below `count`; of one or none it is 0, without a draw -/
def choice (count : Int) (g : Generator) : Int × Generator :=
  if count ≤ 1 then (0, g) else ((g.output.toNat : Int) % count, g.step)

/-- `n` steps and the last output -/
def skip (n : Nat) (g : Generator) : Option UInt64 × Generator :=
  match n with
  | 0 => (none, g)
  | 1 => (some g.output, g.step)
  | n + 1 => skip n g.step

end Generator

/-- the warning that goes with a healed state -/
def healedText : String := "PRNG state collapsed to zero, installing fallback"

end KeyHold
