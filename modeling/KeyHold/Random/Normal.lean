/-
Normally distributed draws.

The Box-Muller transform makes one normal value of two uniform ones. A first draw of at most 1e-7, which the logarithm
could not bear, is drawn again. The transform takes its uniform draws from any source: the generator, or a script.

- `boxMuller`: one normal value.
- `atLeast`: clamped from below; the bound unless the sample is greater.
- `waitOf`: rounded to a whole number of microseconds and clamped to a range.
-/
import KeyHold.Fault
import KeyHold.Random.Generator

namespace KeyHold.Normal

/-- draws at or below this are drawn again -/
def tooSmall : Float := 1e-7

def twoPi : Float := 6.283185307179586

/-- a source of uniform draws over states `σ` -/
abbrev Draws (σ : Type) := σ → Except Fault Float × σ

/-- the first draw that is not too small, within `tries` -/
def firstUsable {σ : Type} (draw : Draws σ) : Nat → σ → Except Fault Float × σ
  | 0, s => draw s
  | tries + 1, s =>
    match draw s with
    | (.error e, s) => (.error e, s)
    | (.ok u, s) => if u ≤ tooSmall then firstUsable draw tries s else (.ok u, s)

/-- the standard normal value of two uniform ones -/
def transform (u v : Float) : Float := Float.sqrt (-2.0 * Float.log u) * Float.cos (twoPi * v)

/-- one normal value of mean `mean` and deviation `stddev` -/
def boxMuller {σ : Type} (draw : Draws σ) (tries : Nat) (mean stddev : Float) (s : σ) : Except Fault Float × σ :=
  match firstUsable draw tries s with
  | (.error e, s) => (.error e, s)
  | (.ok u, s) =>
    match draw s with
    | (.error e, s) => (.error e, s)
    | (.ok v, s) => (.ok (mean + transform u v * stddev), s)

/-- the bound, unless the sample is greater -/
def atLeast (bound x : Float) : Float := if x > bound then x else bound

/-- a number of microseconds between 0 and `most` -/
def clampWait (most n : Int) : Int := if n < 0 then 0 else if n > most then most else n

/-- the whole number of microseconds nearest to a sample, clamped -/
def waitOf (most : Int) (x : Float) : Except Fault Int := (nearestWhole x).map (clampWait most)

/-- uniform draws of the generator -/
def uniform : Draws Generator := fun g => (.ok g.unit.1, g.unit.2)

/-- uniform draws of a script -/
def scripted : Draws (List Float)
  | [] => (.error .drawsExhausted, [])
  | u :: rest => (.ok u, rest)

/-- no state of the generator comes back sooner than after all the others -/
def stateCount : Nat := Nat.pow 2 128

end KeyHold.Normal

namespace KeyHold

/-- where a session's normal values come from: a function of the generator's state -/
structure Noise where
  normal : Float → Float → Generator → Float × Generator

/-- the Box-Muller transform on the generator -/
def Noise.boxMuller : Noise where
  normal mean stddev g :=
    match Normal.boxMuller Normal.uniform Normal.stateCount mean stddev g with
    | (.ok x, g) => (x, g)
    | (.error _, g) => (Decimal.nan, g)

end KeyHold
