/-
Time.

Stamps are milliseconds folded to 32 bits, and the only way to compare two of them is their difference modulo 2^32,
which is right as long as less than 2^32 ms lie between them. `VirtualClock` moves only when told to, in microseconds,
and keeps the waits asked of it. `Counter` is a performance counter whose readings grow; a wait spins on it.
-/
import KeyHold.Fault

namespace KeyHold

/-- the milliseconds from `earlier` to `now`, modulo 2^32 -/
def elapsed (now earlier : Int) : Int := (now - earlier) % 4294967296

/-- a clock that stands still unless it is moved -/
structure VirtualClock where
  nowUs : Int
  /-- the waits asked for, in order -/
  waits : Array Int := #[]
deriving Repr, Inhabited

namespace VirtualClock

def startingAt (ms : Int) : VirtualClock := { nowUs := ms * 1000 }

/-- the stamp of the present -/
def stamp (c : VirtualClock) : Int := c.nowUs / 1000 % 4294967296

/-- jumps to a time, never back -/
def jumpTo (ms : Int) (c : VirtualClock) : VirtualClock :=
  if ms * 1000 > c.nowUs then { c with nowUs := ms * 1000 } else c

/-- moves by a number of milliseconds, of which the whole microseconds count -/
def advance (ms : Float) (c : VirtualClock) : Except Fault VirtualClock :=
  (wholePart (ms * 1000.0)).map fun us => { c with nowUs := c.nowUs + us }

/-- waits, which takes the time asked for -/
def wait (us : Int) (c : VirtualClock) : VirtualClock :=
  { nowUs := if us > 0 then c.nowUs + us else c.nowUs, waits := c.waits.push us }

end VirtualClock

/-- the stamp of a host clock that started at `origin` nanoseconds -/
def hostStamp (origin ns : Int) : Int := (ns - origin) / 1000000 % 4294967296

/-- a performance counter in nanoseconds: each reading adds `tick` first -/
structure Counter where
  value : Int
  tick : Nat
  tick_pos : 0 < tick
deriving Repr

namespace Counter

/-- the counter after one reading; what it then shows is the reading -/
def read (c : Counter) : Counter := { c with value := c.value + c.tick }

/-- reads until a reading is not below `deadline`; the number of readings, and the counter after them -/
def spin (deadline : Int) (c : Counter) : Nat × Counter :=
  if c.value + c.tick < deadline then
    let (n, last) := spin deadline c.read
    (n + 1, last)
  else (1, c.read)
termination_by (deadline - c.value).toNat
decreasing_by
  have := c.tick_pos
  simp only [read]
  omega

/-- waits `us` microseconds by spinning; the number of readings made -/
def wait (us : Int) (c : Counter) : Nat × Counter :=
  if us ≤ 0 then (0, c)
  else
    let first := c.read
    let (n, last) := spin (first.value + us * 1000) first
    (n + 1, last)

end Counter
end KeyHold
