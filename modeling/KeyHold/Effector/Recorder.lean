/-
The recording effector.

It keeps every key call with its time, the set of keys that are down, and the most that ever were down at once.
`holdDurations` pairs each release with the latest press before it that no release has used.
-/
import KeyHold.Fault

namespace KeyHold

inductive Direction where
  | down
  | up
deriving DecidableEq, Repr, Inhabited

def Direction.name : Direction → String
  | down => "down"
  | up => "up"

/-- one recorded call -/
structure KeyAction where
  timeUs : Int
  direction : Direction
  key : String
deriving DecidableEq, Repr, Inhabited

structure Recorder where
  history : Array KeyAction := #[]
  /-- the keys that are down, each once -/
  asserted : List String := []
  maxSimultaneous : Nat := 0
deriving Repr, Inhabited

namespace Recorder

def keyDown (timeUs : Int) (key : String) (r : Recorder) : Recorder :=
  let asserted := if r.asserted.contains key then r.asserted else r.asserted ++ [key]
  { history := r.history.push ⟨timeUs, .down, key⟩
    asserted
    maxSimultaneous := max r.maxSimultaneous asserted.length }

def keyUp (timeUs : Int) (key : String) (r : Recorder) : Recorder :=
  { r with history := r.history.push ⟨timeUs, .up, key⟩, asserted := r.asserted.erase key }

def clear (_ : Recorder) : Recorder := {}

/-- presses that wait for their release, with their times -/
abbrev Pending := List (String × Int)

/-- the holds of each key, in the order of their first ends -/
abbrev Holds := List (String × List Float)

/-- adds a duration to those of its key -/
def addHold (key : String) (x : Float) : Holds → Holds
  | [] => [(key, [x])]
  | (k, xs) :: rest => if k = key then (k, xs ++ [x]) :: rest else (k, xs) :: addHold key x rest

/-- the time between two stamps in microseconds, in milliseconds -/
def duration (downUs upUs : Int) : Except Fault Float := (toDouble (upUs - downUs)).map (· / 1000.0)

/-- one action of the history: a press waits, a release ends the hold of a waiting press -/
def pair (minMs : Float) (s : Pending × Holds) (a : KeyAction) : Except Fault (Pending × Holds) :=
  let (pending, holds) := s
  match a.direction with
  | .down => .ok ((a.key, a.timeUs) :: pending.filter (·.1 != a.key), holds)
  | .up =>
    match pending.find? (·.1 == a.key) with
    | none => .ok (pending, holds)
    | some (_, downUs) => do
      let x ← duration downUs a.timeUs
      return (pending.filter (·.1 != a.key), if x ≥ minMs then addHold a.key x holds else holds)

/-- the durations from press to release of each key in milliseconds, those below `minMs` left out -/
def holdDurations (minMs : Float) (r : Recorder) : Except Fault Holds :=
  (r.history.toList.foldlM (pair minMs) ([], [])).map (·.2)

end Recorder
end KeyHold
