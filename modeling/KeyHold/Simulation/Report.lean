/-
The report of a simulated session.

`text` is the table a person reads, `toJson` the same for a program. The rows of the table are in the order of the
keys' code points.
-/
import KeyHold.Json.Basic
import KeyHold.Simulation.HoldStats
import KeyHold.Value.Text

namespace KeyHold

structure Report where
  mode : Value
  seconds : Float
  stepMs : Float
  seed : Int
  phases : Int := 0
  bounces : Int := 0
  glitches : Int := 0
  timedOut : Bool := false
  endedClean : Bool := true
  maxSimultaneous : Int := 0
  holds : List (String × HoldStats) := []

namespace Report

open Text (padLeft padRight)

/-- one row of the table: the key and seven columns -/
def row (key count mean std min p5 p95 max : String) : String :=
  padRight 10 key ++ padLeft 7 count ++ padLeft 10 mean ++ padLeft 9 std ++ padLeft 9 min ++ padLeft 9 p5
    ++ padLeft 9 p95 ++ padLeft 9 max

def holdRow (key : String) (s : HoldStats) : String :=
  let f := Decimal.fixed 1
  row key (toString s.count) (f s.mean) (f s.std) (f s.min) (f s.p5) (f s.p95) (f s.max)

def lines (r : Report) : List String :=
  [ "Mode: " ++ r.mode.plain ++ "  (" ++ Decimal.compact 6 r.seconds ++ "s simulated, " ++ Decimal.compact 6 r.stepMs
      ++ "ms scan, seed " ++ toString r.seed ++ ")",
    "Phases: " ++ toString r.phases ++ "  Bounces: " ++ toString r.bounces ++ "  Glitches: " ++ toString r.glitches,
    "Timed out: " ++ (if r.timedOut then "yes" else "no") ++ "  Ended clean: "
      ++ (if r.endedClean then "yes" else "NO") ++ "  Max keys held: " ++ toString r.maxSimultaneous,
    "",
    row "key" "count" "mean" "std" "min" "p5" "p95" "max" ]
  ++ (r.holds.mergeSort fun a b => decide (a.1 ≤ b.1)).map fun (key, s) => holdRow key s

def text (r : Report) : String := Text.joined "\n" r.lines

def statsJson (s : HoldStats) : Json := .obj [
  ("count", .int s.count), ("mean", .float s.mean), ("std", .float s.std), ("min", .float s.min),
  ("p5", .float s.p5), ("p95", .float s.p95), ("max", .float s.max)]

/-- the name of a mode, which is a text wherever a report can be asked for by name -/
def modeJson : Value → Json
  | .int n => .int n
  | .float x => .float x
  | .bool b => .bool b
  | .null => .null
  | v => .str v.plain

def toJson (r : Report) : Json := .obj [
  ("mode", modeJson r.mode), ("seconds", .float r.seconds), ("step_ms", .float r.stepMs), ("seed", .int r.seed),
  ("phases", .int r.phases), ("bounces", .int r.bounces), ("glitches", .int r.glitches),
  ("timed_out", .bool r.timedOut), ("ended_clean", .bool r.endedClean),
  ("max_simultaneous", .int r.maxSimultaneous),
  ("holds", .obj (r.holds.map fun (key, s) => (key, statsJson s)))]

end Report
end KeyHold
