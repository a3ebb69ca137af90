/-
Simulated sessions.

`simulate` runs one mode on a bench: the mode is toggled on, then the clock is advanced step by step, each followed by
a tick, until the mode ends or the time is up; then it is stopped. The report sums up the recorded holds, those below
five milliseconds (bounces) left out. Every step moves the clock by at least a microsecond, so the loop needs no more
turns than there are microseconds to simulate.
-/
import KeyHold.Session.Bench
import KeyHold.Simulation.Report

namespace KeyHold.Simulation

/-- holds below this many milliseconds are bounces -/
def bounceFilterMs : Float := 5.0

/-- the clock counts whole microseconds -/
def leastStepMs : Float := 0.001

/-- what is to be simulated -/
structure Plan where
  policy : Policy
  seconds : Float := 60.0
  stepMs : Float := 1.0
  seed : Int := 0
  config : EngineConfig := {}

def Plan.driver (p : Plan) (noise : Noise) : Driver Bench :=
  ⟨Registry.ofList [p.policy], p.config, noise, Bench.hostRig⟩

def Plan.scene (p : Plan) : Scene Bench := { session := {}, world := { entropy := ⟨[p.seed], 0⟩ } }

/-- the clock moves by one step -/
def advance (stepMs : Float) : Act Bench Unit := fun s =>
  match s.world.clock.advance stepMs with
  | .ok c => (.ok (), { s with world := { s.world with clock := c } })
  | .error e => (.error e, s)

/-- steps and ticks until the mode ends or the clock has reached `endUs`, in at most `turns` turns -/
def loop (D : Driver Bench) (stepMs : Float) (endUs : Int) : Nat → Act Bench Unit
  | 0 => return
  | turns + 1 => do
    let s ← get
    if s.session.mode.truthy ∧ s.world.clock.nowUs < endUs then
      advance stepMs
      D.tick
      loop D stepMs endUs turns

/-- the whole run -/
def session (D : Driver Bench) (p : Plan) : Act Bench Unit := do
  D.toggle p.policy.name
  let endUs ← Act.check (wholePart (p.seconds * 1000000.0))
  let startUs := (← get).world.clock.nowUs
  loop D p.stepMs endUs (endUs - startUs).toNat
  D.forceStop

def report (p : Plan) (s : Scene Bench) : Except Fault Report := do
  let stats := s.session.stats
  let recorder := s.world.recorder
  let holds ← recorder.holdDurations bounceFilterMs
  let holds ← holds.mapM fun (key, xs) => do return (key, ← HoldStats.ofValues xs)
  return {
    mode := p.policy.name
    seconds := p.seconds
    stepMs := p.stepMs
    seed := p.seed
    phases := stats.phases
    bounces := stats.bounces
    glitches := stats.glitches
    timedOut := stats.timeouts > 0
    endedClean := recorder.asserted.isEmpty
    maxSimultaneous := recorder.maxSimultaneous
    holds }

def summary (r : Report) : Entry :=
  ⟨.debug, .simulation, "Simulated " ++ r.mode.plain ++ ": " ++ toString r.phases ++ " phases, "
    ++ toString r.glitches ++ " glitches"⟩

/-- the report of a plan, and what was said on the way -/
def simulate (noise : Noise) (p : Plan) : Except Fault Report × Array Entry :=
  if p.stepMs < leastStepMs then (.error (.stepTooShort p.stepMs), #[])
  else
    let (r, s) := (session (p.driver noise) p).run p.scene
    match r >>= fun _ => report p s with
    | .ok report => (.ok report, s.world.journal.push (summary report))
    | .error e => (.error e, s.world.journal)

end KeyHold.Simulation
