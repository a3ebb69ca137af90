/-
The macro session.

A session alternates the phases of one policy. Each phase presses its key after a travel delay and holds it for a
sampled time; a release may be followed by a bounce (a short second press), and a hold may be split by a glitch: the
key is let go for a gap and one of the policy's keys is pressed for what remained. A session that outlives the safety
timeout is stopped. Stop, switch and timeout all release through `releaseAll`, which leaves the session idle even when
the effector fails.

The session acts on an outside world of states `ω` through a `Rig`. An operation is an `Act`: it keeps what it has
done to session and world when it faults. Time enters only as stamps, compared by `elapsed`.

- `start`, `stop`, `tick`: the three operations; a tick makes one transition at most.
- `run`: a sequence of operations from a fresh session, each keeping what a fault left.
- `Call.outcome`: how a call ends if the names of modes that its entries show may be too long to be written.
-/
import KeyHold.Clock
import KeyHold.Journal
import KeyHold.Policy.Basic
import KeyHold.Random.Normal
import KeyHold.Session.Config

namespace KeyHold

/-! ## State -/

/-- a hold split in two: the gap still to wait and the hold left after it, in milliseconds -/
structure Glitch where
  gap : Float
  remaining : Float

/-- what has happened since the process started -/
structure Stats where
  sessions : Nat := 0
  timeouts : Nat := 0
  phases : Nat := 0
  bounces : Nat := 0
  glitches : Nat := 0
deriving DecidableEq, Repr, Inhabited

structure Session where
  /-- the running policy; none when idle -/
  policy : Option Policy := none
  phaseIndex : Nat := 0
  /-- the keys held, the oldest first -/
  held : List String := []
  /-- the stamp of the session's start -/
  startedAt : Int := 0
  /-- the stamp of the current hold's or gap's start -/
  phaseAt : Int := 0
  /-- how long the current hold lasts, in milliseconds -/
  target : Float := 0.0
  /-- the current hold will be split -/
  armed : Bool := false
  /-- the gap being waited out -/
  glitch : Option Glitch := none
  stats : Stats := {}
  generator : Generator := Generator.default
deriving Inhabited

namespace Session

/-- the name of the running mode, nothing when idle -/
def mode (s : Session) : Value :=
  match s.policy with
  | some p => p.name
  | none => .null

def active (s : Session) : Bool := s.policy.isSome

end Session

/-! ## Acting on the world -/

/-- what a session does outside itself: a key call may fault, and keeps what it has done -/
structure Rig (ω : Type) where
  keyDown : String → ω → Except Fault Unit × ω
  keyUp : String → ω → Except Fault Unit × ω
  waitUs : Int → ω → ω
  note : Entry → ω → ω

/-- how a session is set up: its configuration, its noise, and the rig it acts through -/
structure Setup (ω : Type) where
  config : EngineConfig
  noise : Noise
  rig : Rig ω

/-- a session and the world around it -/
structure Scene (ω : Type) where
  session : Session
  world : ω

/-- an operation on a scene; what it has done stays done when it faults -/
abbrev Act (ω : Type) := ExceptT Fault (StateM (Scene ω))

namespace Act

variable {ω α : Type}

def session : Act ω Session := do return (← get).session

def change (f : Session → Session) : Act ω Unit := modify fun s => { s with session := f s.session }

def outside (f : ω → ω) : Act ω Unit := modify fun s => { s with world := f s.world }

/-- an operation of the world that may fault -/
def attempt (f : ω → Except Fault α × ω) : Act ω α := fun s =>
  let (r, w) := f s.world
  (r, { s with world := w })

/-- a pure step that may fault -/
def check (r : Except Fault α) : Act ω α := fun s => (r, s)

/-- a draw from the session's generator -/
def draw (f : Generator → α × Generator) : Act ω α := fun s =>
  let (a, g) := f s.session.generator
  (.ok a, { s with session := { s.session with generator := g } })

/-- whatever way `act` ends, the session is changed by `f` -/
def afterwards (f : Session → Session) (act : Act ω α) : Act ω α := fun s =>
  let (r, s) := act s
  (r, { s with session := f s.session })

end Act

namespace Session

open Act

variable {ω : Type} (E : Setup ω)

def say (level : Level) (text : String) : Act ω Unit := outside (E.rig.note ⟨level, .session, text⟩)

/-! ## Keys -/

/-- a sample clamped from below -/
def sampleAtLeast (mean stddev bound : Float) : Act ω Float := do
  let x ← draw (E.noise.normal mean stddev)
  return Normal.atLeast bound x

/-- a wait of a sampled number of microseconds -/
def humanDelay (mean stddev : Float) : Act ω Unit := do
  let x ← draw (E.noise.normal mean stddev)
  let us ← check (Normal.waitOf E.config.maxWaitUs x)
  outside (E.rig.waitUs us)

/-- a travel delay, then the key goes down -/
def press (key : String) : Act ω Unit := do
  humanDelay E E.config.travelMeanUs E.config.travelStddevUs
  attempt (E.rig.keyDown key)
  change fun s => { s with held := s.held ++ [key] }

/-- a short second press after a release -/
def bounce (key : String) : Act ω Unit := do
  change fun s => { s with stats.bounces := s.stats.bounces + 1 }
  say E .debug ("Bounce on " ++ key)
  humanDelay E E.config.bounceOffMeanUs E.config.bounceOffStddevUs
  attempt (E.rig.keyDown key)
  humanDelay E E.config.bounceOnMeanUs E.config.bounceOnStddevUs
  attempt (E.rig.keyUp key)

/-- the key goes up, sometimes with a bounce -/
def release (key : String) : Act ω Unit := do
  change fun s => { s with held := s.held.erase key }
  attempt (E.rig.keyUp key)
  if ← draw (Generator.oneIn E.config.bounceOneIn) then bounce E key

/-- nothing running, nothing held, nothing pending -/
def idled (s : Session) : Session :=
  { s with held := [], policy := none, glitch := none, armed := false, target := 0.0 }

/-- every held key is released; the session is idle afterwards in any case -/
def releaseAll : Act ω Unit :=
  afterwards idled do
    (← session).held.forM (release E)

/-! ## Phases -/

/-- samples the hold of a phase and decides at once whether it will be split -/
def setNextHold (phase : Phase) : Act ω Unit := do
  let target ← sampleAtLeast E phase.mean phase.stddev E.config.minHoldMs
  change fun s => { s with target }
  let armed ← draw (Generator.oneIn E.config.glitchOneIn)
  change fun s => { s with armed, glitch := none }

/-- presses the key of the current phase and samples its hold -/
def beginPhase (p : Policy) (now : Int) : Act ω Unit := do
  let phase := p.phase (← session).phaseIndex
  press E phase.key
  change fun s => { s with phaseAt := now }
  setNextHold E phase
  change fun s => { s with stats.phases := s.stats.phases + 1 }

/-- the cycle moves on to the next phase -/
def nextPhase (p : Policy) (now : Int) : Act ω Unit := do
  change fun s => { s with phaseIndex := p.phaseAfter s.phaseIndex }
  beginPhase E p now

/-- whole milliseconds, as entries show them -/
def inMs (x : Float) : String := Decimal.fixed 0 x ++ "ms"

/-- the hold is split: a part of it remains for after a sampled gap -/
def enterGap (now : Int) : Act ω Unit := do
  let pct ← draw (Generator.range E.config.glitchSplitMinPct E.config.glitchSplitMaxPct)
  let ratio := (← check (toDouble pct)) / 100.0
  let remaining := (← session).target * (1.0 - ratio)
  let gap ← sampleAtLeast E E.config.glitchGapMeanMs E.config.glitchGapStddevMs E.config.glitchGapMinMs
  change fun s =>
    { s with glitch := some ⟨gap, remaining⟩, armed := false, phaseAt := now,
             stats.glitches := s.stats.glitches + 1 }
  say E .debug ("Glitch split: gap " ++ inMs gap ++ ", then " ++ inMs remaining)

/-- after the gap one of the policy's keys is pressed for what remained; if nothing did, the cycle moves on -/
def endGap (p : Policy) (glitch : Glitch) (now : Int) : Act ω Unit := do
  change fun s => { s with glitch := none }
  if glitch.remaining ≤ 0.0 then nextPhase E p now
  else
    let i ← draw (Generator.choice p.keys.length)
    let key := p.keys[i.toNat]?.getD ""
    press E key
    change fun s =>
      { s with phaseIndex := p.phaseForKey key, phaseAt := now, target := glitch.remaining, armed := false }
    say E .debug ("Glitch re-press: " ++ key ++ " for " ++ inMs glitch.remaining)

/-! ## Operations -/

/-- releases what is held and becomes idle; nothing when idle -/
def stop : Act ω Unit := do
  match (← session).policy with
  | none => return
  | some p =>
    releaseAll E
    say E .info ("Macro " ++ p.name.plain ++ " stopped")

/-- folds entropy into the generator; a healed state is worth a warning -/
def reseed (entropy : Int) : Act ω Unit := do
  if ← draw (fun g => (g.seedMix entropy).swap) then
    outside (E.rig.note ⟨.warning, .generator, healedText⟩)

/-- starts a policy, switching away from the one that runs -/
def start (p : Policy) (now entropy : Int) : Act ω Unit := do
  match (← session).policy with
  | none => pure ()
  | some q =>
    say E .info ("Switching macro " ++ q.name.plain ++ " -> " ++ p.name.plain)
    stop E
  reseed E entropy
  change fun s =>
    { s with policy := some p, phaseIndex := 0, startedAt := now, stats.sessions := s.stats.sessions + 1 }
  beginPhase E p now
  let s ← session
  say E .info ("Macro " ++ p.name.plain ++ " started: " ++ s.held.headD "" ++ " for " ++ inMs s.target)

/-- the safety timeout in seconds, as its entry shows it -/
def timeoutSeconds (c : EngineConfig) : Except Fault String :=
  match Decimal.ofIntScaled? c.safetyTimeoutMs 3 with
  | some s => .ok (Decimal.fixed 0 s)
  | none => .error .quotientBeyondDoubles

/-- the session has run for too long -/
def timeOut (p : Policy) : Act ω Unit := do
  let seconds ← check (timeoutSeconds E.config)
  say E .warning ("Macro " ++ p.name.plain ++ " hit safety timeout (" ++ seconds ++ "s), stopping")
  change fun s => { s with stats.timeouts := s.stats.timeouts + 1 }
  stop E

/-- the hold is over: the key is released, and a gap or the next phase begins -/
def endHold (p : Policy) (key : String) (now : Int) : Act ω Unit := do
  release E key
  if (← session).armed then enterGap E now else nextPhase E p now

/-- one transition at most, at the stamp `now` -/
def tick (now : Int) : Act ω Unit := do
  let s ← session
  match s.policy with
  | none => return
  | some p =>
    if elapsed now s.startedAt ≥ E.config.safetyTimeoutMs then timeOut E p
    else
      match s.glitch, s.held with
      | some g, _ =>
        if elapsed now s.phaseAt ≥ (← check (wholePart g.gap)) then endGap E p g now
      | none, [] => nextPhase E p now
      | none, key :: _ =>
        if elapsed now s.phaseAt ≥ (← check (wholePart s.target)) then endHold E p key now

/-! ## Runs -/

/-- a call of one of the three operations -/
inductive Call where
  | start (p : Policy) (now entropy : Int)
  | stop
  | tick (now : Int)

def Call.act : Call → Act ω Unit
  | .start p now entropy => Session.start E p now entropy
  | .stop => Session.stop E
  | .tick now => Session.tick E now

/-- what one call leaves, whether it returned or faulted -/
def step (s : Scene ω) (c : Call) : Scene ω := (c.act E s).2

def run (calls : List Call) (s : Scene ω) : Scene ω := calls.foldl (step E) s

/-- the names that the entries of a call show: of the running mode where it is left, and of the mode that starts -/
def Call.named (x : Session) : Call → List Value
  | .start p _ _ => (x.policy.map Policy.name).toList ++ [p.name]
  | .stop => (x.policy.map Policy.name).toList
  | .tick now =>
    if elapsed now x.startedAt ≥ E.config.safetyTimeoutMs then (x.policy.map Policy.name).toList else []

/-- how a call ends where there is so much room for writing: a name that cannot be written is a fault, too -/
def Call.outcome (depth : Option Nat) (s : Scene ω) (c : Call) : Except Fault Unit := do
  let _ ← (c.act E s).1
  forM (c.named E s.session) fun name => (name.writePlain? depth).map fun _ => ()

end Session
end KeyHold
