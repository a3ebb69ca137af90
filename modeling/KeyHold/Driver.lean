/-
The host's three entry points.

A `Driver` owns a session and the registry of modes. Toggling the mode that runs stops it; toggling another one starts
it, after a stop of the one that runs, so two modes never hold keys together. A tick passes one scan iteration on, and
a forced stop ends whatever runs. Each entry point reports a change of mode at its end, if it gets there.
-/
import KeyHold.Policy.Registry
import KeyHold.Session.Basic

namespace KeyHold

/-- what a host offers beyond a session's rig: the time, seed material, and an ear for changes of mode -/
structure HostRig (ω : Type) extends Rig ω where
  /-- the present as a stamp -/
  stamp : ω → Int
  entropy : ω → Int × ω
  /-- called with the new mode, nothing when the session became idle -/
  changed : Value → ω → ω

structure Driver (ω : Type) where
  registry : Registry
  config : EngineConfig
  noise : Noise
  host : HostRig ω

namespace Driver

open Act

variable {ω : Type} (D : Driver ω)

def setup : Setup ω := ⟨D.config, D.noise, D.host.toRig⟩

/-- the given stamp, or the clock's -/
def stampOr (now : Option Int) : Act ω Int := do
  match now with
  | some t => return t
  | none => return D.host.stamp (← get).world

/-- one value of seed material -/
def drawEntropy : Act ω Int := fun s =>
  let (n, w) := D.host.entropy s.world
  (.ok n, { s with world := w })

/-- reports the mode if it is not the one before -/
def notify (before : Value) : Act ω Unit := do
  let after := (← session).mode
  if !after.same before then outside (D.host.changed after)

/-- a toggle key went down -/
def toggle (mode : Value) (now : Option Int := none) : Act ω Unit := do
  let policy ← check (D.registry.get mode)
  let before := (← session).mode
  if before.same policy.name then Session.stop D.setup
  else
    let now ← stampOr D now
    let entropy ← drawEntropy D
    Session.start D.setup policy now entropy
  notify D before

/-- one scan iteration -/
def tick (now : Option Int := none) : Act ω Unit := do
  if (← session).active then
    let now ← stampOr D now
    let before := (← session).mode
    Session.tick D.setup now
    notify D before

/-- no key stays held -/
def forceStop : Act ω Unit := do
  let before := (← session).mode
  Session.stop D.setup
  notify D before

/-! ## Runs -/

/-- a call of one of the three entry points -/
inductive Call where
  | toggle (mode : Value) (now : Option Int)
  | tick (now : Option Int)
  | forceStop

def Call.act : Call → Act ω Unit
  | .toggle mode now => Driver.toggle D mode now
  | .tick now => Driver.tick D now
  | .forceStop => Driver.forceStop D

def step (s : Scene ω) (c : Call) : Scene ω := (c.act D s).2

def run (calls : List Call) (s : Scene ω) : Scene ω := calls.foldl (step D) s

end Driver
end KeyHold
