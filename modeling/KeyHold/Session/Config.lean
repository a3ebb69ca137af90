/-
How the timing engine behaves.

Rarities are given as 1 in N. `EngineConfig.flaw?` says which bound a configuration breaks, in the order in which the
bounds are checked.
-/
import KeyHold.Fault

namespace KeyHold

structure EngineConfig where
  safetyTimeoutMs : Int := 150000
  minHoldMs : Float := 50.0
  bounceOneIn : Int := 10
  glitchOneIn : Int := 20
  glitchSplitMinPct : Int := 30
  glitchSplitMaxPct : Int := 70
  glitchGapMeanMs : Float := 80.0
  glitchGapStddevMs : Float := 30.0
  glitchGapMinMs : Float := 20.0
  travelMeanUs : Float := 1500.0
  travelStddevUs : Float := 400.0
  bounceOffMeanUs : Float := 500.0
  bounceOffStddevUs : Float := 200.0
  bounceOnMeanUs : Float := 300.0
  bounceOnStddevUs : Float := 100.0
  maxWaitUs : Int := 60000
  entropy : String := "clock"
deriving Inhabited

namespace EngineConfig

/-- a bound that a configuration breaks -/
inductive Flaw where
  | timeoutNotPositive
  | minHoldNegative
  | splitOutOfOrder
  | maxWaitNegative
  | entropyUnknown (name : String)
deriving DecidableEq

def Flaw.message : Flaw → String
  | timeoutNotPositive => "safety_timeout_ms must be positive"
  | minHoldNegative => "min_hold_ms must not be negative"
  | splitOutOfOrder => "glitch split bounds must satisfy 0 <= min <= max <= 100"
  | maxWaitNegative => "max_wait_us must not be negative"
  | entropyUnknown name => "entropy must be 'clock' or 'os', got " ++ Text.quoted name

/-- the part of a hold that comes before a glitch is between two percentages -/
def SplitInOrder (c : EngineConfig) : Prop :=
  0 ≤ c.glitchSplitMinPct ∧ c.glitchSplitMinPct ≤ c.glitchSplitMaxPct ∧ c.glitchSplitMaxPct ≤ 100

instance (c : EngineConfig) : Decidable c.SplitInOrder := inferInstanceAs (Decidable (_ ∧ _ ∧ _))

/-- the first bound broken, if any -/
def flaw? (c : EngineConfig) : Option Flaw :=
  if c.safetyTimeoutMs ≤ 0 then some .timeoutNotPositive
  else if c.minHoldMs < 0.0 then some .minHoldNegative
  else if ¬c.SplitInOrder then some .splitOutOfOrder
  else if c.maxWaitUs < 0 then some .maxWaitNegative
  else if ¬(c.entropy = "clock" ∨ c.entropy = "os") then some (.entropyUnknown c.entropy)
  else none

/-- no bound is broken -/
def Accepted (c : EngineConfig) : Prop := c.flaw? = none

def check (c : EngineConfig) : Except Fault Unit :=
  match c.flaw? with
  | some f => .error (.config ⟨some "engine", f.message⟩)
  | none => .ok ()

end EngineConfig
end KeyHold
