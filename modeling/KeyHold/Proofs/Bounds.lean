/-
The bounds that the checks enforce.

The engine and the phases are each checked for one flaw after the other, and the first one found refuses them. So what
is accepted is within all bounds, and what is within all bounds is accepted.

- `EngineConfig.accepted_iff`: **the check of the engine**.
- `Policy.phaseFlaw?_eq_none`: **the check of a phase**.
-/
import Mathlib.Tactic
import KeyHold.Policy.Basic
import KeyHold.Session.Config

namespace KeyHold

/-- the bounds of the engine; "not a number" is not below its floor -/
structure EngineConfig.InBounds (c : EngineConfig) : Prop where
  timeout : 0 < c.safetyTimeoutMs
  minHold : ¬ c.minHoldMs < 0.0
  split : 0 ≤ c.glitchSplitMinPct ∧ c.glitchSplitMinPct ≤ c.glitchSplitMaxPct ∧ c.glitchSplitMaxPct ≤ 100
  maxWait : 0 ≤ c.maxWaitUs
  entropy : c.entropy = "clock" ∨ c.entropy = "os"

/-- the bounds of a phase -/
structure Phase.InBounds (ph : Phase) : Prop where
  key : ph.key ≠ ""
  mean : ¬ ph.mean ≤ 0.0
  stddev : ¬ ph.stddev < 0.0

/-- **The check of the engine** is that of its bounds. -/
theorem EngineConfig.accepted_iff {c : EngineConfig} : c.Accepted ↔ c.InBounds := by
  unfold Accepted flaw?
  constructor
  · intro h
    split_ifs at h with htimeout hhold hsplit hwait hentropy
    exact ⟨not_le.1 htimeout, hhold, hsplit, not_lt.1 hwait, hentropy⟩
  · rintro ⟨htimeout, hhold, hsplit, hwait, hentropy⟩
    have hsplit : c.SplitInOrder := hsplit
    rw [if_neg (not_le.2 htimeout), if_neg hhold, if_neg (not_not.2 hsplit), if_neg (not_lt.2 hwait),
      if_neg (not_not.2 hentropy)]

/-- **The check of a phase** is that of its bounds. -/
theorem Policy.phaseFlaw?_eq_none {ph : Phase} : phaseFlaw? ph = none ↔ ph.InBounds := by
  unfold phaseFlaw?
  constructor
  · intro h
    split_ifs at h with hkey hmean hstddev
    exact ⟨hkey, hmean, hstddev⟩
  · rintro ⟨hkey, hmean, hstddev⟩
    rw [if_neg hkey, if_neg hmean, if_neg hstddev]

namespace EngineConfig.Accepted

variable {c : EngineConfig}

theorem timeout_pos (h : c.Accepted) : 0 < c.safetyTimeoutMs := (accepted_iff.1 h).timeout

theorem minHold_nonneg (h : c.Accepted) : ¬ c.minHoldMs < 0.0 := (accepted_iff.1 h).minHold

theorem splitInOrder (h : c.Accepted) : c.SplitInOrder := (accepted_iff.1 h).split

theorem maxWait_nonneg (h : c.Accepted) : 0 ≤ c.maxWaitUs := (accepted_iff.1 h).maxWait

end EngineConfig.Accepted

end KeyHold
