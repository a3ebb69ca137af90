/-
Generator states that a run visits.

Samples are asked to be finite at every state of the generator. A run comes only through the states that draws lead to
from the first one, so it is enough that they are finite there: with another noise, which is the same at these states
and repeats what it gives at the first of them everywhere else, the run is the same, and all its samples are finite. In
particular the zero state, from which the Box-Muller transform has no sample, is never visited.

- `Noise.Visited`: the states that draws lead to. `Noise.along`: the noise that is repeated elsewhere.
- `Same`: two operations that are one at visited states. There is one rule for each way in which operations are built,
  and one for each operation.
- `run_along`, `Driver.run_along`: **the run is the same.** `along_steady`: its samples are finite.
- `visited_call_returns`: calls return if the samples at visited states are finite.
- `Noise.boxMuller_visited`: the transform visits no zero state.
-/
import Mathlib.Tactic
import KeyHold.Driver
import KeyHold.Proofs.Random.Step
import KeyHold.Proofs.Session.Total

namespace KeyHold

variable {ω α β : Type}

/-! ## Visited states -/

namespace Noise

/-- the states that draws and samples lead to from a first one -/
inductive Visited (N : Noise) (g₀ : Generator) : Generator → Prop
  | first : Visited N g₀ g₀
  | drawn {g : Generator} (h : Visited N g₀ g) (d : Generator.Draw) : Visited N g₀ (g.perform d)
  | sampled {g : Generator} (h : Visited N g₀ g) (mean stddev : Float) : Visited N g₀ (N.normal mean stddev g).2

open Classical in
/-- the noise at the states that are visited from a first one, and the samples of that one at all others -/
noncomputable def along (N : Noise) (g₀ : Generator) : Noise where
  normal mean stddev g := if N.Visited g₀ g then N.normal mean stddev g else ((N.normal mean stddev g₀).1, g)

variable {N : Noise} {g₀ g : Generator}

theorem along_visited (h : N.Visited g₀ g) (mean stddev : Float) :
    (N.along g₀).normal mean stddev g = N.normal mean stddev g := if_pos h

/-- whatever the state, a sample is one of a state that is visited -/
theorem along_sample (mean stddev : Float) (g : Generator) :
    ∃ g', N.Visited g₀ g' ∧ ((N.along g₀).normal mean stddev g).1 = (N.normal mean stddev g').1 := by
  by_cases h : N.Visited g₀ g
  · exact ⟨g, h, by rw [along_visited h]⟩
  · refine ⟨g₀, .first, ?_⟩
    unfold along
    dsimp only
    rw [if_neg h]

end Noise

/-- the setup with its noise at the states that are visited from a first one -/
noncomputable def Setup.along (E : Setup ω) (g₀ : Generator) : Setup ω := { E with noise := E.noise.along g₀ }

@[simp] theorem Setup.along_config (E : Setup ω) (g₀ : Generator) : (E.along g₀).config = E.config := rfl

/-- the samples at one state are finite, once they are clamped -/
structure Setup.SteadyAt (E : Setup ω) (modes : List Policy) (g : Generator) : Prop where
  travel : Decimal.Finite (E.noise.normal E.config.travelMeanUs E.config.travelStddevUs g).1
  bounceOff : Decimal.Finite (E.noise.normal E.config.bounceOffMeanUs E.config.bounceOffStddevUs g).1
  bounceOn : Decimal.Finite (E.noise.normal E.config.bounceOnMeanUs E.config.bounceOnStddevUs g).1
  hold : ∀ p ∈ modes, ∀ ph ∈ p.phases,
    Decimal.Finite (Normal.atLeast E.config.minHoldMs (E.noise.normal ph.mean ph.stddev g).1)
  gap : Decimal.Finite (Normal.atLeast E.config.glitchGapMinMs
    (E.noise.normal E.config.glitchGapMeanMs E.config.glitchGapStddevMs g).1)

/-- **Samples that are finite at visited states** are all the samples there are. -/
theorem Setup.along_steady {E : Setup ω} {modes : List Policy} {g₀ : Generator}
    (h : ∀ g, E.noise.Visited g₀ g → E.SteadyAt modes g) : (E.along g₀).SteadySamples modes := by
  have hsample : ∀ (P : Float → Prop) (mean stddev : Float),
      (∀ g, E.noise.Visited g₀ g → P (E.noise.normal mean stddev g).1) →
        ∀ g, P ((E.noise.along g₀).normal mean stddev g).1 := by
    intro P mean stddev hP g
    obtain ⟨g', hg', heq⟩ := Noise.along_sample (N := E.noise) mean stddev g
    rw [heq]
    exact hP g' hg'
  refine ⟨⟨?_, ?_, ?_⟩, fun p hp ph hph => ?_, ?_⟩
  · exact hsample Decimal.Finite _ _ fun g hg => (h g hg).travel
  · exact hsample Decimal.Finite _ _ fun g hg => (h g hg).bounceOff
  · exact hsample Decimal.Finite _ _ fun g hg => (h g hg).bounceOn
  · exact hsample (fun x => Decimal.Finite (Normal.atLeast _ x)) _ _ fun g hg => (h g hg).hold p hp ph hph
  · exact hsample (fun x => Decimal.Finite (Normal.atLeast _ x)) _ _ fun g hg => (h g hg).gap

/-! ## Operations that are one -/

namespace Act

/-- from states of `V` the two do the same, and come to such states -/
def Same (V : Generator → Prop) (act act' : Act ω α) : Prop :=
  ∀ s : Scene ω, V s.session.generator → act s = act' s ∧ V (act s).2.session.generator

variable {V : Generator → Prop} {act act' : Act ω α}

theorem Same.bind {f f' : α → Act ω β} (ha : Same V act act') (hf : ∀ a, Same V (f a) (f' a)) :
    Same V (act >>= f) (act' >>= f') := by
  intro s hs
  obtain ⟨heq, hv⟩ := ha s hs
  rw [bind_run, bind_run, ← heq]
  rcases hr : act s with ⟨_ | a, t⟩
  · rw [hr] at hv
    exact ⟨rfl, hv⟩
  · rw [hr] at hv
    exact hf a t hv

theorem same_pure {a : α} : Same V (pure a : Act ω α) (pure a) := fun _ hs => ⟨rfl, hs⟩

theorem same_session : Same V (session : Act ω Session) session := fun _ hs => ⟨rfl, hs⟩

theorem same_change {f : Session → Session} (hf : ∀ x, (f x).generator = x.generator) :
    Same V (change f : Act ω Unit) (change f) := by
  intro s hs
  refine ⟨rfl, ?_⟩
  show V (f s.session).generator
  rwa [hf]

theorem same_outside {f : ω → ω} : Same V (outside f) (outside f) := fun _ hs => ⟨rfl, hs⟩

theorem same_check {r : Except Fault α} : Same V (check r : Act ω α) (check r) := fun _ hs => ⟨rfl, hs⟩

theorem same_attempt {f : ω → Except Fault α × ω} : Same V (attempt f) (attempt f) := fun _ hs => ⟨rfl, hs⟩

theorem same_draw {f f' : Generator → α × Generator} (hf : ∀ g, V g → f g = f' g ∧ V (f g).2) :
    Same V (draw f : Act ω α) (draw f') := by
  intro s hs
  obtain ⟨heq, hv⟩ := hf s.session.generator hs
  refine ⟨?_, hv⟩
  unfold draw
  rw [heq]

theorem Same.afterwards {f : Session → Session} (ha : Same V act act') (hf : ∀ x, (f x).generator = x.generator) :
    Same V (afterwards f act) (afterwards f act') := by
  intro s hs
  obtain ⟨heq, hv⟩ := ha s hs
  refine ⟨?_, ?_⟩
  · unfold Act.afterwards
    rw [heq]
  · show V (f (act s).2.session).generator
    rwa [hf]

theorem same_forM {f f' : α → Act ω Unit} (hf : ∀ a, Same V (f a) (f' a)) (l : List α) :
    Same V (l.forM f) (l.forM f') := by
  induction l with
  | nil => exact same_pure
  | cons a l ih => exact (hf a).bind fun _ => ih

/-- one operation after the other, each keeping what a fault left -/
theorem same_steps {f f' : α → Act ω Unit} (hf : ∀ a, Same V (f a) (f' a)) (l : List α) {s : Scene ω}
    (hs : V s.session.generator) :
    l.foldl (fun t a => (f a t).2) s = l.foldl (fun t a => (f' a t).2) s ∧
      V (l.foldl (fun t a => (f a t).2) s).session.generator := by
  induction l generalizing s with
  | nil => exact ⟨rfl, hs⟩
  | cons a l ih =>
    obtain ⟨heq, hv⟩ := hf a s hs
    rw [List.foldl_cons, List.foldl_cons, ← heq]
    exact ih hv

end Act

/-! ## A session's operations -/

namespace Session

open Act

variable {E : Setup ω} {g₀ : Generator}

/-- a sample at a visited state is that of the noise, and leads to such a state -/
theorem sample_along (mean stddev : Float) : Same (ω := ω) (E.noise.Visited g₀) (draw (E.noise.normal mean stddev))
    (draw ((E.noise.along g₀).normal mean stddev)) :=
  same_draw fun _ hg => ⟨(Noise.along_visited hg mean stddev).symm, hg.sampled mean stddev⟩

/-- a draw leads to a visited state -/
theorem draw_along {f : Generator → α × Generator} (d : Generator.Draw) (hd : ∀ g, (f g).2 = g.perform d) :
    Same (ω := ω) (E.noise.Visited g₀) (draw f) (draw f) := by
  refine same_draw fun g hg => ⟨rfl, ?_⟩
  rw [hd]
  exact hg.drawn d

theorem sampleAtLeast_along (mean stddev bound : Float) : Same (E.noise.Visited g₀) (sampleAtLeast E mean stddev bound)
    (sampleAtLeast (E.along g₀) mean stddev bound) :=
  (sample_along mean stddev).bind fun _ => same_pure

theorem humanDelay_along (mean stddev : Float) : Same (E.noise.Visited g₀) (humanDelay E mean stddev)
    (humanDelay (E.along g₀) mean stddev) :=
  (sample_along mean stddev).bind fun _ => same_check.bind fun _ => same_outside

theorem press_along (k : String) : Same (E.noise.Visited g₀) (press E k) (press (E.along g₀) k) := by
  refine (humanDelay_along _ _).bind fun _ => same_attempt.bind fun _ => ?_
  exact same_change fun _ => rfl

theorem bounce_along (k : String) : Same (E.noise.Visited g₀) (bounce E k) (bounce (E.along g₀) k) := by
  refine Same.bind (same_change fun _ => rfl) fun _ => same_outside.bind fun _ => ?_
  refine (humanDelay_along _ _).bind fun _ => same_attempt.bind fun _ => ?_
  exact (humanDelay_along _ _).bind fun _ => same_attempt

theorem release_along (k : String) : Same (E.noise.Visited g₀) (release E k) (release (E.along g₀) k) := by
  refine Same.bind (same_change fun _ => rfl) fun _ => same_attempt.bind fun _ => ?_
  refine (draw_along (.oneIn _) fun _ => rfl).bind fun b => ?_
  split_ifs
  · exact bounce_along k
  · exact same_pure

theorem stop_along : Same (E.noise.Visited g₀) (stop E) (stop (E.along g₀)) := by
  refine same_session.bind fun x => ?_
  cases x.policy with
  | none => exact same_pure
  | some p =>
    refine Same.bind (Same.afterwards ?_ fun _ => rfl) fun _ => same_outside
    exact same_session.bind fun y => same_forM release_along y.held

theorem setNextHold_along (ph : Phase) :
    Same (E.noise.Visited g₀) (setNextHold E ph) (setNextHold (E.along g₀) ph) := by
  refine (sampleAtLeast_along _ _ _).bind fun _ => Same.bind (same_change fun _ => rfl) fun _ => ?_
  exact (draw_along (.oneIn _) fun _ => rfl).bind fun _ => same_change fun _ => rfl

theorem beginPhase_along (p : Policy) (now : ℤ) :
    Same (E.noise.Visited g₀) (beginPhase E p now) (beginPhase (E.along g₀) p now) := by
  refine same_session.bind fun x => (press_along _).bind fun _ => Same.bind (same_change fun _ => rfl) fun _ => ?_
  exact (setNextHold_along _).bind fun _ => same_change fun _ => rfl

theorem nextPhase_along (p : Policy) (now : ℤ) :
    Same (E.noise.Visited g₀) (nextPhase E p now) (nextPhase (E.along g₀) p now) :=
  Same.bind (same_change fun _ => rfl) fun _ => beginPhase_along p now

theorem enterGap_along (now : ℤ) : Same (E.noise.Visited g₀) (enterGap E now) (enterGap (E.along g₀) now) := by
  refine (draw_along (.range _ _) fun _ => rfl).bind fun _ => same_check.bind fun _ => same_session.bind fun _ => ?_
  exact (sampleAtLeast_along _ _ _).bind fun _ => Same.bind (same_change fun _ => rfl) fun _ => same_outside

theorem endGap_along (p : Policy) (gl : Glitch) (now : ℤ) :
    Same (E.noise.Visited g₀) (endGap E p gl now) (endGap (E.along g₀) p gl now) := by
  refine Same.bind (same_change fun _ => rfl) fun _ => ?_
  split_ifs
  · exact nextPhase_along p now
  · refine (draw_along (.choice _) fun _ => rfl).bind fun i => (press_along _).bind fun _ => ?_
    exact Same.bind (same_change fun _ => rfl) fun _ => same_outside

theorem endHold_along (p : Policy) (k : String) (now : ℤ) :
    Same (E.noise.Visited g₀) (endHold E p k now) (endHold (E.along g₀) p k now) := by
  refine (release_along k).bind fun _ => same_session.bind fun x => ?_
  split_ifs
  · exact enterGap_along now
  · exact nextPhase_along p now

theorem timeOut_along (p : Policy) : Same (E.noise.Visited g₀) (timeOut E p) (timeOut (E.along g₀) p) := by
  refine same_check.bind fun _ => same_outside.bind fun _ => ?_
  exact Same.bind (same_change fun _ => rfl) fun _ => stop_along

theorem tick_along (now : ℤ) : Same (E.noise.Visited g₀) (tick E now) (tick (E.along g₀) now) := by
  refine same_session.bind fun x => ?_
  cases x.policy with
  | none => exact same_pure
  | some p =>
    dsimp only
    rw [Setup.along_config]
    split_ifs
    · exact timeOut_along p
    · cases x.glitch with
      | some gl =>
        refine same_check.bind fun n => ?_
        split_ifs
        · exact endGap_along p gl now
        · exact same_pure
      | none =>
        cases x.held with
        | nil => exact nextPhase_along p now
        | cons k rest =>
          refine same_check.bind fun n => ?_
          split_ifs
          · exact endHold_along p k now
          · exact same_pure

theorem reseed_along (entropy : ℤ) : Same (E.noise.Visited g₀) (reseed E entropy) (reseed (E.along g₀) entropy) := by
  refine (draw_along (.mix entropy) fun _ => rfl).bind fun b => ?_
  split_ifs
  · exact same_outside
  · exact same_pure

theorem startIdle_along (p : Policy) (now entropy : ℤ) :
    Same (E.noise.Visited g₀) (startIdle E p now entropy) (startIdle (E.along g₀) p now entropy) := by
  refine (reseed_along entropy).bind fun _ => Same.bind (same_change fun _ => rfl) fun _ => ?_
  exact (beginPhase_along p now).bind fun _ => same_session.bind fun _ => same_outside

theorem start_along (p : Policy) (now entropy : ℤ) :
    Same (E.noise.Visited g₀) (start E p now entropy) (start (E.along g₀) p now entropy) := by
  rw [start_eq, start_eq]
  refine same_session.bind fun x => ?_
  cases x.policy with
  | none => exact startIdle_along p now entropy
  | some q => exact same_outside.bind fun _ => stop_along.bind fun _ => startIdle_along p now entropy

/-! ## Runs -/

/-- **A call at a visited state** is the same with the noise along visited states. -/
theorem call_along (c : Call) : Same (E.noise.Visited g₀) (c.act E) (c.act (E.along g₀)) := by
  cases c with
  | start p now entropy => exact start_along p now entropy
  | stop => exact stop_along
  | tick now => exact tick_along now

/-- **A run from a visited state** is the same with the noise along visited states, and ends at one of them. -/
theorem run_along (calls : List Call) {s : Scene ω} (h : E.noise.Visited g₀ s.session.generator) :
    run E calls s = run (E.along g₀) calls s ∧ E.noise.Visited g₀ (run E calls s).session.generator :=
  same_steps call_along calls h

/-- **Calls return if the samples at visited states are finite**, on a rig whose key calls never fault and with a
configuration that is accepted. -/
theorem visited_call_returns {modes : List Policy} (hR : E.rig.Reliable)
    (hN : ∀ g, E.noise.Visited g₀ g → E.SteadyAt modes g) (hc : E.config.Accepted) (w : ω) {calls : List Call}
    {call : Call} (hm : ∀ c ∈ call :: calls, c.Of modes) :
    (call.act E (run E calls ⟨{ generator := g₀ }, w⟩)).1 = .ok () := by
  obtain ⟨hcall, hcalls⟩ := List.forall_mem_cons.1 hm
  have hsteady : (E.along g₀).SteadySamples modes := Setup.along_steady hN
  obtain ⟨hrun, hv⟩ := run_along (E := E) calls (s := ⟨{ generator := g₀ }, w⟩) .first
  obtain ⟨heq, -⟩ := call_along call _ hv
  have hnumeric : Numeric modes (run (E.along g₀) calls ⟨{ generator := g₀ }, w⟩).session :=
    run_numeric (E := E.along g₀) hR hsteady hc hcalls ⟨Decimal.finite_zero, nofun, nofun⟩
  obtain ⟨_, hr, -⟩ := (call_returns (E := E.along g₀) hR hsteady hc hcall _ hnumeric).returns
  rw [heq, hrun]
  exact hr

end Session

/-! ## The host's entry points -/

namespace Driver

open Act Session

variable {D : Driver ω} {g₀ : Generator}

/-- the driver with its noise at the states that are visited from a first one -/
noncomputable def along (D : Driver ω) (g₀ : Generator) : Driver ω := { D with noise := D.noise.along g₀ }

theorem notify_along (before : Value) : Same (D.noise.Visited g₀) (notify D before) (notify (D.along g₀) before) := by
  refine same_session.bind fun x => ?_
  dsimp only
  split_ifs
  · exact same_outside
  · exact same_pure

theorem stampOr_along (now : Option ℤ) : Same (D.noise.Visited g₀) (stampOr D now) (stampOr (D.along g₀) now) :=
  fun s hs => by cases now <;> exact ⟨rfl, hs⟩

theorem call_along (c : Call) : Same (D.noise.Visited g₀) (c.act D) (c.act (D.along g₀)) := by
  cases c with
  | toggle mode now =>
    refine same_check.bind fun p => same_session.bind fun x => ?_
    dsimp only
    split_ifs
    · exact (stop_along (E := D.setup)).bind fun _ => notify_along _
    · refine (stampOr_along now).bind fun now => Same.bind (fun _ hs => ⟨rfl, hs⟩) fun entropy => ?_
      exact (start_along (E := D.setup) p now entropy).bind fun _ => notify_along _
  | tick now =>
    refine same_session.bind fun x => ?_
    split_ifs
    · refine (stampOr_along now).bind fun now => same_session.bind fun y => ?_
      exact (tick_along (E := D.setup) now).bind fun _ => notify_along _
    · exact same_pure
  | forceStop => exact same_session.bind fun x => (stop_along (E := D.setup)).bind fun _ => notify_along _

/-- **A run of entry points** from a visited state is the same with the noise along visited states. -/
theorem run_along (calls : List Call) {s : Scene ω} (h : D.noise.Visited g₀ s.session.generator) :
    run D calls s = run (D.along g₀) calls s :=
  (same_steps call_along calls h).1

end Driver

/-! ## The Box-Muller transform -/

namespace Noise

open Generator

/-- a usable draw leads to no zero state -/
theorem firstUsable_ne_zero (tries : ℕ) {g : Generator} (h : g ≠ zero) :
    (Normal.firstUsable Normal.uniform tries g).2 ≠ zero := by
  induction tries generalizing g with
  | zero => exact perform_ne_zero h .unit
  | succ tries ih =>
    rw [Normal.firstUsable]
    show (if g.unit.1 ≤ Normal.tooSmall then Normal.firstUsable Normal.uniform tries g.unit.2
      else (.ok g.unit.1, g.unit.2)).2 ≠ zero
    split_ifs
    · exact ih (perform_ne_zero h .unit)
    · exact perform_ne_zero h .unit

theorem boxMuller_ne_zero (mean stddev : Float) {g : Generator} (h : g ≠ zero) :
    (boxMuller.normal mean stddev g).2 ≠ zero := by
  have hfirst := firstUsable_ne_zero Normal.stateCount h
  unfold boxMuller Normal.boxMuller
  dsimp only
  rcases hr : Normal.firstUsable Normal.uniform Normal.stateCount g with ⟨_ | u, g'⟩
  · rw [hr] at hfirst
    exact hfirst
  · rw [hr] at hfirst
    exact perform_ne_zero hfirst .unit

/-- **The transform visits no zero state** from any other. -/
theorem boxMuller_visited {g₀ g : Generator} (h₀ : g₀ ≠ zero) (h : boxMuller.Visited g₀ g) : g ≠ zero := by
  induction h with
  | first => exact h₀
  | drawn _ d ih => exact perform_ne_zero ih d
  | sampled _ mean stddev ih => exact boxMuller_ne_zero mean stddev ih

end Noise

end KeyHold
