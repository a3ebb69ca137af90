/-
The turns of a simulation.

A turn advances the clock by a step, which is a whole microsecond at least, and ticks. Waits only add to that, so the
turns come to an end, whatever else happens in them: the mode times out, or the clock reaches the end.

- `Turns D stepMs endUs s seen t`: from `s` the turns end in `t`, with the scenes `seen` in which they tick. This tells
  of the loop without a bound on its turns.
- `Turns.loop_eq`: a bound that is not below the number of turns makes no difference.
- `turns_end`: **the turns end**, and are no more than the microseconds to simulate.
-/
import Mathlib.Tactic
import KeyHold.Proofs.Decimal.Product
import KeyHold.Proofs.Simulation.Bench

namespace KeyHold

namespace Session

variable {ω : Type} {E : Setup ω} {x y : Session} {new : Tape}

/-- a tick leaves the mode that runs and counts no timeout, or the timeout has come and ends the session -/
theorem Move.ticked {now : ℤ} (h : Move E x (.tick now) y new) :
    (y.policy = x.policy ∧ y.stats.timeouts = x.stats.timeouts) ∨
      (y.policy = none ∧ y.stats.timeouts = x.stats.timeouts + 1 ∧
        E.config.safetyTimeoutMs ≤ elapsed now x.startedAt) := by
  cases h with
  | early hearly => exact Or.inl ⟨rfl, rfl⟩
  | tick ht =>
    cases ht with
    | timedOut running late calls => exact Or.inr ⟨rfl, rfl, not_lt.1 late⟩
    | parted => exact Or.inl ⟨rfl, rfl⟩
    | advanced => exact Or.inl ⟨rfl, rfl⟩
    | skipped => exact Or.inl ⟨rfl, rfl⟩
    | resumed => exact Or.inl ⟨rfl, rfl⟩

/-- a start runs its policy and counts no timeout -/
theorem Move.opened {p : Policy} {now entropy : ℤ} (h : Move E x (.start p now entropy) y new) :
    y.policy = some p ∧ y.stats.timeouts = x.stats.timeouts := by
  cases h
  exact ⟨rfl, rfl⟩

/-- after a stop nothing runs, and no timeout has been counted -/
theorem Move.closed (h : Move E x .stop y new) :
    y.policy = none ∧ y.stats.timeouts = x.stats.timeouts := by
  cases h with
  | rest idle => exact ⟨idle, rfl⟩
  | stop running calls => exact ⟨rfl, rfl⟩

end Session

namespace Simulation

open Session

/-! ## Turns -/

/-- the loop goes on -/
def Onward (endUs : ℤ) (s : Scene Bench) : Prop := s.session.mode.truthy = true ∧ s.world.clock.nowUs < endUs

/-- from a scene the turns end in another, with the scenes in which they tick -/
inductive Turns (D : Driver Bench) (stepMs : Float) (endUs : ℤ) : Scene Bench → List (Scene Bench) → Scene Bench → Prop
  | finished {s : Scene Bench} (h : ¬ Onward endUs s) : Turns D stepMs endUs s [] s
  | turn {s t u v : Scene Bench} {seen : List (Scene Bench)} (h : Onward endUs s)
      (step : advance stepMs s = (.ok (), t)) (tick : D.tick none t = (.ok (), u))
      (rest : Turns D stepMs endUs u seen v) : Turns D stepMs endUs s (t :: seen) v

/-- the loop makes these turns if it may make as many -/
theorem Turns.loop_eq {D : Driver Bench} {stepMs : Float} {endUs : ℤ} {s t : Scene Bench} {seen : List (Scene Bench)}
    (h : Turns D stepMs endUs s seen t) {turns : ℕ} (hle : seen.length ≤ turns) :
    loop D stepMs endUs turns s = (.ok (), t) := by
  induction h generalizing turns with
  | @finished s h =>
    cases turns with
    | zero => rfl
    | succ turns => exact congrFun (if_neg h) s
  | @turn s t u v seen h step tick rest ih =>
    obtain ⟨n, rfl⟩ : ∃ n, turns = n + 1 := ⟨turns - 1, by rw [List.length_cons] at hle; omega⟩
    have hbody : loop D stepMs endUs (n + 1) s =
        (advance stepMs >>= fun _ => D.tick >>= fun _ => loop D stepMs endUs n) s := congrFun (if_pos h) s
    rw [hbody, bind_run, step]
    dsimp only
    rw [bind_run, tick]
    exact ih (by rw [List.length_cons] at hle; omega)

/-! ## The end -/

/-- the timeout has come by the time of the scene -/
def Late (c : EngineConfig) (s : Scene Bench) : Prop :=
  c.safetyTimeoutMs ≤ elapsed s.world.clock.stamp s.session.startedAt

variable {p : Plan} {noise : Noise} {s : Scene (Taped Bench)}

/-- the mode of the plan runs, and has not timed out -/
structure Live (p : Plan) (x : Session) : Prop where
  policy : x.policy = some p.policy
  timeouts : x.stats.timeouts = 0

/-- the mode of the plan has timed out at one of the scenes -/
structure Lapsed (c : EngineConfig) (seen : List (Scene Bench)) (x : Session) : Prop where
  policy : x.policy = none
  timeouts : x.stats.timeouts = 1
  late : ∃ v ∈ seen, Late c v

/-- a timeout has been counted or the end has come, and it has been counted only if it came at a tick -/
theorem timeouts_or_end {c : EngineConfig} {seen : List (Scene Bench)} {x : Session} {nowUs endUs : ℤ}
    (h : (Live p x ∧ endUs ≤ nowUs) ∨ Lapsed c seen x) :
    (0 < x.stats.timeouts ∨ endUs ≤ nowUs) ∧ (0 < x.stats.timeouts → ∃ v ∈ seen, Late c v) := by
  rcases h with ⟨hlive, hend⟩ | hlapsed
  · rw [hlive.timeouts]
    exact ⟨Or.inr hend, fun hpos => absurd hpos (lt_irrefl 0)⟩
  · rw [hlapsed.timeouts]
    exact ⟨Or.inl Nat.one_pos, fun _ => hlapsed.late⟩

/-- a turn from a scene in which the mode runs: it still does, or it has timed out -/
theorem turn_ends (hc : p.config.Accepted) (hN : (p.driver noise).setup.SteadySamples [p.policy])
    (h : Kept [p.policy] 1 s) (hs : Live p s.session) {us : ℤ} (hus : wholePart (p.stepMs * 1000.0) = .ok us) :
    ∃ t u, advance p.stepMs s.untaped = (.ok (), t) ∧ (p.driver noise).tick none t = (.ok (), u.untaped) ∧
      Kept [p.policy] 1 u ∧ s.world.world.clock.nowUs + us ≤ u.world.world.clock.nowUs ∧
      (Live p u.session ∨ Lapsed p.config [t] u.session) := by
  obtain ⟨b, hb⟩ : ∃ b : Bench, b = { s.world.world with
      clock := { s.world.world.clock with nowUs := s.world.world.clock.nowUs + us } } := ⟨_, rfl⟩
  have hstep : advance p.stepMs s.untaped = (.ok (), ⟨s.session, b⟩) := by
    have hclock : s.untaped.world.clock.advance p.stepMs =
        .ok { s.world.world.clock with nowUs := s.world.world.clock.nowUs + us } := by
      rw [VirtualClock.advance, hus]
      rfl
    rw [advance, hclock, hb]
    rfl
  have hkept : Kept [p.policy] 1 ⟨s.session, ⟨b, s.world.tape⟩⟩ := by
    apply h.moved
    · rw [hb]
      exact h.witnessed.sound
    · rw [hb]
  obtain ⟨u, new, htick, hafter, hmove, hclock⟩ := hkept.act hc hN (c := .tick none) rfl
  refine ⟨_, u, hstep, htick, hafter, ?_, ?_⟩
  · have hnow : b.clock.nowUs = s.world.world.clock.nowUs + us := by rw [hb]
    exact hnow ▸ hclock
  · rcases hmove.ticked with ⟨hpolicy, htimeouts⟩ | ⟨hpolicy, htimeouts, hlate⟩
    · exact Or.inl ⟨hpolicy.trans hs.policy, htimeouts.trans hs.timeouts⟩
    · refine Or.inr ⟨hpolicy, ?_, _, List.mem_singleton_self _, hlate⟩
      rw [htimeouts]
      exact congrArg (· + 1) hs.timeouts

/-- **The turns end**: the clock has reached the end, or the mode has timed out at one of them. -/
theorem turns_end (hname : p.policy.name.truthy = true) (hc : p.config.Accepted)
    (hN : (p.driver noise).setup.SteadySamples [p.policy]) {us : ℤ} (hus : wholePart (p.stepMs * 1000.0) = .ok us)
    (h1 : 1 ≤ us) (endUs : ℤ) (h : Kept [p.policy] 1 s) (hs : Live p s.session) :
    ∃ seen t, Turns (p.driver noise) p.stepMs endUs s.untaped seen t.untaped ∧
      seen.length ≤ (endUs - s.world.world.clock.nowUs).toNat ∧ Kept [p.policy] 1 t ∧
      ((Live p t.session ∧ endUs ≤ t.world.world.clock.nowUs) ∨ Lapsed p.config seen t.session) := by
  -- each turn leaves fewer microseconds to simulate
  induction hn : (endUs - s.world.world.clock.nowUs).toNat using Nat.strong_induction_on generalizing s with
  | _ n ih =>
    by_cases hend : endUs ≤ s.world.world.clock.nowUs
    · have hover : ¬ Onward endUs s.untaped := fun ho => absurd ho.2 (not_lt.2 hend)
      exact ⟨[], s, .finished hover, Nat.zero_le _, h, Or.inl ⟨hs, hend⟩⟩
    have honward : Onward endUs s.untaped := by
      refine ⟨?_, not_le.1 hend⟩
      show s.session.mode.truthy = true
      rw [Session.mode, hs.policy]
      exact hname
    obtain ⟨t, u, hstep, htick, hkept, hclock, hlive | hlapsed⟩ := turn_ends hc hN h hs hus
    · obtain ⟨seen, v, hturns, hlength, hv, hcases⟩ := ih _ (by omega) hkept hlive rfl
      refine ⟨t :: seen, v, .turn honward hstep htick hturns, ?_, hv, ?_⟩
      · rw [List.length_cons]
        omega
      · refine hcases.imp_right fun hl => ⟨hl.policy, hl.timeouts, ?_⟩
        obtain ⟨w, hw, hlate⟩ := hl.late
        exact ⟨w, List.mem_cons_of_mem _ hw, hlate⟩
    · have hover : ¬ Onward endUs u.untaped := by
        rintro ⟨htruthy, -⟩
        rw [show u.untaped.session.mode = .null by
          show u.session.mode = .null
          rw [Session.mode, hlapsed.policy]] at htruthy
        cases htruthy
      refine ⟨[t], u, .turn honward hstep htick (.finished hover), ?_, hkept, Or.inr hlapsed⟩
      show 1 ≤ n
      omega

end Simulation
end KeyHold
