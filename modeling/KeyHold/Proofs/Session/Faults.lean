/-
What faults cannot do to a session.

Any key call may fault, at any point of any operation. What the session says of itself stays in order (`Safe`), a stop
always makes it idle, and no key is given up without a try to release it.
-/
import Mathlib.Tactic
import KeyHold.Session.Bench
import KeyHold.Proofs.Session.Grip

namespace KeyHold.Session

open Act Tape

variable {ω : Type}

/-- what holds of a session whichever key calls fault -/
structure Safe (s : Scene (Taped ω)) : Prop where
  single : s.session.held.length ≤ 1
  gap : s.session.glitch.isSome → s.session.held = [] ∧ s.session.armed = false
  idle : s.session.policy = none → Idle s.session
  /-- a key that went down and is not held has had a release tried since -/
  tried : ∀ pre k post, s.world.tape = pre ++ ⟨.down, k, true⟩ :: post → k ∉ s.session.held →
    ∃ b, ⟨.up, k, b⟩ ∈ post

theorem Coherent.gap {s : Session} (h : Coherent s) (hg : s.glitch.isSome) : s.held = [] ∧ s.armed = false := by
  rcases h with (h | ⟨p, h⟩ | ⟨p, h⟩) | ⟨p, h⟩
  · exact ⟨h.held, h.armed⟩
  · rw [h.glitch] at hg
    cases hg
  · exact ⟨h.held, h.armed⟩
  · rw [h.glitch] at hg
    cases hg

theorem Inv.safe {c : EngineConfig} {s : Scene (Taped ω)} (h : Inv c s) : Safe s where
  single := h.held_length_le
  gap := h.coherent.gap
  idle := h.coherent.idle
  tried := fun _ _ _ ht hk => h.grip.tried ht hk

theorem Inv.stop_idle {E : Setup ω} {s : Scene (Taped ω)} (hN : E.SteadyWaits) (h : Inv E.config s) :
    Idle (stop E.taped s).2.session :=
  Ends.after ((stop_fine hN h.coherent.idle h.grip).mono (fun _ _ ht => ht.1) (fun _ _ ht => ht.1))

/-- **Whichever key calls fault**, after every run the session is in order, and a stop leaves it idle, whether the stop
itself returns or faults. -/
theorem run_safe {E : Setup ω} (hN : E.SteadyWaits) (g : Generator) (w : ω) (calls : List Call) :
    Safe (run E.taped calls (Scene.fresh g w)) ∧
      Idle (stop E.taped (run E.taped calls (Scene.fresh g w))).2.session := by
  have h : Inv E.config (run E.taped calls (Scene.fresh g w)) := run_inv hN (inv_fresh E.config g w) calls
  exact ⟨h.safe, h.stop_idle hN⟩

/-- on a bench where no release succeeds -/
theorem run_safe_noRelease :
    Safe (run (Setup.taped ⟨{}, .mean, Bench.rig⟩) [.start .og 0 1, .tick 1000, .tick 1000]
        (Scene.fresh .default { faulty := fun d _ => d = .up })) ∧
      Idle (stop (Setup.taped ⟨{}, .mean, Bench.rig⟩)
        (run (Setup.taped ⟨{}, .mean, Bench.rig⟩) [.start .og 0 1, .tick 1000, .tick 1000]
          (Scene.fresh .default { faulty := fun d _ => d = .up }))).2.session :=
  run_safe (Noise.mean_steady _ (by decide +kernel) (by decide +kernel) (by decide +kernel)) _ _ _

end KeyHold.Session
