/-
The rate of the scan.

How often a session is ticked makes no difference to what it does, only to when it notices. A tick that comes too early
does nothing at all, so ticks like that may be put into a run or left out of it: the other steps stay the same, each
with the scene it finds, the way it ends and the scene it leaves. And a tick that does not come too early makes one
transition, however long ago the last one was.

- `Padded`: a run with early ticks put in. `Padded.steps_sublist`, `Padded.run_eq`: its other steps, and its end.
- `ticks_oneTransition`: **every tick** of a session, early or not, and every run of ticks among others.
-/
import Mathlib.Tactic
import KeyHold.Proofs.Session.Transition

namespace KeyHold

variable {ω : Type}

namespace Session

open Act Tape

/-! ## Runs with early ticks put in -/

/-- each call of a run with the scene it finds, the way it ends and the scene it leaves -/
def steps (E : Setup ω) : List Call → Scene ω → List (Scene ω × Call × Except Fault Unit × Scene ω)
  | [], _ => []
  | call :: calls, s => (s, call, call.act E s) :: steps E calls (step E s call)

/-- from `s`, the second list of calls is the first with early ticks put in -/
inductive Padded (E : Setup ω) : Scene ω → List Call → List Call → Prop
  | nil (s : Scene ω) : Padded E s [] []
  | call {s : Scene ω} {calls more : List Call} (call : Call) (h : Padded E (step E s call) calls more) :
      Padded E s (call :: calls) (call :: more)
  | tick {s : Scene ω} {calls more : List Call} {now : ℤ} (early : Early E.config s.session now)
      (h : Padded E s calls more) : Padded E s calls (.tick now :: more)

section

variable {E : Setup ω} {s : Scene ω} {calls more : List Call}

theorem step_early {now : ℤ} (h : Early E.config s.session now) : step E s (.tick now) = s := by
  have ht : tick E now s = (.ok (), s) := tick_early h
  exact congrArg Prod.snd ht

theorem run_early {times : List ℤ} (h : ∀ now ∈ times, Early E.config s.session now) :
    run E (times.map fun now => .tick now) s = s := by
  induction times with
  | nil => rfl
  | cons now times ih =>
    obtain ⟨hnow, htimes⟩ := List.forall_mem_cons.1 h
    rw [List.map_cons, run, List.foldl_cons, step_early hnow]
    exact ih htimes

theorem Padded.run_eq (h : Padded E s calls more) : run E more s = run E calls s := by
  induction h with
  | nil s => rfl
  | call c h ih => exact ih
  | tick early h ih =>
    rw [run, List.foldl_cons, step_early early]
    exact ih

/-- the other steps are the same, in the same order -/
theorem Padded.steps_sublist (h : Padded E s calls more) : (steps E calls s).Sublist (steps E more s) := by
  induction h with
  | nil s => exact List.Sublist.slnil
  | call c h ih => exact ih.cons_cons _
  | tick early h ih =>
    rw [steps, step_early early]
    exact ih.cons _

end

/-! ## One transition -/

variable {E : Setup ω} {modes : List Policy}

/-- a transition begins one phase at most -/
theorem Transition.phases_le {now : ℤ} {x y : Session} {new : Tape} (h : Transition E now x y new) :
    y.stats.phases ≤ x.stats.phases + 1 := by
  cases h with
  | timedOut => exact Nat.le_succ _
  | parted => exact Nat.le_succ _
  | advanced => exact le_rfl
  | skipped => exact le_rfl
  | resumed => exact Nat.le_succ _

theorem Smooth.transition {s : Scene (Taped ω)} (hR : E.rig.Reliable) (hc : E.config.Accepted)
    (hN : E.SteadySamples modes) (h : Smooth modes s) {now : ℤ} (he : ¬ Early E.config s.session now) :
    ∃ t new, tick E.taped now s = (.ok (), t) ∧ Smooth modes t ∧ Transition E now s.session t.session new ∧
      t.world.tape = s.world.tape ++ new := by
  obtain ⟨hr, hsmooth, new, hmove, htape⟩ := step_moves hR hc hN h (show Call.Of modes (.tick now) from trivial)
  exact ⟨step E.taped s (.tick now), new, Prod.ext hr rfl, hsmooth, hmove.transition he, htape⟩

/-- **One transition for each tick, at any rate of the scan.** Take any session that any calls have led to, on a rig
whose key calls never fault and with finite samples. A tick that comes too early returns and leaves session and world
as they are, so a run from here with ticks like that put in has the same other steps and the same end. Any other tick
returns and makes one transition, by the key calls of which the tape grows, and begins one phase at most. -/
theorem ticks_oneTransition (hR : E.rig.Reliable) (hc : E.config.Accepted) (hN : E.SteadySamples modes) (g : Generator)
    (w : ω) (before : List Call) (hm : ∀ call ∈ before, call.Of modes) :
    let s := run E.taped before (Scene.fresh g w)
    (∀ now, Early E.config s.session now → tick E.taped now s = (.ok (), s)) ∧
      (∀ calls more, Padded E.taped s calls more →
        (steps E.taped calls s).Sublist (steps E.taped more s) ∧ run E.taped more s = run E.taped calls s) ∧
      ∀ now, ¬ Early E.config s.session now → ∃ t new, tick E.taped now s = (.ok (), t) ∧
        Transition E now s.session t.session new ∧ t.world.tape = s.world.tape ++ new ∧
        t.session.stats.phases ≤ s.session.stats.phases + 1 := by
  intro s
  have h : Smooth modes s := run_smooth hR hc hN (smooth_fresh g w) hm
  refine ⟨?_, ?_, ?_⟩
  · intro now hearly
    exact tick_early hearly
  · intro calls more hpad
    exact ⟨hpad.steps_sublist, hpad.run_eq⟩
  · intro now hnot
    obtain ⟨t, new, htick, -, htrans, htape⟩ := h.transition hR hc hN hnot
    exact ⟨t, new, htick, htrans, htape, htrans.phases_le⟩

/-- the setup by default, but one hold in `n` is split; without noise, on a rig on which nothing comes of anything -/
def plain (n : ℤ) : Setup Unit := ⟨{ glitchOneIn := n }, .mean, .quiet⟩

theorem plain_accepted (n : ℤ) : (plain n).config.Accepted := EngineConfig.accepted_default

theorem plain_samples (n : ℤ) (modes : List Policy)
    (hhold : ∀ p ∈ modes, ∀ ph ∈ p.phases, Decimal.Finite (Normal.atLeast 50.0 ph.mean)) :
    (plain n).SteadySamples modes := by
  refine ⟨Noise.mean_steady _ ?_ ?_ ?_, fun p hp ph hph _ => hhold p hp ph hph, fun _ => ?_⟩
  · show Decimal.Finite 1500.0
    decide +kernel
  · show Decimal.Finite 500.0
    decide +kernel
  · show Decimal.Finite 300.0
    decide +kernel
  · show Decimal.Finite (Normal.atLeast 20.0 80.0)
    decide +kernel

/-- a session whose hold of 900 ms is ticked at 899 ms and at 900 ms -/
theorem ticks_oneTransition_og :
    let s := run (plain 20).taped [.start .og 0 1] (Scene.fresh .default ())
    tick (plain 20).taped 899 s = (.ok (), s) ∧ ∃ t new, tick (plain 20).taped 900 s = (.ok (), t) ∧
      Transition (plain 20) 900 s.session t.session new ∧ t.world.tape = s.world.tape ++ new ∧
      t.session.stats.phases ≤ s.session.stats.phases + 1 := by
  obtain ⟨hquiet, -, hmove⟩ := ticks_oneTransition (E := plain 20) Rig.quiet_reliable (plain_accepted 20)
    (plain_samples 20 Policy.builtin (by decide +kernel)) .default () [.start .og 0 1] (by simp [Call.Of, Policy.builtin])
  intro s
  have hwhole : (wholePart s.session.target).toOption = some 900 := by decide +kernel
  have hn : wholePart s.session.target = .ok 900 := by
    cases hw : wholePart s.session.target with
    | error e => rw [hw] at hwhole; cases hwhole
    | ok n => rw [hw] at hwhole; rw [Option.some.inj hwhole]
  have hearly : Early (plain 20).config s.session 899 := by
    refine Or.inr ⟨?_, Or.inr ⟨?_, ?_, 900, hn, ?_⟩⟩
    · show elapsed 899 s.session.startedAt < 150000
      decide +kernel
    · exact Option.isNone_iff_eq_none.1 (by decide +kernel)
    · decide +kernel
    · decide +kernel
  have hlate : ¬ Early (plain 20).config s.session 900 := by
    rintro (hnone | ⟨-, ⟨gl, hgl, -⟩ | ⟨-, -, m, hm, hlt⟩⟩)
    · have hactive : s.session.policy.isSome = true := by decide +kernel
      rw [hnone] at hactive
      cases hactive
    · have hgap : s.session.glitch.isNone = true := by decide +kernel
      rw [hgl] at hgap
      cases hgap
    · obtain rfl : 900 = m := Except.ok.inj (hn.symm.trans hm)
      revert hlt
      decide +kernel
  exact ⟨hquiet 899 hearly, hmove 900 hlate⟩

end Session
end KeyHold
