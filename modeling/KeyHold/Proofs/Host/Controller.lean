/-
The controller follows the session.

A host's key calls go to the controller through a network that loses commands. A press that is lost is forgotten, a
release that is lost after its second try is counted. A call delivers one line at most, so the controller changes at
most once in each. It never learns of a press that the session did not make, so what it holds beyond the keys that are
down is due to lost releases.

- `Followed`: the invariant, of a host's world on tape: the keys that the controller holds and that are not down are no
  more than the releases lost.
- `controller_follows`: **at all times** of every run, on every network whose failures can be expected: while no release
  is lost the controller holds at most one key, which is down; and when the session is idle it holds no more keys than
  releases were lost.
-/
import Mathlib.Tactic
import KeyHold.Host.Run
import KeyHold.Proofs.Driver.Film
import KeyHold.Proofs.Effector.Controller
import KeyHold.Proofs.Effector.Delivery

namespace KeyHold

namespace Station

open Tape Wire Link

variable {script : List Outcome} {s : Station}

/-- the keys that the controller holds -/
def controllerHeld (script : List Outcome) (s : Station) : List String :=
  Controller.held (delivered script s.forwarder.outlet.wire)

/-- what the controller holds beyond the keys that are down is no more than the releases lost -/
structure Followed (script : List Outcome) (w : Taped Station) : Prop where
  wet : w.world.dry = false
  fair : Fair script w.world.forwarder.outlet.wire
  taken : AllTaken w.tape
  excess : (Controller.excess (controllerHeld script w.world) (asserted w.tape)).length ≤ w.world.forwarder.lost

theorem forward_ok {act : Forwarder.Act Link Unit} (h : (act s.forwarder).1 = .ok ()) :
    s.forward act = (.ok (), { s with forwarder := (act s.forwarder).2 }) := by
  show ((act s.forwarder).1, _) = _
  rw [h]

theorem key_down (hs : s.dry = false) (hw : Fair script s.forwarder.outlet.wire) (k : String) :
    ∃ f, Station.key .down k s = (.ok (), { s with forwarder := f }) ∧ f.lost = s.forwarder.lost ∧
      (Spoken script k "down" s.forwarder.outlet.wire f.outlet.wire ∨
        Silent script s.forwarder.outlet.wire f.outlet.wire) := by
  obtain ⟨_, hr, h⟩ := (Forwarder.keyDown_ends hw k).returns
  refine ⟨_, ?_, h⟩
  rw [key, if_neg (by simp [hs])]
  exact forward_ok hr

theorem key_up (hs : s.dry = false) (hw : Fair script s.forwarder.outlet.wire) (k : String) :
    ∃ f, Station.key .up k s = (.ok (), { s with forwarder := f }) ∧
      ((f.lost = s.forwarder.lost ∧ Spoken script k "up" s.forwarder.outlet.wire f.outlet.wire) ∨
        (f.lost = s.forwarder.lost + 1 ∧ Silent script s.forwarder.outlet.wire f.outlet.wire)) := by
  obtain ⟨_, hr, h⟩ := (Forwarder.keyUp_ends hw k).returns
  refine ⟨_, ?_, h⟩
  rw [key, if_neg (by simp [hs])]
  exact forward_ok hr

/-- the controller after a command is delivered -/
theorem held_spoken {w w' : Wire} {k : String} (d : Direction) (h : Spoken script k d.name w w') :
    Controller.held (delivered script w') = effect (Controller.held (delivered script w)) ⟨d, k, true⟩ := by
  obtain ⟨timestamp, ht⟩ := h.line
  rw [ht, Controller.held_snoc]

/-- a call that is delivered -/
theorem Followed.delivered {w : Taped Station} (hw : Followed script w) {d : Direction} {k : String}
    {f : Forwarder Link} (hl : f.lost = w.world.forwarder.lost)
    (h : Spoken script k d.name w.world.forwarder.outlet.wire f.outlet.wire) :
    Followed script ⟨{ w.world with forwarder := f }, w.tape ++ [⟨d, k, true⟩]⟩ := by
  have hn := Controller.held_nodup (Wire.delivered script w.world.forwarder.outlet.wire)
  refine ⟨hw.wet, h.fair, hw.taken.snoc _ _, ?_⟩
  calc (Controller.excess (Controller.held (Wire.delivered script f.outlet.wire))
        (asserted (w.tape ++ [⟨d, k, true⟩]))).length
      ≤ (Controller.excess (controllerHeld script w.world) (asserted w.tape)).length := by
        rw [held_spoken d h, asserted_snoc]
        exact Controller.excess_effect hn (asserted_nodup w.tape) d k
    _ ≤ w.world.forwarder.lost := hw.excess
    _ = f.lost := hl.symm

/-- a press that is not delivered -/
theorem Followed.missed {w : Taped Station} (hw : Followed script w) {k : String} {f : Forwarder Link}
    (hl : f.lost = w.world.forwarder.lost) (h : Silent script w.world.forwarder.outlet.wire f.outlet.wire) :
    Followed script ⟨{ w.world with forwarder := f }, w.tape ++ [⟨.down, k, true⟩]⟩ := by
  have hn := Controller.held_nodup (Wire.delivered script w.world.forwarder.outlet.wire)
  refine ⟨hw.wet, h.fair, hw.taken.snoc _ _, ?_⟩
  calc (Controller.excess (Controller.held (Wire.delivered script f.outlet.wire))
        (asserted (w.tape ++ [⟨.down, k, true⟩]))).length
      ≤ (Controller.excess (controllerHeld script w.world) (asserted w.tape)).length := by
        rw [h.same, asserted_snoc]
        exact Controller.excess_missed hn k
    _ ≤ w.world.forwarder.lost := hw.excess
    _ = f.lost := hl.symm

/-- a release that is not delivered -/
theorem Followed.lost {w : Taped Station} (hw : Followed script w) {k : String} {f : Forwarder Link}
    (hl : f.lost = w.world.forwarder.lost + 1) (h : Silent script w.world.forwarder.outlet.wire f.outlet.wire) :
    Followed script ⟨{ w.world with forwarder := f }, w.tape ++ [⟨.up, k, true⟩]⟩ := by
  have hn := Controller.held_nodup (Wire.delivered script w.world.forwarder.outlet.wire)
  refine ⟨hw.wet, h.fair, hw.taken.snoc _ _, ?_⟩
  calc (Controller.excess (Controller.held (Wire.delivered script f.outlet.wire))
        (asserted (w.tape ++ [⟨.up, k, true⟩]))).length
      ≤ (Controller.excess (controllerHeld script w.world) (asserted w.tape)).length + 1 := by
        rw [h.same, asserted_snoc]
        exact Controller.excess_lost hn (asserted_nodup w.tape) k
    _ ≤ w.world.forwarder.lost + 1 := Nat.add_le_add_right hw.excess 1
    _ = f.lost := hl.symm

theorem Followed.down {w : Taped Station} (hw : Followed script w) (k : String) :
    Followed script (Station.rig.taped.keyDown k w).2 := by
  obtain ⟨f, hf, hlost, h⟩ := key_down hw.wet hw.fair k
  show Followed script ⟨(Station.key .down k w.world).2, w.tape ++ [⟨.down, k, (Station.key .down k w.world).1.isOk⟩]⟩
  rw [hf]
  rcases h with h | h
  · exact hw.delivered hlost h
  · exact hw.missed hlost h

theorem Followed.up {w : Taped Station} (hw : Followed script w) (k : String) :
    Followed script (Station.rig.taped.keyUp k w).2 := by
  obtain ⟨f, hf, h⟩ := key_up hw.wet hw.fair k
  show Followed script ⟨(Station.key .up k w.world).2, w.tape ++ [⟨.up, k, (Station.key .up k w.world).1.isOk⟩]⟩
  rw [hf]
  rcases h with ⟨hlost, h⟩ | ⟨hlost, h⟩
  · exact hw.delivered hlost h
  · exact hw.lost hlost h

theorem followed_keeps : Station.rig.taped.Keeps (Followed script) where
  rig :=
    { down := fun k _ hw => hw.down k
      up := fun k _ hw => hw.up k
      wait := fun _ _ hw => ⟨hw.wet, hw.fair, hw.taken, hw.excess⟩
      note := fun _ _ hw => ⟨hw.wet, hw.fair, hw.taken, hw.excess⟩ }
  entropy := fun _ hw => ⟨hw.wet, hw.fair, hw.taken, hw.excess⟩
  changed := fun _ _ hw => ⟨hw.wet, hw.fair, hw.taken, hw.excess⟩

/-- while no release is lost the controller holds only what is down -/
theorem Followed.subset {w : Taped Station} (hw : Followed script w) (hl : w.world.forwarder.lost = 0) :
    ∀ k ∈ controllerHeld script w.world, k ∈ asserted w.tape := by
  intro k hk
  by_contra hd
  have hex := List.length_pos_of_mem (Controller.mem_excess.2 ⟨hk, hd⟩)
  have := hw.excess
  omega

/-- when nothing is down the controller holds no more keys than releases were lost -/
theorem Followed.length_le {w : Taped Station} (hw : Followed script w) (hd : asserted w.tape = []) :
    (controllerHeld script w.world).length ≤ w.world.forwarder.lost := by
  have hall : Controller.excess (controllerHeld script w.world) [] = controllerHeld script w.world := by
    simp [Controller.excess]
  have h := hw.excess
  rwa [hd, hall] at h

/-- before the first call -/
theorem followed_fresh (hs : s.dry = false) (hc : s.forwarder.outlet.wire.calls = #[])
    (hm : s.forwarder.outlet.wire.AllMild) : Followed s.forwarder.outlet.wire.sends ⟨s, []⟩ := by
  obtain ⟨hf, hd⟩ := fair_fresh hc hm
  refine ⟨hs, hf, allTaken_nil, ?_⟩
  rw [controllerHeld, hd]
  exact Nat.zero_le _

end Station

/-! ## Runs -/

namespace Driver

open Tape Session Station

/-- a run on a station, on tape and on film -/
def onAir (D : Driver Station) (g : Generator) (s : Station) (ops : List Operation) : Scene (Filmed (Taped Station)) :=
  D.taped.filmed.operations ops ⟨{ generator := g }, ⟨⟨s, []⟩, []⟩⟩

/-- the controller follows the session -/
structure InStep (script : List Outcome) (t : Scene (Filmed (Taped Station))) : Prop where
  /-- while no release is lost, all that the controller holds is down -/
  subset : ∀ w ∈ t.world.world :: t.world.film, w.world.forwarder.lost = 0 →
    ∀ k ∈ controllerHeld script w.world, k ∈ asserted w.tape
  single : ∀ w ∈ t.world.world :: t.world.film, w.world.forwarder.lost = 0 →
    (controllerHeld script w.world).length ≤ 1
  /-- when the session is idle, the controller holds no more keys than releases were lost -/
  idle : t.session.policy = none →
    (controllerHeld script t.world.world.world).length ≤ t.world.world.world.forwarder.lost

/-- **The controller follows the session** at all times of every run, through every network whose failures can be
expected. -/
theorem controller_follows {D : Driver Station} (hD : D.host = Station.rig) (hN : D.setup.SteadyWaits) {s : Station}
    (hs : s.dry = false) (hc : s.forwarder.outlet.wire.calls = #[]) (hm : s.forwarder.outlet.wire.AllMild)
    (g : Generator) (ops : List Operation) : InStep s.forwarder.outlet.wire.sends (D.onAir g s ops) := by
  have hkeep : D.host.taped.Keeps (Followed s.forwarder.outlet.wire.sends) := hD ▸ followed_keeps
  obtain ⟨hnow, hpast⟩ := run_keeps (D := D.taped.filmed) hkeep.filmed (s := ⟨{ generator := g }, ⟨⟨s, []⟩, []⟩⟩)
    ⟨followed_fresh hs hc hm, fun v hv => by cases hv⟩ ops
  have hfilm := run_keeps (D := D.taped.filmed) D.host.taped_filmed_keeps (s := ⟨{ generator := g }, ⟨⟨s, []⟩, []⟩⟩)
    (fun v hv => by cases hv) ops
  have hi : Inv D.config (D.onAir g s ops).unfilmed := by
    rw [onAir, run_filmed]
    exact run_inv hN (inv_fresh D.config g s) ops
  have hframe : ∀ w ∈ (D.onAir g s ops).world.world :: (D.onAir g s ops).world.film,
      Followed s.forwarder.outlet.wire.sends w ∧ w.tape <+: (D.onAir g s ops).world.world.tape := by
    intro w hw
    rcases List.mem_cons.1 hw with rfl | hw
    · exact ⟨hnow, List.prefix_refl _⟩
    · exact ⟨hpast w hw, hfilm w hw⟩
  refine ⟨fun w hw hl => (hframe w hw).1.subset hl, fun w hw hl => ?_, fun hidle => ?_⟩
  · -- a frame's tape is a beginning of the session's, so one key is down at most
    obtain ⟨hf, hpre⟩ := hframe w hw
    obtain ⟨held, hg⟩ := hi.grip.beginning hpre.choose_spec.symm
    calc (controllerHeld s.forwarder.outlet.wire.sends w.world).length
        ≤ (asserted w.tape).length := (List.subperm_of_subset (Controller.held_nodup _) (hf.subset hl)).length_le
      _ = held.length := congrArg List.length (hg.asserted_eq hf.taken.not_faulted)
      _ ≤ 1 := hg.length_le
  · have hdown : asserted (D.onAir g s ops).world.world.tape = [] :=
      (hi.grip.asserted_eq hnow.taken.not_faulted).trans (hi.coherent.idle hidle).held
    exact hnow.length_le hdown

/-- a network on which the second and third send fail, so that the first release is lost -/
def lossy : Wire where
  sends := [.success, .failure ⟨"TimeoutError", "timed out"⟩, .failure ⟨"BrokenPipeError", "broken pipe"⟩]

theorem controller_follows_lossy :
    InStep lossy.sends (onAir ⟨.builtin, {}, .mean, Station.rig⟩ .default
      { forwarder := { outlet := { wire := lossy } } }
      [.session (.start .og 0 1), .driver (.tick (some 1000)), .driver .forceStop]) := by
  refine controller_follows (s := { forwarder := { outlet := { wire := lossy } } }) rfl ?_ rfl rfl (by decide) _ _
  exact Noise.mean_steady _ (by decide +kernel) (by decide +kernel) (by decide +kernel)

end Driver
end KeyHold
