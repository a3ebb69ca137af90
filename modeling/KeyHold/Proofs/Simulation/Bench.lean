/-
A session on a sound bench.

A bench is sound when no key call on it fails. What its driver then does is what it would do on a bench whose key calls
cannot fail (`act_steady`), so all that is known of runs on a reliable rig holds there, and the recorder has it in
writing.

- `Kept modes starts s`: the session has run smoothly through so many starts; the recorder has its key calls, and the
  counters account for them.
- `Kept.act`: **every entry point** that comes to a call on the session returns, makes one move, keeps this, and does
  not turn the clock back.
- `Kept.maxSimultaneous`: after a start exactly one key was ever down at once.
-/
import Mathlib.Tactic
import KeyHold.Simulation.Basic
import KeyHold.Proofs.Driver.Entry
import KeyHold.Proofs.Session.Alternation
import KeyHold.Proofs.Session.Counters

namespace KeyHold

/-! ## A bench that cannot fail -/

namespace Bench

/-- the bench with key calls that are recorded in any case -/
def steadyHost : HostRig Bench where
  toRig := { rig with
    keyDown := fun k b => (.ok (), (b.record k .down).count .down)
    keyUp := fun k b => (.ok (), (b.record k .up).count .up) }
  stamp := hostRig.stamp
  entropy := hostRig.entropy
  changed := hostRig.changed

theorem steadyHost_reliable : steadyHost.toRig.Reliable := fun _ _ => ⟨rfl, rfl⟩

/-- on a sound bench it makes no difference whether key calls could fail -/
theorem taped_alike : hostRig.taped.Alike (fun v w => v = w ∧ v.world.sound) steadyHost.taped := by
  refine ⟨⟨?_, ?_, ?_, ?_⟩, ?_, ?_, ?_⟩
  · rintro k v _ ⟨rfl, hv⟩
    have hcall : rig.keyDown k v.world = (.ok (), (v.world.record k .down).count .down) := Session.call_sound hv .down k
    simp only [HostRig.taped, Rig.taped, hostRig, steadyHost, hcall]
    exact ⟨trivial, trivial, hv⟩
  · rintro k v _ ⟨rfl, hv⟩
    have hcall : rig.keyUp k v.world = (.ok (), (v.world.record k .up).count .up) := Session.call_sound hv .up k
    simp only [HostRig.taped, Rig.taped, hostRig, steadyHost, hcall]
    exact ⟨trivial, trivial, hv⟩
  · rintro us v _ ⟨rfl, hv⟩
    exact ⟨rfl, hv⟩
  · rintro e v _ ⟨rfl, hv⟩
    exact ⟨rfl, hv⟩
  · rintro v _ ⟨rfl, -⟩
    rfl
  · rintro v _ ⟨rfl, hv⟩
    exact ⟨rfl, rfl, hv⟩
  · rintro mode v _ ⟨rfl, hv⟩
    exact ⟨rfl, hv⟩

end Bench

namespace Simulation

open Session Tape

/-! ## What the recorder shows -/

/-- the recorder has what is on tape, and a key that went down was one key down at once -/
structure Witnessed (w : Taped Bench) : Prop extends Recorded w where
  pressed : 0 < Tape.taken .down w.tape → 1 ≤ w.world.recorder.maxSimultaneous

/-- key calls are witnessed, and nothing turns the clock back -/
theorem witnessed_keeps (a : ℤ) : Bench.hostRig.taped.Keeps fun w => Witnessed w ∧ a ≤ w.world.clock.nowUs := by
  refine ⟨⟨?_, ?_, ?_, ?_⟩, ?_, ?_⟩
  · rintro k w ⟨hw, hclock⟩
    have hrecorded := recorded_keeps.down k w hw.toRecorded
    simp only [HostRig.taped, Rig.taped, Bench.hostRig, Bench.rig, call_sound hw.sound] at hrecorded ⊢
    refine ⟨⟨hrecorded, fun _ => ?_⟩, hclock⟩
    -- the key that goes down is one that is down
    have hmost : (w.world.recorder.keyDown w.world.clock.nowUs k).asserted.length ≤
        (w.world.recorder.keyDown w.world.clock.nowUs k).maxSimultaneous := le_max_right _ _
    have hmem : k ∈ (w.world.recorder.keyDown w.world.clock.nowUs k).asserted := by
      unfold Recorder.keyDown
      dsimp only
      split_ifs with h
      · exact List.contains_iff_mem.1 h
      · exact List.mem_append_right _ (List.mem_singleton_self k)
    exact (List.length_pos_of_mem hmem).trans_le hmost
  · rintro k w ⟨hw, hclock⟩
    have hrecorded := recorded_keeps.up k w hw.toRecorded
    simp only [HostRig.taped, Rig.taped, Bench.hostRig, Bench.rig, call_sound hw.sound] at hrecorded ⊢
    refine ⟨⟨hrecorded, fun h => hw.pressed ?_⟩, hclock⟩
    rwa [taken_append] at h
  · rintro us w ⟨hw, hclock⟩
    refine ⟨⟨recorded_keeps.wait us w hw.toRecorded, hw.pressed⟩, hclock.trans ?_⟩
    show w.world.clock.nowUs ≤ (w.world.clock.wait us).nowUs
    unfold VirtualClock.wait
    dsimp only
    split_ifs <;> omega
  · rintro e w ⟨hw, hclock⟩
    exact ⟨⟨recorded_keeps.note e w hw.toRecorded, hw.pressed⟩, hclock⟩
  · rintro w ⟨hw, hclock⟩
    exact ⟨⟨⟨hw.sound, hw.taken, hw.down, hw.history, hw.most⟩, hw.pressed⟩, hclock⟩
  · rintro mode w ⟨hw, hclock⟩
    exact ⟨⟨⟨hw.sound, hw.taken, hw.down, hw.history, hw.most⟩, hw.pressed⟩, hclock⟩

/-! ## What a bench keeps -/

/-- the session has run smoothly through so many starts, and its key calls are recorded and accounted for -/
structure Kept (modes : List Policy) (starts : ℕ) (s : Scene (Taped Bench)) : Prop where
  smooth : Smooth modes s
  witnessed : Witnessed s.world
  accounted : Accounted starts (Tape.taken .down s.world.tape) (Tape.taken .up s.world.tape) s.session

variable {modes : List Policy} {starts : ℕ} {s : Scene (Taped Bench)}

/-- only what is recorded counts of the bench, as long as it stays sound -/
theorem Kept.moved (h : Kept modes starts s) {b : Bench} (hs : b.sound) (hr : b.recorder = s.world.world.recorder) :
    Kept modes starts ⟨s.session, ⟨b, s.world.tape⟩⟩ := by
  obtain ⟨⟨-, htaken, hdown, hhistory, hmost⟩, hpressed⟩ := h.witnessed
  refine ⟨h.smooth.outside rfl, ⟨⟨hs, htaken, ?_, ?_, ?_⟩, ?_⟩, h.accounted⟩
  · exact hr ▸ hdown
  · exact hr ▸ hhistory
  · exact hr ▸ hmost
  · exact hr ▸ hpressed

/-- nothing is down when nothing runs -/
theorem Kept.idle (h : Kept modes starts s) (hp : s.session.policy = none) :
    s.session.held = [] ∧ s.world.world.recorder.asserted = [] := by
  have hheld := ((Coherent.settled h.smooth.settled).idle hp).held
  have hdown := h.smooth.grip.asserted_eq h.smooth.taken.not_faulted
  exact ⟨hheld, h.witnessed.down.trans (hdown.trans hheld)⟩

/-- after a start exactly one key was ever down at once -/
theorem Kept.maxSimultaneous (h : Kept modes starts s) (h0 : 0 < starts) :
    s.world.world.recorder.maxSimultaneous = 1 := by
  have hdowns : 0 < Tape.taken .down s.world.tape := by
    have hphases := h.accounted.started
    have hleast := h.accounted.least
    have hsessions := h.accounted.sessions
    omega
  apply le_antisymm _ (h.witnessed.pressed hdowns)
  obtain ⟨pre, ⟨post, hpost⟩, hmost⟩ := h.witnessed.most
  obtain ⟨held, hgrip⟩ := h.smooth.grip.beginning hpost.symm
  have hdown := hgrip.asserted_eq (h.smooth.taken.of_prefix ⟨post, hpost⟩).not_faulted
  refine le_trans hmost ?_
  rw [hdown]
  exact hgrip.length_le

/-! ## Entry points -/

variable {p : Plan} {noise : Noise}

/-- the driver of a plan on a bench that cannot fail -/
def Plan.steady (p : Plan) (noise : Noise) : Driver Bench := { p.driver noise with host := Bench.steadyHost }

theorem act_steady (h : s.world.world.sound) (c : Driver.Call) :
    c.act (p.driver noise).taped s = c.act (p.steady noise).taped s := by
  obtain ⟨hend, hsession, hworld, -⟩ := Driver.operate_alike (r := (p.driver noise).registry) (c := p.config)
    (N := noise) Bench.taped_alike (.driver c) s.session s.world s.world ⟨rfl, h⟩
  exact Prod.ext hend (congrArg₂ Scene.mk hsession hworld)

/-- an entry point does the same on the bench that is not taped -/
theorem act_untaped (c : Driver.Call) : c.act (p.driver noise) s.untaped =
    ((c.act (p.driver noise).taped s).1, (c.act (p.driver noise).taped s).2.untaped) := by
  obtain ⟨hend, hsession, hworld⟩ := Driver.operate_alike (r := (p.driver noise).registry) (c := p.config) (N := noise)
    Bench.hostRig.taped_alike (.driver c) s.session s.world s.world.world rfl
  exact Prod.ext hend.symm (congrArg₂ Scene.mk hsession.symm hworld.symm)

/-- **An entry point on a sound bench** that comes to a call on the session returns, makes the move of that call, and
does not turn the clock back. -/
theorem Kept.act (hc : p.config.Accepted) (hN : (p.driver noise).setup.SteadySamples [p.policy])
    (h : Kept [p.policy] starts s) {c : Driver.Call} {call : Session.Call} {w : Taped Bench}
    (hcall : c.onSession (p.driver noise).taped s = .ok (call, w)) :
    ∃ t new, c.act (p.driver noise) s.untaped = (.ok (), t.untaped) ∧ Kept [p.policy] (starts + call.starts) t ∧
      Move (p.steady noise).setup s.session call t.session new ∧
      s.world.world.clock.nowUs ≤ t.world.world.clock.nowUs := by
  -- the same call on the bench that cannot fail
  have hsteady : c.onSession (p.steady noise).taped s = .ok (call, w) := hcall
  obtain ⟨hok, hafter, new, hmove, htape⟩ := Driver.act_moves (D := p.steady noise) Bench.steadyHost_reliable hc
    (hN.onRig _) h.smooth hsteady
  rw [← act_steady h.witnessed.sound] at hok
  rw [Driver.step, ← act_steady h.witnessed.sound] at hafter hmove htape
  -- what the bench itself keeps
  obtain ⟨hkeep, hclock⟩ := Driver.run_keeps (D := (p.driver noise).taped) (witnessed_keeps _)
    ⟨h.witnessed, le_rfl⟩ [.driver c]
  refine ⟨(c.act (p.driver noise).taped s).2, new, ?_, ⟨hafter, hkeep, ?_⟩, hmove, hclock⟩
  · rw [act_untaped, hok]
  · rw [htape, taken_append, taken_append]
    exact hmove.accounted h.accounted

end Simulation
end KeyHold
