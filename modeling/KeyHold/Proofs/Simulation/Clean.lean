/-
Simulations end clean.

A simulation toggles its mode on, takes its turns, and stops by force. All of that returns, with nothing down and never
more than one key down at once. What remains is the report, which divides each hold by a thousand as a double: a hold
that lasts for more microseconds than a double can count has no report, and this is the only way in which there is
none.

- `Course`: how the simulation of a plan goes, up to the report.
- `simulate_clean`: **every simulation** of an accepted configuration with finite samples ends clean, and has a report
  unless one of its holds is overlong.
- `simulate_unreported`: two steps near the end of the range of doubles are such a hold.
-/
import Mathlib.Tactic
import KeyHold.Proofs.Simulation.Holds
import KeyHold.Proofs.Simulation.Turns

namespace KeyHold

namespace Simulation

open Session Tape Recorder

/-- how a simulation goes: the mode is toggled on, the turns tick at the scenes `seen` until `t`, and a forced stop
leaves `u` -/
structure Course (noise : Noise) (p : Plan) (endUs : ℤ) (seen : List (Scene Bench)) (t u : Scene Bench) : Prop where
  endsAt : wholePart (p.seconds * 1000000.0) = .ok endUs
  turns : ∃ s, (p.driver noise).toggle p.policy.name none p.scene = (.ok (), s) ∧
    Turns (p.driver noise) p.stepMs endUs s seen t ∧ seen.length ≤ (endUs - s.world.clock.nowUs).toNat
  stopped : (p.driver noise).forceStop t = (.ok (), u)

variable {noise : Noise} {p : Plan} {endUs : ℤ} {seen : List (Scene Bench)} {t u : Scene Bench}

/-- the whole run follows its course -/
theorem Course.session_eq (h : Course noise p endUs seen t u) :
    (session (p.driver noise) p).run p.scene = (.ok (), u) := by
  obtain ⟨s, htoggle, hturns, hlength⟩ := h.turns
  show session (p.driver noise) p p.scene = _
  rw [session, bind_run, htoggle]
  dsimp only
  rw [h.endsAt, bind_run]
  show (loop (p.driver noise) p.stepMs endUs (endUs - s.world.clock.nowUs).toNat >>= fun _ =>
    (p.driver noise).forceStop) s = _
  rw [bind_run, hturns.loop_eq hlength]
  exact h.stopped

/-- a step that is not below the resolution of the clock leaves the report to be made -/
theorem Course.simulate_eq (h : Course noise p endUs seen t u) (hstep : ¬ p.stepMs < leastStepMs) :
    (simulate noise p).1 = report p u := by
  rw [simulate, if_neg hstep, h.session_eq]
  cases hr : report p u with
  | error e => simp only [hr]; rfl
  | ok r => simp only [hr]; rfl

/-! ## What is recorded in the end -/

variable {modes : List Policy} {starts : ℕ} {s : Scene (Taped Bench)}

/-- once nothing runs each press has been followed by its release, and the counters bound their number -/
theorem Kept.paired (h : Kept modes starts s) (hp : s.session.policy = none) :
    Paired s.world.world.recorder.history.toList ∧ s.world.world.recorder.history.size / 2 ≤
      s.session.stats.phases + s.session.stats.bounces + s.session.stats.glitches := by
  obtain ⟨hheld, -⟩ := h.idle hp
  constructor
  · obtain ⟨keys, hkeys⟩ := h.smooth.grip.word h.smooth.taken.not_faulted
    rw [hheld, List.map_nil, List.append_nil] at hkeys
    exact paired_of_word (h.witnessed.history.trans hkeys)
  · have hsize : s.world.world.recorder.history.size = s.world.tape.length := by
      have hlength := congrArg List.length h.witnessed.history
      simpa using hlength
    have hall := taken_add h.smooth.taken
    have hdowns := h.accounted.held
    have hmost := h.accounted.most
    rw [hheld, List.length_nil] at hdowns
    omega

/-! ## The parts of a run -/

/-- the toggle starts the mode -/
theorem toggle_begins {name : String} (hname : p.policy.name = .str name) (hc : p.config.Accepted)
    (hN : (p.driver noise).setup.SteadySamples [p.policy]) :
    ∃ t : Scene (Taped Bench), (p.driver noise).toggle p.policy.name none p.scene = (.ok (), t.untaped) ∧
      Kept [p.policy] 1 t ∧ Live p t.session := by
  have hfresh : Kept [p.policy] 0 (Scene.fresh .default p.scene.world) := by
    refine ⟨smooth_fresh _ _, ⟨⟨fun _ _ => rfl, allTaken_nil, rfl, rfl, [], List.prefix_refl _, le_rfl⟩, ?_⟩, ?_⟩
    · exact fun h => absurd h (lt_irrefl 0)
    · exact accounted_fresh _
  have hget : (p.driver noise).taped.registry.get p.policy.name = .ok p.policy := by
    have hfind : [p.policy].find? (fun q => q.name.same p.policy.name) = some p.policy := by
      rw [List.find?_cons, hname, Value.same_str, beq_self_eq_true]
    rw [Registry.get, show (p.driver noise).taped.registry.find? p.policy.name = some p.policy from hfind]
  have hnot : Value.null.same p.policy.name = false := by
    rw [hname]
    simp [Value.same, Value.quotient?]
  obtain ⟨now, entropy, w, hcall⟩ : ∃ now entropy w, (Driver.Call.toggle p.policy.name none).onSession
      (p.driver noise).taped (Scene.fresh .default p.scene.world) = .ok (.start p.policy now entropy, w) := by
    rw [Driver.Call.onSession, hget]
    dsimp only
    rw [show (Scene.fresh .default p.scene.world).session.mode = .null from rfl, hnot]
    exact ⟨_, _, _, rfl⟩
  obtain ⟨t, new, hact, hkept, hmove, -⟩ := hfresh.act hc hN hcall
  exact ⟨t, hact, hkept, hmove.opened.1, hmove.opened.2⟩

/-- the forced stop leaves nothing running -/
theorem forceStop_ends (hc : p.config.Accepted) (hN : (p.driver noise).setup.SteadySamples [p.policy])
    (h : Kept [p.policy] starts s) :
    ∃ t : Scene (Taped Bench), (p.driver noise).forceStop s.untaped = (.ok (), t.untaped) ∧
      Kept [p.policy] starts t ∧ t.session.policy = none ∧ t.session.stats.timeouts = s.session.stats.timeouts := by
  obtain ⟨t, new, hact, hkept, hmove, -⟩ := h.act hc hN (c := .forceStop) rfl
  exact ⟨t, hact, hkept, hmove.closed.1, hmove.closed.2⟩

/-! ## A plain plan -/

/-- a key is held for 900 ms at a time, without bounces and without glitches -/
def plainPlan (seconds stepMs : Float) : Plan where
  policy := { name := .str "m", phases := [⟨"a", 900.0, 0.0⟩] }
  seconds := seconds
  stepMs := stepMs
  config := { bounceOneIn := 0, glitchOneIn := 0, travelStddevUs := 0.0 }

theorem plainPlan_accepted (seconds stepMs : Float) : (plainPlan seconds stepMs).config.Accepted := by
  show EngineConfig.flaw? { bounceOneIn := 0, glitchOneIn := 0, travelStddevUs := 0.0 } = none
  decide +kernel

theorem plainPlan_samples (seconds stepMs : Float) :
    ((plainPlan seconds stepMs).driver .mean).setup.SteadySamples [(plainPlan seconds stepMs).policy] := by
  refine ⟨Noise.mean_steady _ ?_ ?_ ?_, fun p hp ph hph _ => ?_, fun _ => ?_⟩
  · show Decimal.Finite 1500.0
    decide +kernel
  · show Decimal.Finite 500.0
    decide +kernel
  · show Decimal.Finite 300.0
    decide +kernel
  · obtain rfl : p = (plainPlan seconds stepMs).policy := List.mem_singleton.1 hp
    obtain rfl : ph = ⟨"a", 900.0, 0.0⟩ := List.mem_singleton.1 hph
    show Decimal.Finite (Normal.atLeast 50.0 900.0)
    decide +kernel
  · show Decimal.Finite (Normal.atLeast 20.0 80.0)
    decide +kernel

/-! ## The whole run -/

/-- a step of at least the resolution of the clock advances it by a microsecond or more -/
theorem step_advances (hx : Decimal.Finite p.stepMs) (hstep : ¬ p.stepMs < leastStepMs)
    (hmul : Decimal.Finite (p.stepMs * 1000.0)) : ∃ us, wholePart (p.stepMs * 1000.0) = .ok us ∧ 1 ≤ us := by
  obtain ⟨us, hus, h1⟩ := Decimal.truncate_thousandfold hx hstep hmul
  exact ⟨us, wholePart_eq_ok.2 hus, h1⟩

/-- **Simulations end clean.** Take a plan whose policy has a name that is not empty, with an accepted configuration and
finite samples, and with a time and a step that are finite in microseconds, the step not below the resolution of the
clock. Its turns come to an end and all of it returns, with nothing down in the end and one key down at most before.
There is no report if a hold is overlong, and this for want of a double. Otherwise there is one, and it says so; the
mode has timed out, which it does only if the timeout has come at a tick, or the clock has reached the end; and the
holds are no more than phases, bounces and glitches. -/
theorem simulate_clean {name : String} (hname : p.policy.name = .str name) (hne : name ≠ "") (hc : p.config.Accepted)
    (hN : (p.driver noise).setup.SteadySamples [p.policy]) (hseconds : Decimal.Finite (p.seconds * 1000000.0))
    (hx : Decimal.Finite p.stepMs) (hstep : ¬ p.stepMs < leastStepMs) (hmul : Decimal.Finite (p.stepMs * 1000.0)) :
    ∃ endUs seen t u, Course noise p endUs seen t u ∧ (session (p.driver noise) p).run p.scene = (.ok (), u) ∧
      u.world.recorder.asserted = [] ∧ u.world.recorder.maxSimultaneous = 1 ∧
      (Overlong u.world.recorder.history.toList → (simulate noise p).1 = .error .beyondDoubles) ∧
      (¬ Overlong u.world.recorder.history.toList → ∃ r, (simulate noise p).1 = .ok r ∧
        r.endedClean = true ∧ r.maxSimultaneous = 1 ∧
        (r.timedOut = true ∨ endUs ≤ t.world.clock.nowUs) ∧ (r.timedOut = true → ∃ v ∈ seen, Late p.config v) ∧
        (r.holds.map (·.2.count)).sum ≤ r.phases + r.bounces + r.glitches) := by
  obtain ⟨endUs, hend⟩ := wholePart_ok hseconds
  obtain ⟨us, hus, h1⟩ := step_advances hx hstep hmul
  have htruthy : p.policy.name.truthy = true := by
    rw [hname]
    exact bne_iff_ne.2 hne
  obtain ⟨s, htoggle, hs, hlive⟩ := toggle_begins hname hc hN
  obtain ⟨seen, t, hturns, hlength, ht, hcases⟩ := turns_end htruthy hc hN hus h1 endUs hs hlive
  obtain ⟨u, hstop, hu, hidle, htimeouts⟩ := forceStop_ends hc hN ht
  have hcourse : Course noise p endUs seen t.untaped u.untaped :=
    ⟨hend, ⟨s.untaped, htoggle, hturns, hlength⟩, hstop⟩
  have hdown : u.world.world.recorder.asserted = [] := (hu.idle hidle).2
  have hmost : u.world.world.recorder.maxSimultaneous = 1 := hu.maxSimultaneous Nat.one_pos
  obtain ⟨hpaired, hholds⟩ := hu.paired hidle
  obtain ⟨hover, hlate⟩ := timeouts_or_end hcases
  rw [← htimeouts] at hover hlate
  have hreport := hcourse.simulate_eq hstep
  refine ⟨endUs, seen, t.untaped, u.untaped, hcourse, hcourse.session_eq, hdown, hmost, fun ho => ?_, fun ho => ?_⟩
  · exact hreport.trans (report_overlong hpaired ho)
  obtain ⟨stats, hok, hsum⟩ := report_countable (p := p) (s := u.untaped) hpaired ho
  refine ⟨_, hreport.trans hok, ?_, ?_, ?_, ?_, ?_⟩
  · exact List.isEmpty_iff.2 hdown
  · exact congrArg Nat.cast hmost
  · exact hover.imp_left decide_eq_true
  · exact fun htimedOut => hlate (of_decide_eq_true htimedOut)
  · refine hsum.trans ?_
    show ((u.world.world.recorder.history.size / 2 : ℕ) : ℤ) ≤
      u.session.stats.phases + u.session.stats.bounces + u.session.stats.glitches
    exact_mod_cast hholds

/-- three seconds in steps of half a second -/
theorem simulate_clean_plain :
    ∃ r, (simulate .mean (plainPlan 3.0 500.0)).1 = .ok r ∧ r.endedClean = true ∧ r.maxSimultaneous = 1 := by
  obtain ⟨endUs, seen, t, u, -, -, -, -, hoverlong, hreport⟩ := simulate_clean (p := plainPlan 3.0 500.0) rfl
    (by decide) (plainPlan_accepted _ _) (plainPlan_samples _ _) (by decide +kernel) (by decide +kernel)
    (by decide +kernel) (by decide +kernel)
  have hok : (simulate .mean (plainPlan 3.0 500.0)).1.isOk = true := by decide +kernel
  by_cases ho : Overlong u.world.recorder.history.toList
  · rw [hoverlong ho] at hok
    cases hok
  · obtain ⟨r, hr, hclean, hone, -⟩ := hreport ho
    exact ⟨r, hr, hclean, hone⟩

/-- two steps of 2^1014 ms each: the key goes down in the first millisecond, the stamps are the same after each step,
and the hold of 2^1015 ms that the forced stop ends has more microseconds than a double can count -/
theorem simulate_unreported :
    let p := plainPlan 1.79e302 1.7555597020139804e305
    p.policy.name = .str "m" ∧ p.config.Accepted ∧ (p.driver .mean).setup.SteadySamples [p.policy] ∧
      Decimal.Finite (p.seconds * 1000000.0) ∧ Decimal.Finite p.stepMs ∧ ¬ p.stepMs < leastStepMs ∧
      Decimal.Finite (p.stepMs * 1000.0) ∧ (simulate .mean p).1 = .error .beyondDoubles := by
  intro p
  have hstep : ¬ p.stepMs < leastStepMs := by decide +kernel
  have hhistory : ((session (p.driver .mean) p).run p.scene).2.world.recorder.history.toList =
      [⟨1500, .down, "a"⟩, ⟨1500 + 250 * 2 ^ 1017, .up, "a"⟩] := by decide +kernel
  have hnone : Decimal.ofInt? (1500 + 250 * 2 ^ 1017 - 1500) = none := by decide +kernel
  have hreport : report p ((session (p.driver .mean) p).run p.scene).2 = .error .beyondDoubles := by
    apply report_overlong <;> rw [hhistory]
    · exact .hold .nil
    · exact ⟨[], 1500, 1500 + 250 * 2 ^ 1017, "a", [], rfl, hnone⟩
  refine ⟨rfl, plainPlan_accepted _ _, plainPlan_samples _ _, ?_, ?_, hstep, ?_, ?_⟩
  · decide +kernel
  · decide +kernel
  · decide +kernel
  · have hok : ((session (p.driver .mean) p).run p.scene).1.isOk = true := by decide +kernel
    rw [simulate, if_neg hstep]
    rcases hrun : (session (p.driver .mean) p).run p.scene with ⟨_ | _, u⟩ <;> rw [hrun] at hok hreport
    · cases hok
    · dsimp only
      rw [show ((.ok () : Except Fault Unit) >>= fun _ => report p u) = report p u from rfl, hreport]

end Simulation
end KeyHold
