/-
How long a key is held.

The floor bounds the target of a hold, and a tick lets go of the key once the time since its phase's stamp has reached
the target. The stamp is in whole milliseconds, and it is read before the key goes down.

- `Turn`, `Driver.play`: a driver that reads all times from the clock of its bench, and whose clock may move between
  its calls (`VirtualClock.jumpTo_eq_pass`, `VirtualClock.advance_eq_pass`).
- `play_timely`: every play keeps the key that is held close to its stamp.
- `hold_floor`: **the floor counts from the stamp**, so a key is down for the floor less what passed between its stamp
  and its press: the rest of a millisecond and at most three waits.
- `hold_below_floor`: with the default travel delay, a hold of 48.5 ms under a floor of 50 ms.
-/
import Mathlib.Tactic
import KeyHold.Proofs.Driver.Operation
import KeyHold.Proofs.Session.Timing

namespace KeyHold

/-- time passes -/
def VirtualClock.pass (us : ℕ) (c : VirtualClock) : VirtualClock := { c with nowUs := c.nowUs + us }

/-- a jump lets time pass -/
theorem VirtualClock.jumpTo_eq_pass (ms : ℤ) (c : VirtualClock) : ∃ us, c.jumpTo ms = c.pass us := by
  unfold jumpTo pass
  split_ifs with h
  · refine ⟨(ms * 1000 - c.nowUs).toNat, ?_⟩
    congr 1
    omega
  · exact ⟨0, by simp⟩

/-- so does a move that is not backward -/
theorem VirtualClock.advance_eq_pass {ms : Float} {c c' : VirtualClock} (h : c.advance ms = .ok c')
    (hle : c.nowUs ≤ c'.nowUs) : ∃ us, c' = c.pass us := by
  unfold advance at h
  cases hw : wholePart (ms * 1000.0) with
  | error e =>
    rw [hw] at h
    cases h
  | ok us =>
    rw [hw] at h
    obtain rfl : { c with nowUs := c.nowUs + us } = c' := Except.ok.inj h
    refine ⟨us.toNat, ?_⟩
    unfold pass
    congr 1
    dsimp only at hle
    omega

namespace Driver

open Act Bench Session

/-- what happens to a driver that reads all times from the clock of its bench -/
inductive Turn where
  | toggle (mode : Value)
  | tick
  | forceStop
  | pass (us : ℕ)

def Turn.act (D : Driver Bench) : Turn → Act Bench Unit
  | .toggle mode => D.toggle mode
  | .tick => D.tick
  | .forceStop => D.forceStop
  | .pass us => outside fun b => { b with clock := b.clock.pass us }

/-- what turns leave, each keeping what a fault left -/
def play (D : Driver Bench) (turns : List Turn) (s : Scene Bench) : Scene Bench :=
  turns.foldl (fun s turn => (turn.act D s).2) s

variable {D : Driver Bench} {s : Scene Bench} {Q : Unit → Scene Bench → Prop} {F : Fault → Scene Bench → Prop}

/-- a driver on a bench, of an accepted configuration, with finite waits and without glitches -/
structure OnBench (D : Driver Bench) : Prop where
  host : D.host = Bench.hostRig
  accepted : D.config.Accepted
  steady : D.setup.SteadyWaits
  whole : D.config.glitchOneIn ≤ 0

theorem OnBench.rig (hD : D.OnBench) : D.setup.rig = Bench.rig := by
  rw [setup, hD.host]
  rfl

theorem ends_stampOr {Q : ℤ → Scene Bench → Prop} :
    Ends (stampOr D none) s Q F ↔ Q (D.host.stamp s.world) s := Iff.rfl

theorem ends_drawEntropy {Q : ℤ → Scene Bench → Prop} :
    Ends (drawEntropy D) s Q F ↔ Q (D.host.entropy s.world).1 ⟨s.session, (D.host.entropy s.world).2⟩ := Iff.rfl

/-- a report of a mode moves nothing -/
theorem notify_moves (hD : D.OnBench) {before : Value} (hs : s.world.sound)
    (hQ : ∀ w, w.sound → w.clock = s.world.clock → w.recorder = s.world.recorder → Q () ⟨s.session, w⟩) :
    Ends (notify D before) s Q F := by
  rw [notify, ends_bind, ends_session]
  dsimp only
  split_ifs
  · rw [ends_outside, hD.host]
    exact hQ _ hs rfl rfl
  · exact hQ _ hs rfl rfl

/-- a call of the session that is followed by a report -/
theorem reported_timely (hD : D.OnBench) {act : Act Bench Unit} {before : Value}
    (h : Ends act s (fun _ t => Timely D.config t) F) :
    Ends (act >>= fun _ => notify D before) s (fun _ t => Timely D.config t) F := by
  rw [ends_bind]
  refine h.mono (fun _ t ht => ?_) (fun _ _ hf => hf)
  exact notify_moves hD ht.sound fun w hw hclock hrec => ht.moved hw (by rw [hclock]) (by rw [hrec])

theorem stop_timely (hD : D.OnBench) (h : Timely D.config s) :
    Ends (Session.stop D.setup) s (fun _ t => Timely D.config t) F := by
  apply stop_passes hD.rig hD.accepted.maxWait_nonneg hD.steady h.sound h.length_le
  · exact fun _ => h
  · exact fun n g w new hw => ⟨hw.sound, rfl, rfl, fun _ => rfl, Or.inl rfl⟩

/-- a tick of the driver at its clock's time -/
theorem tick_timely (hD : D.OnBench) (h : Timely D.config s) :
    Ends D.tick s (fun _ t => Timely D.config t ∧ Ticked s t) (fun _ t => t = s) := by
  rw [tick, ends_bind, ends_session]
  split_ifs
  · rw [ends_bind]
    rw [ends_stampOr, ends_bind, ends_session, ends_bind, hD.host]
    refine (tick_passes hD.rig hD.accepted hD.steady hD.whole h).mono (fun _ t ht => ?_) (fun _ _ hf => hf)
    obtain ⟨ht, hcase⟩ := ht
    refine notify_moves hD ht.sound fun w hw hclock hrec => ⟨ht.moved hw (by rw [hclock]) (by rw [hrec]), ?_⟩
    rcases hcase with hsame | hp | he
    · exact Or.inl ((congrArg Recorder.history hrec).trans hsame)
    · exact Or.inr (Or.inl hp)
    · refine Or.inr (Or.inr fun k hk => ?_)
      obtain ⟨hold, rest, hwhole, hle, hhist⟩ := he k hk
      exact ⟨hold, rest, hwhole, hle, by rw [hrec]; exact hhist⟩
  · exact ⟨h, Or.inl rfl⟩

theorem toggle_timely (hD : D.OnBench) (h : Timely D.config s) (mode : Value) :
    Ends (D.toggle mode) s (fun _ t => Timely D.config t) (fun _ t => Timely D.config t) := by
  rw [toggle, ends_bind, ends_check]
  cases D.registry.get mode with
  | error e => exact h
  | ok p =>
    dsimp only
    rw [ends_bind, ends_session]
    split_ifs
    · exact reported_timely hD (stop_timely hD h)
    · rw [ends_bind, ends_stampOr, ends_bind, ends_drawEntropy, hD.host]
      have moved : Timely D.config ⟨s.session, (Bench.hostRig.entropy s.world).2⟩ := h.moved h.sound le_rfl rfl
      apply reported_timely hD
      exact start_passes hD.rig hD.accepted.maxWait_nonneg hD.steady hD.whole moved p _

/-- **A turn leaves a session timely.** -/
theorem turn_timely (hD : D.OnBench) (h : Timely D.config s) (turn : Turn) :
    Timely D.config (turn.act D s).2 := by
  cases turn with
  | toggle mode => exact (toggle_timely hD h mode).after
  | tick => exact ((tick_timely hD h).mono (fun _ _ ht => ht.1) (fun _ t ht => ht ▸ h)).after
  | forceStop =>
    have hstop : Ends D.forceStop s (fun _ t => Timely D.config t) (fun _ t => Timely D.config t) := by
      rw [forceStop, ends_bind, ends_session]
      exact reported_timely hD (stop_timely hD h)
    exact hstop.after
  | pass us => exact h.moved h.sound (Int.le_add_of_nonneg_right (Int.natCast_nonneg us)) rfl

theorem play_timely (hD : D.OnBench) (h : Timely D.config s) (turns : List Turn) :
    Timely D.config (D.play turns s) := by
  induction turns generalizing s with
  | nil => exact h
  | cons turn turns ih => exact ih (turn_timely hD h turn)

/-- the time elapsed between two stamps is at most that between their times -/
theorem elapsed_stamp_le {a b : ℤ} (h : a ≤ b) :
    elapsed (b / 1000 % 4294967296) (a / 1000 % 4294967296) ≤ b / 1000 - a / 1000 := by
  unfold elapsed
  omega

/-- **How long a key is held.** On a bench, without glitches, let a driver read all times from its clock, and let a
tick let go of the key held without ending the session. The key went down last, at `d`, and goes up next, at `u`; its
phase was stamped with a time `a` at most three waits before `d`, and `u` is no sooner than the floor after the whole
milliseconds of `a`. So the key was down for the floor if nothing passed between stamp and press, and in general for
the floor less what passed. -/
theorem hold_floor (hD : D.OnBench) {floor : ℤ} (hf : wholePart D.config.minHoldMs = .ok floor) (g : Generator)
    {b : Bench} (hb : b.sound) (turns : List Turn) {s t : Scene Bench}
    (hs : D.play turns ⟨{ generator := g }, b⟩ = s) (ht : D.play [.tick] s = t) {k : String}
    (hk : s.session.held = [k]) (ha : t.session.active = true)
    (hu : t.world.recorder.history ≠ s.world.recorder.history) :
    ∃ a d u before rest, s.world.recorder.history.toList = before ++ [⟨d, .down, k⟩] ∧
      t.world.recorder.history.toList = before ++ ⟨d, .down, k⟩ :: ⟨u, .up, k⟩ :: rest ∧
      s.session.phaseAt = a / 1000 % 4294967296 ∧ a ≤ d ∧ d ≤ a + 3 * D.config.maxWaitUs ∧
      1000 * (a / 1000 + floor) ≤ u ∧
      (d ≤ 1000 * (a / 1000) → 1000 * floor ≤ u - d) ∧
      1000 * floor - (999 + 3 * D.config.maxWaitUs) ≤ u - d := by
  have htimely : Timely D.config s := hs ▸ play_timely hD ⟨hb, rfl, rfl, fun _ => rfl, Or.inl rfl⟩ turns
  have hexpired : Expired k s t := by
    have hends : Ends D.tick s (fun _ t => Ticked s t) (fun _ t => Ticked s t) :=
      (tick_timely hD htimely).mono (fun _ _ h => h.2) (fun _ _ h => Or.inl (by rw [h]))
    have hticked : Ticked s t := ht ▸ hends.after
    rcases hticked with hsame | hnone | he
    · exact absurd hsame hu
    · exact absurd hnone (active_iff.1 ha)
    · exact he k hk
  obtain ⟨hold, rest, hwhole, hle, hhist⟩ := hexpired
  obtain ⟨j, a, d, hheld⟩ := htimely.hold.resolve_left (by simp [hk])
  obtain rfl : j = k := by simpa [hheld.held] using hk
  obtain ⟨before, hlast⟩ := hheld.last
  obtain ⟨x, hx⟩ := hheld.target
  have hfloor : floor ≤ hold := wholePart_atLeast hD.accepted.minHold_nonneg hf (hx ▸ hwhole)
  have hreal : hold ≤ s.world.clock.nowUs / 1000 - a / 1000 := by
    rw [hheld.stamp] at hle
    exact hle.trans (elapsed_stamp_le (hheld.since.trans hheld.now))
  have hwaits := hheld.waits
  refine ⟨a, d, s.world.clock.nowUs, before, rest, hlast, ?_, hheld.stamp, hheld.since, hwaits, ?_, fun hd => ?_, ?_⟩
  · rw [hhist, hlast, List.append_assoc]
    rfl
  · omega
  · omega
  · omega

/-- a driver on a bench, of a mode with holds at the floor and a travel delay without noise -/
def brief : Driver Bench :=
  ⟨Registry.ofList [{ name := .str "m", phases := [⟨"a", 10.0, 0.0⟩, ⟨"b", 10.0, 0.0⟩] }],
    { bounceOneIn := 0, glitchOneIn := 0, travelStddevUs := 0.0 }, .mean, Bench.hostRig⟩

theorem brief_onBench : brief.OnBench where
  host := rfl
  accepted := by
    show EngineConfig.flaw? _ = none
    decide +kernel
  steady := Noise.mean_steady _ (by decide +kernel) (by decide +kernel) (by decide +kernel)
  whole := by decide

/-- a hold that ends 60 ms after its start -/
theorem hold_floor_brief :
    ∃ a d u before rest,
      (brief.play [.toggle (.str "m"), .pass 58500] ⟨{ generator := .default }, {}⟩).world.recorder.history.toList =
        before ++ [⟨d, .down, "a"⟩] ∧
      (brief.play [.tick] (brief.play [.toggle (.str "m"), .pass 58500]
        ⟨{ generator := .default }, {}⟩)).world.recorder.history.toList =
          before ++ ⟨d, .down, "a"⟩ :: ⟨u, .up, "a"⟩ :: rest ∧
      (brief.play [.toggle (.str "m"), .pass 58500] ⟨{ generator := .default }, {}⟩).session.phaseAt =
        a / 1000 % 4294967296 ∧
      a ≤ d ∧ d ≤ a + 3 * 60000 ∧ 1000 * (a / 1000 + 50) ≤ u ∧
      (d ≤ 1000 * (a / 1000) → 1000 * 50 ≤ u - d) ∧ 1000 * 50 - (999 + 3 * 60000) ≤ u - d :=
  hold_floor brief_onBench (wholePart_eq_ok.2 (by decide +kernel)) .default (fun _ _ => rfl) _ rfl rfl
    (by decide +kernel) (by decide +kernel) (by decide +kernel)

/-- **A key is down for less than the floor** when its travel delay is part of the hold: stamped at 0 ms, it goes down
after 1.5 ms and is let go at 50 ms, the floor. -/
theorem hold_below_floor :
    let s := brief.play [.toggle (.str "m"), .pass 48500] ⟨{}, {}⟩
    Decimal.truncate brief.config.minHoldMs = .ok 50 ∧ s.session.held = ["a"] ∧
      (brief.play [.tick] s).session.active = true ∧ (brief.play [.tick] s).world.recorder.history =
        #[⟨1500, .down, "a"⟩, ⟨50000, .up, "a"⟩, ⟨51500, .down, "b"⟩] := by
  decide +kernel

end Driver
end KeyHold
