/-
What passes on a bench.

On a sound bench the clock moves only by the waits of an operation, each of at most `maxWaitUs`, and what was recorded
stays recorded (`Passed`). A press is one wait and then a call. A release is a call at once; a bounce after it is two
waits.

- `HeldSince`: a key is held that went down at most three waits after the time of its phase's stamp. The stamp is read
  before the bounce of the key let go and before the travel of the key itself.
- `Timely`: that is so of every key held, as long as there are no glitches.
- `tick_passes`: **a tick at the bench's time** leaves the key that is held, or lets go of it since its hold is over
  (`Expired`), or ends the session.
-/
import Mathlib.Tactic
import KeyHold.Proofs.Decimal.Order
import KeyHold.Proofs.Session.Alternation

namespace KeyHold

theorem Normal.clampWait_mem {most : ℤ} (h : 0 ≤ most) (n : ℤ) : 0 ≤ clampWait most n ∧ clampWait most n ≤ most := by
  unfold clampWait
  split_ifs <;> constructor <;> omega

/-- what has happened on a bench: `n` waits at most, of at most `most` microseconds each, and these actions -/
structure Bench.Passed (most : ℤ) (n : ℕ) (new : List KeyAction) (v w : Bench) : Prop where
  sound : w.sound
  notBefore : v.clock.nowUs ≤ w.clock.nowUs
  notAfter : w.clock.nowUs ≤ v.clock.nowUs + n * most
  history : w.recorder.history.toList = v.recorder.history.toList ++ new

namespace Bench

variable {most : ℤ} {m n : ℕ} {new new' : List KeyAction} {v w x : Bench}

/-- fewer waits pass within more -/
theorem Passed.within (h : Passed most m new v w) (h0 : 0 ≤ most) (hn : m ≤ n) : Passed most n new v w := by
  refine ⟨h.sound, h.notBefore, ?_, h.history⟩
  calc w.clock.nowUs ≤ v.clock.nowUs + m * most := h.notAfter
    _ ≤ v.clock.nowUs + n * most := by gcongr

theorem Passed.trans (h : Passed most m new v w) (h' : Passed most n new' w x) :
    Passed most (m + n) (new ++ new') v x := by
  refine ⟨h'.sound, h.notBefore.trans h'.notBefore, ?_, ?_⟩
  · calc x.clock.nowUs ≤ w.clock.nowUs + n * most := h'.notAfter
      _ ≤ v.clock.nowUs + m * most + n * most := by linarith [h.notAfter]
      _ = v.clock.nowUs + ((m + n : ℕ) : ℤ) * most := by push_cast; ring
  · rw [h'.history, h.history, List.append_assoc]

end Bench

namespace Session

open Act Bench Tape

variable {E : Setup Bench} {s : Scene Bench} {Q : Unit → Scene Bench → Prop} {F : Fault → Scene Bench → Prop}

/-! ## What operations do on a bench -/

theorem say_passes (hE : E.rig = Bench.rig) {level : Level} {text : String} (hs : s.world.sound)
    (hQ : ∀ w, Passed E.config.maxWaitUs 0 [] s.world w → w.clock = s.world.clock → Q () ⟨s.session, w⟩) :
    Ends (say E level text) s Q F := by
  rw [say, ends_outside, hE]
  exact hQ _ ⟨hs, le_rfl, by simp [Bench.rig, Bench.note], by simp [Bench.rig, Bench.note]⟩ rfl

theorem humanDelay_passes (hE : E.rig = Bench.rig) (h0 : 0 ≤ E.config.maxWaitUs) {mean stddev : Float}
    (hN : ∀ g, Decimal.Finite (E.noise.normal mean stddev g).1) (hs : s.world.sound)
    (hQ : ∀ g w, Passed E.config.maxWaitUs 1 [] s.world w → Q () ⟨{ s.session with generator := g }, w⟩) :
    Ends (humanDelay E mean stddev) s Q F := by
  obtain ⟨k, hk⟩ := (Decimal.roundEven_isOk_iff _).2 (hN s.session.generator)
  have hus : Normal.waitOf E.config.maxWaitUs (E.noise.normal mean stddev s.session.generator).1 =
      .ok (Normal.clampWait E.config.maxWaitUs k) := by
    simp [Normal.waitOf, nearestWhole, hk, Except.mapError, Except.map]
  simp only [humanDelay, ends_bind, ends_draw, ends_check, ends_outside, hus]
  obtain ⟨hlow, hhigh⟩ := Normal.clampWait_mem h0 k
  apply hQ
  rw [hE]
  refine ⟨hs, ?_, ?_, by simp [Bench.rig]⟩
  · simp only [Bench.rig, VirtualClock.wait]
    split_ifs <;> omega
  · simp only [Bench.rig, VirtualClock.wait]
    split_ifs <;> push_cast <;> omega

/-- a call is recorded at the time of the clock, which stands still -/
theorem call_passes {d : Direction} {k : String} (hs : s.world.sound)
    (hQ : ∀ w, Passed E.config.maxWaitUs 0 [⟨w.clock.nowUs, d, k⟩] s.world w → w.clock = s.world.clock →
      Q () ⟨s.session, w⟩) :
    Ends (attempt (Bench.call d k)) s Q F := by
  rw [ends_attempt, call_sound hs]
  have hclock : ((s.world.record k d).count d).clock = s.world.clock := by cases d <;> rfl
  refine hQ _ ⟨?_, hclock ▸ le_rfl, by simp [hclock], ?_⟩ hclock
  · cases d <;> exact hs
  · cases d <;> simp [Bench.record, Bench.count, Recorder.keyDown, Recorder.keyUp]

theorem keyDown_passes (hE : E.rig = Bench.rig) {k : String} (hs : s.world.sound)
    (hQ : ∀ w, Passed E.config.maxWaitUs 0 [⟨w.clock.nowUs, .down, k⟩] s.world w → Q () ⟨s.session, w⟩) :
    Ends (attempt (E.rig.keyDown k)) s Q F := by
  rw [hE]
  exact call_passes hs fun w hw _ => hQ w hw

theorem keyUp_passes (hE : E.rig = Bench.rig) {k : String} (hs : s.world.sound)
    (hQ : ∀ w, Passed E.config.maxWaitUs 0 [⟨s.world.clock.nowUs, .up, k⟩] s.world w → Q () ⟨s.session, w⟩) :
    Ends (attempt (E.rig.keyUp k)) s Q F := by
  rw [hE]
  exact call_passes hs fun w hw hclock => hQ w (hclock ▸ hw)

theorem press_passes (hE : E.rig = Bench.rig) (h0 : 0 ≤ E.config.maxWaitUs) (hN : E.SteadyWaits) {k : String}
    (hs : s.world.sound)
    (hQ : ∀ g w, Passed E.config.maxWaitUs 1 [⟨w.clock.nowUs, .down, k⟩] s.world w →
      Q () ⟨{ s.session with held := s.session.held ++ [k], generator := g }, w⟩) :
    Ends (press E k) s Q F := by
  rw [press, ends_bind]
  refine humanDelay_passes hE h0 hN.travel hs fun g v hv => ?_
  rw [ends_bind]
  refine keyDown_passes hE hv.sound fun w hw => ?_
  exact hQ g w (hv.trans hw)

/-- a release lets go at once; a bounce takes two waits -/
theorem release_passes (hE : E.rig = Bench.rig) (h0 : 0 ≤ E.config.maxWaitUs) (hN : E.SteadyWaits) {k : String}
    (hs : s.world.sound)
    (hQ : ∀ n g w new, Passed E.config.maxWaitUs 2 (⟨s.world.clock.nowUs, .up, k⟩ :: new) s.world w →
      Q () ⟨letGo s.session k n g, w⟩) :
    Ends (release E k) s Q F := by
  rw [release, ends_bind, ends_change, ends_bind]
  refine keyUp_passes hE hs fun v hv => ?_
  rw [ends_bind, ends_draw]
  split_ifs
  · rw [bounce, ends_bind, ends_change, ends_bind]
    refine say_passes hE hv.sound fun w hw _ => ?_
    replace hv := hv.trans hw
    rw [ends_bind]
    refine humanDelay_passes hE h0 hN.bounceOff hv.sound fun g w hw => ?_
    replace hv := hv.trans hw
    rw [ends_bind]
    refine keyDown_passes hE hv.sound fun w hw => ?_
    replace hv := hv.trans hw
    rw [ends_bind]
    refine humanDelay_passes hE h0 hN.bounceOn hv.sound fun g w hw => ?_
    replace hv := hv.trans hw
    refine keyUp_passes hE hv.sound fun w hw => ?_
    exact hQ 1 g w _ (hv.trans hw)
  · rw [ends_pure]
    exact hQ 0 _ v [] (hv.within h0 (by omega))

/-- a stop leaves nothing held, after two waits at most -/
theorem stop_passes (hE : E.rig = Bench.rig) (h0 : 0 ≤ E.config.maxWaitUs) (hN : E.SteadyWaits)
    (hs : s.world.sound) (hl : s.session.held.length ≤ 1) (hI : s.session.policy = none → Q () s)
    (hQ : ∀ n g w new, Passed E.config.maxWaitUs 2 new s.world w → Q () ⟨stopped s.session n g, w⟩) :
    Ends (stop E) s Q F := by
  rw [stop, ends_bind, ends_session]
  cases hp : s.session.policy with
  | none => exact hI hp
  | some p =>
    dsimp only
    rw [ends_bind, releaseAll, ends_afterwards, ends_bind, ends_session]
    obtain hh | ⟨k, hh⟩ : s.session.held = [] ∨ ∃ k, s.session.held = [k] := by
      rcases Nat.le_one_iff_eq_zero_or_eq_one.1 hl with h | h
      · exact Or.inl (List.length_eq_zero_iff.1 h)
      · exact Or.inr (List.length_eq_one_iff.1 h)
    · rw [hh]
      show Ends (pure () : Act Bench Unit) s _ _
      rw [ends_pure]
      refine say_passes hE hs fun w hw _ => ?_
      exact hQ 0 s.session.generator w [] (hw.within h0 (by omega))
    · rw [hh]
      show Ends (release E k >>= fun _ => [].forM (release E)) s _ _
      rw [ends_bind]
      refine release_passes hE h0 hN hs fun n g w new hw => ?_
      show Ends (pure () : Act Bench Unit) _ _ _
      rw [ends_pure]
      refine say_passes hE hw.sound fun v hv _ => ?_
      exact hQ n g v _ (hw.trans hv)

/-! ## What is held, and since when -/

/-- `k` is held: it went down last, at most three waits after the time `a` of its stamp, for no less than the floor -/
structure HeldSince (c : EngineConfig) (k : String) (a d : ℤ) (s : Scene Bench) : Prop where
  held : s.session.held = [k]
  stamp : s.session.phaseAt = a / 1000 % 4294967296
  since : a ≤ d
  waits : d ≤ a + 3 * c.maxWaitUs
  now : d ≤ s.world.clock.nowUs
  last : ∃ before, s.world.recorder.history.toList = before ++ [⟨d, .down, k⟩]
  target : ∃ x, s.session.target = Normal.atLeast c.minHoldMs x

/-- a session without glitches: nothing is held, or a key since a time -/
structure Timely (c : EngineConfig) (s : Scene Bench) : Prop where
  sound : s.world.sound
  glitch : s.session.glitch = none
  armed : s.session.armed = false
  idle : s.session.policy = none → s.session.held = []
  hold : s.session.held = [] ∨ ∃ k a d, HeldSince c k a d s

theorem Timely.length_le {c : EngineConfig} (h : Timely c s) : s.session.held.length ≤ 1 := by
  rcases h.hold with hh | ⟨k, a, d, hk⟩
  · simp [hh]
  · simp [hk.held]

/-- what does not move the clock back or touch the recorder leaves a session timely -/
theorem Timely.moved {c : EngineConfig} (h : Timely c s) {w : Bench} (hs : w.sound)
    (hclock : s.world.clock.nowUs ≤ w.clock.nowUs)
    (hhist : w.recorder.history.toList = s.world.recorder.history.toList) : Timely c ⟨s.session, w⟩ := by
  refine ⟨hs, h.glitch, h.armed, h.idle, h.hold.imp id ?_⟩
  rintro ⟨k, a, d, hk⟩
  exact ⟨k, a, d, hk.held, hk.stamp, hk.since, hk.waits, hk.now.trans hclock, hhist ▸ hk.last, hk.target⟩

/-- a phase that begins at most two waits after its stamp -/
theorem beginPhase_passes (hE : E.rig = Bench.rig) (h0 : 0 ≤ E.config.maxWaitUs) (hN : E.SteadyWaits)
    (hg : E.config.glitchOneIn ≤ 0) {p : Policy} (hs : s.world.sound) (hp : s.session.policy = some p)
    (hh : s.session.held = []) {now a : ℤ} (hnow : now = a / 1000 % 4294967296) (ha : a ≤ s.world.clock.nowUs)
    (hb : s.world.clock.nowUs ≤ a + 2 * E.config.maxWaitUs)
    (hQ : ∀ t new, Timely E.config t → t.session.policy = some p → Passed E.config.maxWaitUs 1 new s.world t.world →
      Q () t) :
    Ends (beginPhase E p now) s Q F := by
  rw [beginPhase, ends_bind, ends_session, ends_bind]
  refine press_passes hE h0 hN hs fun g w hw => ?_
  simp only [setNextHold, sampleAtLeast, ends_bind, ends_draw, ends_change, ends_pure, Generator.oneIn_never hg]
  refine hQ _ _ ?_ hp hw
  refine ⟨hw.sound, rfl, rfl, fun hn => ?_, Or.inr ⟨(p.phase s.session.phaseIndex).key, a, w.clock.nowUs, ?_⟩⟩
  · rw [show s.session.policy = none from hn] at hp
    cases hp
  · refine ⟨by simp [hh], hnow, ha.trans hw.notBefore, ?_, le_rfl, ⟨_, hw.history⟩, ⟨_, rfl⟩⟩
    have := hw.notAfter
    push_cast at this
    omega

/-- a hold that ends: the key is let go at once, and the next phase begins -/
theorem endHold_passes (hE : E.rig = Bench.rig) (h0 : 0 ≤ E.config.maxWaitUs) (hN : E.SteadyWaits)
    (hg : E.config.glitchOneIn ≤ 0) {p : Policy} (h : Timely E.config s) (hp : s.session.policy = some p) {k : String}
    (hk : s.session.held = [k])
    (hQ : ∀ t rest, Timely E.config t → t.session.policy = some p →
      t.world.recorder.history.toList = s.world.recorder.history.toList ++ ⟨s.world.clock.nowUs, .up, k⟩ :: rest →
      Q () t) :
    Ends (endHold E p k s.world.clock.stamp) s Q F := by
  rw [endHold, ends_bind]
  refine release_passes hE h0 hN h.sound fun n g w new hw => ?_
  rw [ends_bind, ends_session]
  have harmed : ¬ (letGo s.session k n g).armed = true := by simp [letGo, h.armed]
  dsimp only
  rw [if_neg harmed, nextPhase, ends_bind, ends_change]
  apply beginPhase_passes hE h0 hN hg
  · exact hw.sound
  · exact hp
  · simp [letGo, hk]
  · rfl
  · exact hw.notBefore
  · exact hw.notAfter
  · intro t new' ht htp hpass
    refine hQ t (new ++ new') ht htp ?_
    rw [hpass.history, hw.history]
    simp

/-- the key held was let go since its hold had lasted as long as was to be -/
def Expired (k : String) (s t : Scene Bench) : Prop :=
  ∃ hold rest, wholePart s.session.target = .ok hold ∧ hold ≤ elapsed s.world.clock.stamp s.session.phaseAt ∧
    t.world.recorder.history.toList = s.world.recorder.history.toList ++ ⟨s.world.clock.nowUs, .up, k⟩ :: rest

/-- nothing is recorded, or the session ends, or the hold of the key held was over -/
def Ticked (s t : Scene Bench) : Prop :=
  t.world.recorder.history = s.world.recorder.history ∨ t.session.policy = none ∨
    ∀ k, s.session.held = [k] → Expired k s t

/-- a tick at the bench's time -/
theorem tick_passes (hE : E.rig = Bench.rig) (hc : E.config.Accepted) (hN : E.SteadyWaits)
    (hg : E.config.glitchOneIn ≤ 0) (h : Timely E.config s) :
    Ends (tick E s.world.clock.stamp) s
      (fun _ t => Timely E.config t ∧ Ticked s t) (fun _ t => t = s) := by
  have h0 := hc.maxWait_nonneg
  rw [tick, ends_bind, ends_session]
  cases hp : s.session.policy with
  | none => exact ⟨h, Or.inl rfl⟩
  | some p =>
    dsimp only
    split_ifs
    · rw [timeOut, ends_bind, ends_check]
      cases timeoutSeconds E.config with
      | error e => rfl
      | ok text =>
        dsimp only
        rw [ends_bind]
        refine say_passes hE h.sound fun w hw _ => ?_
        rw [ends_bind, ends_change]
        apply stop_passes hE h0 hN
        · exact hw.sound
        · exact h.length_le
        · intro hn
          rw [show s.session.policy = none from hn] at hp
          cases hp
        · exact fun n g v new hv => ⟨⟨hv.sound, rfl, rfl, fun _ => rfl, Or.inl rfl⟩, Or.inr (Or.inl rfl)⟩
    rw [h.glitch]
    rcases h.hold with hh | ⟨k, a, d, hk⟩
    · rw [hh]
      dsimp only
      rw [nextPhase, ends_bind, ends_change]
      apply beginPhase_passes hE h0 hN hg
      · exact h.sound
      · exact hp
      · exact hh
      · rfl
      · exact le_rfl
      · dsimp only
        omega
      · exact fun t new ht _ _ => ⟨ht, Or.inr (Or.inr fun k hk => by simp [hh] at hk)⟩
    · rw [hk.held]
      dsimp only
      rw [ends_bind, ends_check]
      cases hw : wholePart s.session.target with
      | error e => rfl
      | ok hold =>
        dsimp only
        split_ifs with hlate
        · apply endHold_passes hE h0 hN hg h hp hk.held
          intro t rest ht _ hhist
          refine ⟨ht, Or.inr (Or.inr fun j hj => ?_)⟩
          obtain rfl : k = j := by simpa [hk.held] using hj
          exact ⟨hold, rest, hw, hlate, hhist⟩
        · exact ⟨h, Or.inl rfl⟩

/-- a report of a healed generator takes no time -/
theorem reseed_passes (hE : E.rig = Bench.rig) {entropy : ℤ} (hs : s.world.sound)
    (hQ : ∀ g w, w.sound → w.clock = s.world.clock → Q () ⟨{ s.session with generator := g }, w⟩) :
    Ends (reseed E entropy) s Q F := by
  rw [reseed, ends_bind, ends_draw]
  split_ifs
  · rw [ends_outside, hE]
    exact hQ _ _ hs rfl
  · exact hQ _ _ hs rfl

/-- once nothing runs, a start presses the first key, at most two waits after the stamp -/
theorem startIdle_passes (hE : E.rig = Bench.rig) (h0 : 0 ≤ E.config.maxWaitUs) (hN : E.SteadyWaits)
    (hg : E.config.glitchOneIn ≤ 0) (p : Policy) (entropy : ℤ) (hs : s.world.sound) (hh : s.session.held = [])
    {now a : ℤ} (hnow : now = a / 1000 % 4294967296) (ha : a ≤ s.world.clock.nowUs)
    (hb : s.world.clock.nowUs ≤ a + 2 * E.config.maxWaitUs) :
    Ends (startIdle E p now entropy) s (fun _ t => Timely E.config t) F := by
  rw [startIdle, ends_bind]
  refine reseed_passes hE hs fun g w hw hclock => ?_
  rw [ends_bind, ends_change, ends_bind]
  apply beginPhase_passes hE h0 hN hg
  · exact hw
  · rfl
  · exact hh
  · exact hnow
  · exact hclock ▸ ha
  · exact hclock ▸ hb
  · intro t new ht _ _
    rw [ends_bind, ends_session]
    refine say_passes hE ht.sound fun w hw _ => ht.moved hw.sound hw.notBefore ?_
    rw [hw.history, List.append_nil]

/-- a start at the bench's time -/
theorem start_passes (hE : E.rig = Bench.rig) (h0 : 0 ≤ E.config.maxWaitUs) (hN : E.SteadyWaits)
    (hg : E.config.glitchOneIn ≤ 0) (h : Timely E.config s) (p : Policy) (entropy : ℤ) :
    Ends (start E p s.world.clock.stamp entropy) s (fun _ t => Timely E.config t) F := by
  rw [start_eq, ends_bind, ends_session]
  cases hp : s.session.policy with
  | none => exact startIdle_passes hE h0 hN hg p entropy h.sound (h.idle hp) rfl le_rfl (by omega)
  | some q =>
    dsimp only
    rw [ends_bind]
    refine say_passes hE h.sound fun w hw hclock => ?_
    rw [ends_bind]
    apply stop_passes hE h0 hN
    · exact hw.sound
    · exact h.length_le
    · intro hn
      rw [show s.session.policy = none from hn] at hp
      cases hp
    · intro n g v new hv
      have hlow := hv.notBefore
      have hhigh := hv.notAfter
      simp only [hclock] at hlow hhigh
      exact startIdle_passes hE h0 hN hg p entropy hv.sound rfl rfl hlow hhigh

end Session
end KeyHold
