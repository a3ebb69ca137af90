/-
Calls that return.

A call asks for the whole part of the hold or of the gap that it may end, for the whole microseconds of its waits, for a
percentage as a double and for the timeout in seconds. Each of these exists if the samples are finite and the
configuration is accepted: a split takes a part of a finite hold, a percentage is at most 100, and a timeout that was
reached is below 2^32 ms.

- `Numeric`: the numbers that a session keeps are finite.
- `Sound modes act`: from a numeric session `act` returns, and leaves one. There is one rule for each way in which
  operations are built, and one for each operation.
- `call_returns`, `run_numeric`: **every call returns** on a rig whose key calls never fault.
-/
import Mathlib.Tactic
import KeyHold.Proofs.Decimal.Order
import KeyHold.Proofs.Session.Timeout

namespace KeyHold

variable {ω α β : Type}

/-- every sample that a session of these modes takes is finite, once it is clamped -/
structure Setup.SteadySamples (E : Setup ω) (modes : List Policy) : Prop extends E.SteadyWaits where
  hold : ∀ p ∈ modes, ∀ ph ∈ p.phases, ∀ g,
    Decimal.Finite (Normal.atLeast E.config.minHoldMs (E.noise.normal ph.mean ph.stddev g).1)
  gap : ∀ g, Decimal.Finite (Normal.atLeast E.config.glitchGapMinMs
    (E.noise.normal E.config.glitchGapMeanMs E.config.glitchGapStddevMs g).1)

/-- the percentage of a split leaves a factor of at most one -/
theorem toDouble_rest {n : ℤ} {x : Float} (h0 : 0 ≤ n) (h1 : n ≤ 100) (h : toDouble n = .ok x) :
    Decimal.atMostOne (1.0 - x / 100.0) = true := by
  have hn : ¬ n < 0 := by omega
  simp only [toDouble, Decimal.ofInt?, Decimal.ofIntScaled?, hn, if_false] at h
  split_ifs at h
  obtain rfl : Float.ofScientific n.natAbs true 0 = x := Except.ok.inj h
  exact Decimal.rest_atMostOne (by omega)

namespace Session

open Act

/-- the numbers of a session are finite, and its policy is one of the modes -/
structure Numeric (modes : List Policy) (x : Session) : Prop where
  target : Decimal.Finite x.target
  glitch : ∀ gl, x.glitch = some gl → Decimal.Finite gl.gap ∧ Decimal.Finite gl.remaining
  policy : ∀ p, x.policy = some p → p ∈ modes

theorem Numeric.idled {modes : List Policy} (x : Session) : Numeric modes (idled x) :=
  ⟨Decimal.finite_zero, nofun, nofun⟩

end Session

namespace Act

open Session

/-- from a numeric session `act` returns, and leaves one -/
def Sound (modes : List Policy) (act : Act ω α) : Prop :=
  ∀ s, Numeric modes s.session → Ends act s (fun _ t => Numeric modes t.session) (fun _ _ => False)

variable {modes : List Policy}

theorem Sound.bind {act : Act ω α} {f : α → Act ω β} (ha : Sound modes act) (hf : ∀ v, Sound modes (f v)) :
    Sound modes (act >>= f) := by
  intro s h
  rw [ends_bind]
  exact (ha s h).mono (fun v t ht => hf v t ht) (fun _ _ hf => hf)

theorem sound_pure {v : α} : Sound modes (pure v : Act ω α) := fun _ h => h

theorem sound_session : Sound modes (session : Act ω Session) := fun _ h => h

theorem sound_change {f : Session → Session} (hf : ∀ x, Numeric modes x → Numeric modes (f x)) :
    Sound modes (change f : Act ω Unit) := fun s h => hf s.session h

theorem sound_draw {f : Generator → α × Generator} : Sound modes (draw f : Act ω α) :=
  fun _ h => ⟨h.target, h.glitch, h.policy⟩

theorem sound_check {v : α} {r : Except Fault α} (hr : r = .ok v) : Sound modes (check r : Act ω α) := by
  intro s h
  rw [hr]
  exact h

theorem sound_outside {f : ω → ω} : Sound modes (outside f) := fun _ h => h

theorem sound_attempt {f : ω → Except Fault α × ω} (hf : ∀ w, ∃ v, (f w).1 = .ok v) : Sound modes (attempt f) := by
  intro s h
  obtain ⟨v, hv⟩ := hf s.world
  rw [ends_attempt]
  rcases hr : f s.world with ⟨e | v, w⟩
  · rw [hr] at hv
    cases hv
  · exact h

theorem Sound.afterwards {act : Act ω α} {f : Session → Session} (ha : Sound modes act)
    (hf : ∀ x, Numeric modes x → Numeric modes (f x)) : Sound modes (afterwards f act) := by
  intro s h
  rw [ends_afterwards]
  exact (ha s h).mono (fun _ t ht => hf _ ht) (fun _ _ hf => hf)

theorem sound_forM {f : α → Act ω Unit} (hf : ∀ v, Sound modes (f v)) (l : List α) : Sound modes (l.forM f) := by
  induction l with
  | nil => exact sound_pure
  | cons v l ih => exact (hf v).bind fun _ => ih

end Act

namespace Session

open Act

variable {E : Setup ω} {modes : List Policy}

/-! ## Operations -/

theorem humanDelay_sound {mean stddev : Float} (h : ∀ g, Decimal.Finite (E.noise.normal mean stddev g).1) :
    Sound modes (humanDelay E mean stddev) := by
  intro s hs
  obtain ⟨us, hus⟩ := Normal.waitOf_ok E.config.maxWaitUs _ (h s.session.generator)
  simp only [humanDelay, ends_bind, ends_draw, ends_check, ends_outside, hus]
  exact ⟨hs.target, hs.glitch, hs.policy⟩

theorem press_sound (hR : E.rig.Reliable) (hN : E.SteadySamples modes) (k : String) : Sound modes (press E k) := by
  refine (humanDelay_sound hN.travel).bind fun _ => ?_
  refine (sound_attempt fun w => ⟨(), (hR k w).1⟩).bind fun _ => ?_
  exact sound_change fun x h => ⟨h.target, h.glitch, h.policy⟩

theorem bounce_sound (hR : E.rig.Reliable) (hN : E.SteadySamples modes) (k : String) : Sound modes (bounce E k) := by
  refine Sound.bind (sound_change fun x h => ⟨h.target, h.glitch, h.policy⟩) fun _ => sound_outside.bind fun _ => ?_
  refine (humanDelay_sound hN.bounceOff).bind fun _ => ?_
  refine (sound_attempt fun w => ⟨(), (hR k w).1⟩).bind fun _ => ?_
  exact (humanDelay_sound hN.bounceOn).bind fun _ => sound_attempt fun w => ⟨(), (hR k w).2⟩

theorem release_sound (hR : E.rig.Reliable) (hN : E.SteadySamples modes) (k : String) : Sound modes (release E k) := by
  refine Sound.bind (sound_change fun x h => ⟨h.target, h.glitch, h.policy⟩) fun _ => ?_
  refine (sound_attempt fun w => ⟨(), (hR k w).2⟩).bind fun _ => sound_draw.bind fun b => ?_
  split_ifs
  · exact bounce_sound hR hN k
  · exact sound_pure

theorem stop_sound (hR : E.rig.Reliable) (hN : E.SteadySamples modes) : Sound modes (stop E) := by
  refine sound_session.bind fun x => ?_
  cases x.policy with
  | none => exact sound_pure
  | some p =>
    refine Sound.bind (Sound.afterwards ?_ fun y _ => Numeric.idled y) fun _ => sound_outside
    exact sound_session.bind fun y => sound_forM (release_sound hR hN) y.held

theorem beginPhase_sound (hR : E.rig.Reliable) (hN : E.SteadySamples modes) {p : Policy} (hp : p ∈ modes) (now : ℤ) :
    Sound modes (beginPhase E p now) := by
  refine sound_session.bind fun x => (press_sound hR hN _).bind fun _ => ?_
  refine Sound.bind (sound_change fun x h => ⟨h.target, h.glitch, h.policy⟩) fun _ => ?_
  refine Sound.bind ?_ fun _ => sound_change fun x h => ⟨h.target, h.glitch, h.policy⟩
  intro s hs
  simp only [setNextHold, sampleAtLeast, ends_bind, ends_draw, ends_change, ends_pure]
  exact ⟨hN.hold p hp _ (List.get_mem _ _) _, fun _ h => (by cases h), hs.policy⟩

theorem nextPhase_sound (hR : E.rig.Reliable) (hN : E.SteadySamples modes) {p : Policy} (hp : p ∈ modes) (now : ℤ) :
    Sound modes (nextPhase E p now) :=
  Sound.bind (sound_change fun _ h => ⟨h.target, h.glitch, h.policy⟩) fun _ => beginPhase_sound hR hN hp now

theorem enterGap_sound (hN : E.SteadySamples modes) (hc : E.config.SplitInOrder) (now : ℤ) :
    Sound modes (enterGap E now) := by
  intro s hs
  obtain ⟨h0, h1⟩ := Generator.range_mem hc.2.1 s.session.generator
  obtain ⟨x, hx⟩ := toDouble_pct (hc.1.trans h0) (h1.trans hc.2.2)
  simp only [enterGap, sampleAtLeast, ends_bind, ends_draw, ends_check, hx, ends_session, ends_pure, ends_change]
  refine sound_outside _ ⟨hs.target, fun gl hgl => ?_, hs.policy⟩
  obtain rfl : _ = gl := Option.some.inj hgl
  exact ⟨hN.gap _, Decimal.finite_mul hs.target (toDouble_rest (hc.1.trans h0) (h1.trans hc.2.2) hx)⟩

theorem endGap_sound (hR : E.rig.Reliable) (hN : E.SteadySamples modes) {p : Policy} (hp : p ∈ modes) {glitch : Glitch}
    (hg : Decimal.Finite glitch.remaining) (now : ℤ) : Sound modes (endGap E p glitch now) := by
  refine Sound.bind (sound_change fun x h => ⟨h.target, nofun, h.policy⟩) fun _ => ?_
  split_ifs
  · exact nextPhase_sound hR hN hp now
  · refine sound_draw.bind fun i => (press_sound hR hN _).bind fun _ => ?_
    exact Sound.bind (sound_change fun x h => ⟨hg, h.glitch, h.policy⟩) fun _ => sound_outside

theorem endHold_sound (hR : E.rig.Reliable) (hN : E.SteadySamples modes) (hc : E.config.SplitInOrder) {p : Policy}
    (hp : p ∈ modes) (k : String) (now : ℤ) : Sound modes (endHold E p k now) := by
  refine (release_sound hR hN k).bind fun _ => sound_session.bind fun x => ?_
  split_ifs
  · exact enterGap_sound hN hc now
  · exact nextPhase_sound hR hN hp now

theorem timeOut_sound (hR : E.rig.Reliable) (hN : E.SteadySamples modes) (h0 : 0 < E.config.safetyTimeoutMs)
    (h1 : E.config.safetyTimeoutMs < 4294967296) (p : Policy) : Sound modes (timeOut E p) := by
  obtain ⟨text, htext⟩ := timeoutSeconds_ok h0.le (by omega)
  refine (sound_check htext).bind fun _ => sound_outside.bind fun _ => ?_
  exact Sound.bind (sound_change fun x h => ⟨h.target, h.glitch, h.policy⟩) fun _ => stop_sound hR hN

theorem tick_sound (hR : E.rig.Reliable) (hN : E.SteadySamples modes) (hc : E.config.Accepted) (now : ℤ) :
    Sound modes (tick E now) := by
  intro s h
  rw [tick, ends_bind, ends_session]
  cases hp : s.session.policy with
  | none => exact h
  | some p =>
    have hm := h.policy p hp
    dsimp only
    split_ifs with ht
    · -- the timeout has been reached within 2^32 ms
      have : elapsed now s.session.startedAt < 4294967296 := Int.emod_lt_of_pos _ (by norm_num)
      exact timeOut_sound hR hN hc.timeout_pos (by omega) p s h
    cases hg : s.session.glitch with
    | some gl =>
      obtain ⟨hgap, hrest⟩ := h.glitch gl hg
      obtain ⟨n, hn⟩ := wholePart_ok hgap
      refine Sound.bind (sound_check hn) (fun n => ?_) s h
      split_ifs
      · exact endGap_sound hR hN hm hrest now
      · exact sound_pure
    | none =>
      cases s.session.held with
      | nil => exact nextPhase_sound hR hN hm now s h
      | cons k rest =>
        obtain ⟨n, hn⟩ := wholePart_ok h.target
        refine Sound.bind (sound_check hn) (fun n => ?_) s h
        split_ifs
        · exact endHold_sound hR hN hc.splitInOrder hm k now
        · exact sound_pure

theorem reseed_sound (entropy : ℤ) : Sound modes (reseed E entropy) := by
  refine sound_draw.bind fun b => ?_
  split_ifs
  · exact sound_outside
  · exact sound_pure

theorem startIdle_sound (hR : E.rig.Reliable) (hN : E.SteadySamples modes) {p : Policy} (hp : p ∈ modes)
    (now entropy : ℤ) : Sound modes (startIdle E p now entropy) := by
  refine (reseed_sound entropy).bind fun _ => ?_
  refine Sound.bind (sound_change fun x h => ⟨h.target, h.glitch, fun q hq => ?_⟩) fun _ => ?_
  · obtain rfl : p = q := Option.some.inj hq
    exact hp
  · exact (beginPhase_sound hR hN hp now).bind fun _ => sound_session.bind fun _ => sound_outside

theorem start_sound (hR : E.rig.Reliable) (hN : E.SteadySamples modes) {p : Policy} (hp : p ∈ modes)
    (now entropy : ℤ) : Sound modes (start E p now entropy) := by
  have hstart : Sound modes (startIdle E p now entropy) := startIdle_sound hR hN hp now entropy
  rw [start_eq]
  refine sound_session.bind fun x => ?_
  cases x.policy with
  | none => exact hstart
  | some q => exact sound_outside.bind fun _ => (stop_sound hR hN).bind fun _ => hstart

/-! ## Runs -/

/-- a start is of one of the modes -/
def Call.Of (modes : List Policy) : Call → Prop
  | .start p _ _ => p ∈ modes
  | _ => True

/-- **A call returns**, and leaves the numbers of the session finite. -/
theorem call_returns (hR : E.rig.Reliable) (hN : E.SteadySamples modes) (hc : E.config.Accepted) {call : Call}
    (hm : call.Of modes) : Sound modes (call.act E) := by
  cases call with
  | start p now entropy => exact start_sound hR hN hm now entropy
  | stop => exact stop_sound hR hN
  | tick now => exact tick_sound hR hN hc now

theorem run_numeric (hR : E.rig.Reliable) (hN : E.SteadySamples modes) (hc : E.config.Accepted) {calls : List Call}
    (hm : ∀ call ∈ calls, call.Of modes) {s : Scene ω} (h : Numeric modes s.session) :
    Numeric modes (run E calls s).session := by
  induction calls generalizing s with
  | nil => exact h
  | cons call calls ih =>
    obtain ⟨hcall, hcalls⟩ := List.forall_mem_cons.1 hm
    apply ih hcalls
    exact ((call_returns hR hN hc hcall s h).mono (fun _ _ ht => ht) (fun _ _ hf => hf.elim)).after

end Session

end KeyHold
