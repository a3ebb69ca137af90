/-
How long a call keeps its caller waiting.

A paced rig keeps the waits asked of it, in order. Each wait is a sample clamped to `maxWaitUs`, whatever the sample is.
A press takes one wait, a bounce two, so a release two at most. A stop releases what is held, which is one key at most;
a start takes a stop and a press, and a tick a release and a press or a stop. Key calls may fault anywhere: what is cut
short has asked for less.

- `Asks most n act`: `act` asks for `n` waits at most, none of them negative or longer than `most`.
- `Call.waits`: the waits of one call.
- `call_waits_bounded`: **two waits for a stop, three for a start or a tick**, from whatever calls have led to; a virtual
  clock moves by their sum.
-/
import Mathlib.Tactic
import KeyHold.Proofs.Session.Timing

namespace KeyHold

variable {ω α β : Type}

/-! ## Paced rigs -/

/-- a world and the waits asked of it -/
structure Paced (ω : Type) where
  world : ω
  waits : List ℤ := []

/-- a rig that keeps the waits asked of it -/
def Rig.paced (R : Rig ω) : Rig (Paced ω) where
  keyDown k w := ((R.keyDown k w.world).1, { w with world := (R.keyDown k w.world).2 })
  keyUp k w := ((R.keyUp k w.world).1, { w with world := (R.keyUp k w.world).2 })
  waitUs us w := ⟨R.waitUs us w.world, w.waits ++ [us]⟩
  note e w := { w with world := R.note e w.world }

/-- the setup with its rig paced -/
def Setup.paced (E : Setup ω) : Setup (Paced ω) := ⟨E.config, E.noise, E.rig.paced⟩

/-- a paced rig does what the rig does -/
theorem Rig.paced_alike (R : Rig ω) : R.paced.Alike (fun v w => v.world = w) R where
  down := by rintro k v _ rfl; exact ⟨rfl, rfl⟩
  up := by rintro k v _ rfl; exact ⟨rfl, rfl⟩
  wait := by rintro us v _ rfl; rfl
  note := by rintro e v _ rfl; rfl

/-- from `v` to `w` there were `n` waits at most, none of them negative or longer than `most` -/
def Paced.Within (most : ℤ) (n : ℕ) (v w : Paced ω) : Prop :=
  ∃ new, w.waits = v.waits ++ new ∧ new.length ≤ n ∧ ∀ us ∈ new, 0 ≤ us ∧ us ≤ most

namespace Paced

variable {most : ℤ} {m n : ℕ} {u v w : Paced ω}

theorem within_of_eq (h : w.waits = v.waits) : Within most n v w := ⟨[], by rw [h, List.append_nil], Nat.zero_le n, nofun⟩

theorem Within.mono (h : Within most m v w) (hn : m ≤ n) : Within most n v w := by
  obtain ⟨new, hnew, hlen, hmem⟩ := h
  exact ⟨new, hnew, hlen.trans hn, hmem⟩

theorem Within.trans (h : Within most m u v) (h' : Within most n v w) : Within most (m + n) u w := by
  obtain ⟨new, hnew, hlen, hmem⟩ := h
  obtain ⟨more, hmore, hlen', hmem'⟩ := h'
  refine ⟨new ++ more, by rw [hmore, hnew, List.append_assoc], ?_, List.forall_mem_append.2 ⟨hmem, hmem'⟩⟩
  rw [List.length_append]
  omega

end Paced

namespace Act

open Paced

/-- wherever it is called and however it ends, `act` asks for `n` waits at most, none negative or longer than `most` -/
def Asks (most : ℤ) (n : ℕ) (act : Act (Paced ω) α) : Prop := ∀ s, Within most n s.world (act s).2.world

variable {most : ℤ} {m n : ℕ} {act : Act (Paced ω) α} {f : α → Act (Paced ω) β}

theorem within_bind {s : Scene (Paced ω)} (ha : Within most m s.world (act s).2.world) (hf : ∀ a, Asks most n (f a)) :
    Within most (m + n) s.world ((act >>= f) s).2.world := by
  rw [bind_run]
  rcases hr : act s with ⟨_ | a, t⟩ <;> rw [hr] at ha
  · exact ha.mono (Nat.le_add_right m n)
  · exact ha.trans (hf a t)

theorem Asks.bind (ha : Asks most m act) (hf : ∀ a, Asks most n (f a)) : Asks most (m + n) (act >>= f) :=
  fun s => within_bind (ha s) hf

theorem Asks.mono (ha : Asks most m act) (hn : m ≤ n) : Asks most n act := fun s => (ha s).mono hn

/-- what asks for nothing adds nothing to what follows -/
theorem Asks.before (ha : Asks most 0 act) (hf : ∀ a, Asks most n (f a)) : Asks most n (act >>= f) :=
  (ha.bind hf).mono (Nat.zero_add n).le

theorem asks_pure {a : α} : Asks most n (pure a : Act (Paced ω) α) := fun _ => within_of_eq rfl

theorem asks_session : Asks most n (session : Act (Paced ω) Session) := fun _ => within_of_eq rfl

theorem asks_change {g : Session → Session} : Asks most n (change g : Act (Paced ω) Unit) := fun _ => within_of_eq rfl

theorem asks_draw {g : Generator → α × Generator} : Asks most n (draw g : Act (Paced ω) α) := fun _ => within_of_eq rfl

theorem asks_check {r : Except Fault α} : Asks most n (check r : Act (Paced ω) α) := fun _ => within_of_eq rfl

/-- what follows a check is done only if it passes -/
theorem within_check {r : Except Fault α} {s : Scene (Paced ω)}
    (hf : ∀ a, r = .ok a → Within most n s.world (f a s).2.world) :
    Within most n s.world ((check r >>= f) s).2.world := by
  rw [bind_run]
  cases r with
  | error e => exact within_of_eq rfl
  | ok a => exact hf a rfl

/-- what leaves the waits as they are asks for none -/
theorem asks_outside {g : Paced ω → Paced ω} (hg : ∀ w, (g w).waits = w.waits) : Asks most n (outside g) :=
  fun s => within_of_eq (hg s.world)

theorem asks_attempt {g : Paced ω → Except Fault α × Paced ω} (hg : ∀ w, (g w).2.waits = w.waits) :
    Asks most n (attempt g) :=
  fun s => within_of_eq (hg s.world)

end Act

theorem Normal.waitOf_mem {most us : ℤ} {x : Float} (h0 : 0 ≤ most) (h : waitOf most x = .ok us) :
    0 ≤ us ∧ us ≤ most := by
  unfold waitOf at h
  cases hx : nearestWhole x with
  | error e => rw [hx] at h; cases h
  | ok k =>
    rw [hx] at h
    cases h
    exact clampWait_mem h0 k

namespace Session

open Act Paced

/-! ## The waits of operations -/

variable {E : Setup ω} {most : ℤ} {n : ℕ}

theorem say_asks (level : Level) (text : String) : Asks most n (say E.paced level text) := asks_outside fun _ => rfl

theorem keyDown_asks (k : String) : Asks most n (attempt (E.paced.rig.keyDown k)) := asks_attempt fun _ => rfl

theorem keyUp_asks (k : String) : Asks most n (attempt (E.paced.rig.keyUp k)) := asks_attempt fun _ => rfl

/-- **A sampled wait** is clamped, whatever the sample. -/
theorem humanDelay_asks (h0 : 0 ≤ E.config.maxWaitUs) (mean stddev : Float) :
    Asks E.config.maxWaitUs 1 (humanDelay E.paced mean stddev) := by
  refine asks_draw.before fun x s => within_check fun us hus => ?_
  exact ⟨[us], rfl, le_rfl, List.forall_mem_singleton.2 (Normal.waitOf_mem h0 hus)⟩

theorem press_asks (h0 : 0 ≤ E.config.maxWaitUs) (k : String) : Asks E.config.maxWaitUs 1 (press E.paced k) :=
  (humanDelay_asks h0 _ _).bind (n := 0) fun _ => (keyDown_asks k).before fun _ => asks_change

theorem bounce_asks (h0 : 0 ≤ E.config.maxWaitUs) (k : String) : Asks E.config.maxWaitUs 2 (bounce E.paced k) := by
  refine asks_change.before fun _ => (say_asks _ _).before fun _ => ?_
  refine (humanDelay_asks h0 _ _).bind (n := 1) fun _ => (keyDown_asks k).before fun _ => ?_
  exact (humanDelay_asks h0 _ _).bind (n := 0) fun _ => keyUp_asks k

theorem release_asks (h0 : 0 ≤ E.config.maxWaitUs) (k : String) : Asks E.config.maxWaitUs 2 (release E.paced k) := by
  refine asks_change.before fun _ => (keyUp_asks k).before fun _ => asks_draw.before fun b => ?_
  split_ifs
  · exact bounce_asks h0 k
  · exact asks_pure

theorem sampleAtLeast_asks (mean stddev bound : Float) : Asks most n (sampleAtLeast E.paced mean stddev bound) :=
  asks_draw.before fun _ => asks_pure

theorem setNextHold_asks (phase : Phase) : Asks most n (setNextHold E.paced phase) :=
  (sampleAtLeast_asks _ _ _).before fun _ => asks_change.before fun _ => asks_draw.before fun _ => asks_change

theorem beginPhase_asks (h0 : 0 ≤ E.config.maxWaitUs) (p : Policy) (now : ℤ) :
    Asks E.config.maxWaitUs 1 (beginPhase E.paced p now) := by
  refine asks_session.before fun _ => (press_asks h0 _).bind (n := 0) fun _ => asks_change.before fun _ => ?_
  exact (setNextHold_asks _).before fun _ => asks_change

theorem nextPhase_asks (h0 : 0 ≤ E.config.maxWaitUs) (p : Policy) (now : ℤ) :
    Asks E.config.maxWaitUs 1 (nextPhase E.paced p now) :=
  asks_change.before fun _ => beginPhase_asks h0 p now

/-- a gap is waited out by ticks -/
theorem enterGap_asks (now : ℤ) : Asks most n (enterGap E.paced now) := by
  refine asks_draw.before fun _ => asks_check.before fun _ => asks_session.before fun _ => ?_
  exact (sampleAtLeast_asks _ _ _).before fun _ => asks_change.before fun _ => say_asks _ _

theorem endGap_asks (h0 : 0 ≤ E.config.maxWaitUs) (p : Policy) (glitch : Glitch) (now : ℤ) :
    Asks E.config.maxWaitUs 1 (endGap E.paced p glitch now) := by
  refine asks_change.before fun _ => ?_
  split_ifs
  · exact nextPhase_asks h0 p now
  · refine asks_draw.before fun i => (press_asks h0 _).bind (n := 0) fun _ => ?_
    exact asks_change.before fun _ => say_asks _ _

/-- a release with a bounce, and the press of the next phase -/
theorem endHold_asks (h0 : 0 ≤ E.config.maxWaitUs) (p : Policy) (k : String) (now : ℤ) :
    Asks E.config.maxWaitUs 3 (endHold E.paced p k now) := by
  refine (release_asks h0 k).bind (n := 1) fun _ => asks_session.before fun s => ?_
  split_ifs
  · exact enterGap_asks now
  · exact nextPhase_asks h0 p now

theorem reseed_asks (entropy : ℤ) : Asks most n (reseed E.paced entropy) := by
  refine asks_draw.before fun b => ?_
  split_ifs
  · exact asks_outside fun _ => rfl
  · exact asks_pure

theorem startIdle_asks (h0 : 0 ≤ E.config.maxWaitUs) (p : Policy) (now entropy : ℤ) :
    Asks E.config.maxWaitUs 1 (startIdle E.paced p now entropy) := by
  refine (reseed_asks entropy).before fun _ => asks_change.before fun _ => ?_
  exact (beginPhase_asks h0 p now).bind (n := 0) fun _ => asks_session.before fun _ => say_asks _ _

/-! ## The waits of calls -/

variable {s : Scene (Paced ω)}

/-- what is released is one key at most -/
theorem releaseAll_within (h0 : 0 ≤ E.config.maxWaitUs) (hl : s.session.held.length ≤ 1) :
    Within E.config.maxWaitUs 2 s.world (releaseAll E.paced s).2.world := by
  show Within _ _ _ (s.session.held.forM (release E.paced) s).2.world
  match s.session.held, hl with
  | [], _ => exact within_of_eq rfl
  | [k], _ => exact ((release_asks h0 k).bind (n := 0) fun _ => asks_pure) s

theorem stop_within (h0 : 0 ≤ E.config.maxWaitUs) (hl : s.session.held.length ≤ 1) :
    Within E.config.maxWaitUs 2 s.world (stop E.paced s).2.world := by
  rw [stop, session_bind]
  cases s.session.policy with
  | none => exact within_of_eq rfl
  | some p => exact within_bind (n := 0) (releaseAll_within h0 hl) fun _ => say_asks _ _

/-- an entry leaves the session and the waits to what follows it -/
theorem say_within {f : Unit → Act (Paced ω) β} {level : Level} {text : String}
    (h : ∀ w, Within most n w (f () ⟨s.session, w⟩).2.world) :
    Within most n s.world ((say E.paced level text >>= f) s).2.world := by
  obtain ⟨new, hnew, hlen, hmem⟩ := h (E.paced.rig.note ⟨level, .session, text⟩ s.world)
  exact ⟨new, hnew, hlen, hmem⟩

theorem timeOut_within (h0 : 0 ≤ E.config.maxWaitUs) (hl : s.session.held.length ≤ 1) (p : Policy) :
    Within E.config.maxWaitUs 2 s.world (timeOut E.paced p s).2.world := by
  refine within_check fun seconds _ => ?_
  exact say_within fun w => stop_within (s := ⟨_, w⟩) h0 hl

theorem tick_within (h0 : 0 ≤ E.config.maxWaitUs) (hl : s.session.held.length ≤ 1) (now : ℤ) :
    Within E.config.maxWaitUs 3 s.world (tick E.paced now s).2.world := by
  rw [tick, session_bind]
  cases s.session.policy with
  | none => exact within_of_eq rfl
  | some p =>
    dsimp only
    split_ifs
    · exact (timeOut_within h0 hl p).mono (by decide)
    cases s.session.glitch with
    | some g =>
      refine asks_check.before (fun _ => ?_) s
      split_ifs
      · exact (endGap_asks h0 p g now).mono (by decide)
      · exact asks_pure
    | none =>
      cases s.session.held with
      | nil => exact (nextPhase_asks h0 p now).mono (by decide) s
      | cons k _ =>
        refine asks_check.before (fun _ => ?_) s
        split_ifs
        · exact endHold_asks h0 p k now
        · exact asks_pure

theorem start_within (h0 : 0 ≤ E.config.maxWaitUs) (hl : s.session.held.length ≤ 1) (p : Policy) (now entropy : ℤ) :
    Within E.config.maxWaitUs 3 s.world (start E.paced p now entropy s).2.world := by
  rw [start_eq, session_bind]
  cases s.session.policy with
  | none => exact (startIdle_asks h0 p now entropy).mono (by decide) s
  | some q =>
    refine say_within fun w => ?_
    exact within_bind (s := ⟨_, w⟩) (stop_within h0 hl) fun _ => startIdle_asks h0 p now entropy

/-- how many waits a call may ask for -/
def Call.waitLimit : Call → ℕ
  | .stop => 2
  | _ => 3

theorem Call.waitLimit_le (call : Call) : call.waitLimit ≤ 3 := by
  cases call <;> simp [waitLimit]

theorem call_within (h0 : 0 ≤ E.config.maxWaitUs) (hl : s.session.held.length ≤ 1) (call : Call) :
    Within E.config.maxWaitUs call.waitLimit s.world (call.act E.paced s).2.world := by
  cases call with
  | start p now entropy => exact start_within h0 hl p now entropy
  | stop => exact stop_within h0 hl
  | tick now => exact tick_within h0 hl now

/-- the waits that a call asks for -/
def Call.waits (E : Setup ω) (call : Call) (s : Scene ω) : List ℤ :=
  (call.act E.paced ⟨s.session, ⟨s.world, []⟩⟩).2.world.waits

theorem Call.waits_bounded {s : Scene ω} (h0 : 0 ≤ E.config.maxWaitUs) (hl : s.session.held.length ≤ 1) (call : Call) :
    (call.waits E s).length ≤ call.waitLimit ∧ ∀ us ∈ call.waits E s, 0 ≤ us ∧ us ≤ E.config.maxWaitUs := by
  obtain ⟨new, hnew, hlen, hmem⟩ := call_within (s := ⟨s.session, ⟨s.world, []⟩⟩) h0 hl call
  obtain rfl : call.waits E s = new := hnew
  exact ⟨hlen, hmem⟩

/-! ## The clock -/

/-- the part of a world that is a virtual clock: waits move it, and nothing else does -/
structure Shows (R : Rig ω) (clock : ω → VirtualClock) : Prop where
  down : ∀ k w, clock (R.keyDown k w).2 = clock w
  up : ∀ k w, clock (R.keyUp k w).2 = clock w
  wait : ∀ us w, clock (R.waitUs us w) = (clock w).wait us
  note : ∀ e w, clock (R.note e w) = clock w

/-- since it showed `c`, a clock has kept the waits and moved by their sum, unless one of them was negative -/
def Elapsed (clock : ω → VirtualClock) (c : VirtualClock) (w : Paced ω) : Prop :=
  (∀ us ∈ w.waits, 0 ≤ us) →
    (clock w.world).nowUs = c.nowUs + w.waits.sum ∧ (clock w.world).waits.toList = c.waits.toList ++ w.waits

theorem Elapsed.same {clock : ω → VirtualClock} {c : VirtualClock} {v w : Paced ω} (h : Elapsed clock c v)
    (hclock : clock w.world = clock v.world) (hwaits : w.waits = v.waits) : Elapsed clock c w := by
  unfold Elapsed
  rw [hclock, hwaits]
  exact h

theorem Elapsed.wait {clock : ω → VirtualClock} {c : VirtualClock} {v w : Paced ω} {us : ℤ} (h : Elapsed clock c v)
    (hclock : clock w.world = (clock v.world).wait us) (hwaits : w.waits = v.waits ++ [us]) : Elapsed clock c w := by
  intro hnonneg
  rw [hwaits] at hnonneg
  obtain ⟨hbefore, hlast⟩ := List.forall_mem_append.1 hnonneg
  obtain ⟨hnow, hkept⟩ := h hbefore
  have hus : 0 ≤ us := hlast us (List.mem_singleton_self us)
  rw [hclock, hwaits, List.sum_append, List.sum_singleton]
  constructor
  · show (if us > 0 then (clock v.world).nowUs + us else (clock v.world).nowUs) = _
    split_ifs <;> omega
  · show ((clock v.world).waits.push us).toList = _
    rw [Array.toList_push, hkept, List.append_assoc]

theorem Shows.keeps {R : Rig ω} {clock : ω → VirtualClock} (h : Shows R clock) (c : VirtualClock) :
    R.paced.Keeps (Elapsed clock c) where
  down k w hw := hw.same (h.down k w.world) rfl
  up k w hw := hw.same (h.up k w.world) rfl
  wait us w hw := hw.wait (h.wait us w.world) rfl
  note e w hw := hw.same (h.note e w.world) rfl

/-- the waits are only kept: without them a call is the call on the rig itself -/
theorem step_paced (E : Setup ω) (call : Call) (s : Scene ω) :
    (call.act E.paced ⟨s.session, ⟨s.world, []⟩⟩).2.world.world = (step E s call).world :=
  (call_alike (c := E.config) (N := E.noise) E.rig.paced_alike call s.session ⟨s.world, []⟩ s.world rfl).2.2

theorem step_clock {clock : ω → VirtualClock} (h : Shows E.rig clock) {call : Call} {s : Scene ω}
    (hnonneg : ∀ us ∈ call.waits E s, 0 ≤ us) :
    (clock (step E s call).world).nowUs = (clock s.world).nowUs + (call.waits E s).sum ∧
      (clock (step E s call).world).waits.toList = (clock s.world).waits.toList ++ call.waits E s := by
  have hstart : Elapsed clock (clock s.world) ⟨s.world, []⟩ :=
    fun _ => ⟨(add_zero _).symm, (List.append_nil _).symm⟩
  have hend := run_keeps (E := E.paced) (h.keeps _) (s := ⟨s.session, ⟨s.world, []⟩⟩) hstart [call]
  rw [← step_paced]
  exact hend hnonneg

/-! ## Runs -/

/-- one key at most is held, whatever calls have led there -/
theorem run_held_length_le (hN : E.SteadyWaits) (g : Generator) (w : ω) (calls : List Call) :
    (run E calls ⟨{ generator := g }, w⟩).session.held.length ≤ 1 := by
  have hrun : (run E.taped calls (Scene.fresh g w)).untaped = run E calls ⟨{ generator := g }, w⟩ :=
    run_taped E calls (Scene.fresh g w)
  rw [← hrun]
  exact (run_inv hN (inv_fresh E.config g w) calls).held_length_le

/-- **A call keeps its caller waiting for a bounded time.** Take an accepted configuration and samples that are finite,
any calls from a fresh session on, and then one more. Each wait that it asks for is from 0 to `maxWaitUs`; a stop asks
for two at most and a start or a tick for three, so for `3 * maxWaitUs` in all. If there is a virtual clock in the world,
it keeps these waits and moves by their sum. -/
theorem call_waits_bounded (hc : E.config.Accepted) (hN : E.SteadyWaits) (g : Generator) (w : ω) (before : List Call)
    (call : Call) :
    let s := run E before ⟨{ generator := g }, w⟩
    (∀ us ∈ call.waits E s, 0 ≤ us ∧ us ≤ E.config.maxWaitUs) ∧
      (call.waits E s).length ≤ call.waitLimit ∧ (call.waits E s).sum ≤ 3 * E.config.maxWaitUs ∧
      ∀ clock : ω → VirtualClock, Shows E.rig clock →
        (clock (step E s call).world).nowUs = (clock s.world).nowUs + (call.waits E s).sum ∧
        (clock (step E s call).world).waits.toList = (clock s.world).waits.toList ++ call.waits E s := by
  intro s
  have h0 := hc.maxWait_nonneg
  obtain ⟨hlen, hmem⟩ := Call.waits_bounded (s := s) h0 (run_held_length_le hN g w before) call
  refine ⟨hmem, hlen, ?_, fun clock hclock => step_clock hclock fun us hus => (hmem us hus).1⟩
  calc (call.waits E s).sum ≤ (call.waits E s).length • E.config.maxWaitUs :=
        List.sum_le_card_nsmul _ _ fun us hus => (hmem us hus).2
    _ = ((call.waits E s).length : ℤ) * E.config.maxWaitUs := nsmul_eq_mul _ _
    _ ≤ 3 * E.config.maxWaitUs := by
      gcongr
      exact_mod_cast hlen.trans call.waitLimit_le

/-- a key call on a bench is counted and recorded, and takes no time -/
theorem bench_shows : Shows Bench.rig Bench.clock := by
  have hcall (d : Direction) (k : String) (b : Bench) : (Bench.call d k b).2.clock = b.clock := by
    unfold Bench.call
    cases d <;> split_ifs <;> rfl
  exact ⟨hcall .down, hcall .up, fun _ _ => rfl, fun _ _ => rfl⟩

/-- a setup in which every release bounces and every sample is the mean -/
def bouncing : Setup Bench := ⟨{ bounceOneIn := 1, glitchOneIn := 0 }, .mean, Bench.rig⟩

/-- the end of a hold that bounces takes all three waits -/
theorem call_waits_bounded_bouncing :
    let s := run bouncing [.start .og 0 1] ⟨{}, {}⟩
    let t := step bouncing s (.tick 2000)
    (Call.tick 2000).waits bouncing s = [500, 300, 1500] ∧
      (∀ us ∈ (Call.tick 2000).waits bouncing s, 0 ≤ us ∧ us ≤ bouncing.config.maxWaitUs) ∧
      ((Call.tick 2000).waits bouncing s).length ≤ 3 ∧
      ((Call.tick 2000).waits bouncing s).sum ≤ 3 * bouncing.config.maxWaitUs ∧
      t.world.clock.nowUs = s.world.clock.nowUs + ((Call.tick 2000).waits bouncing s).sum := by
  have haccepted : bouncing.config.Accepted := by
    show bouncing.config.flaw? = none
    decide +kernel
  have hsteady : bouncing.SteadyWaits :=
    Noise.mean_steady _ (by decide +kernel) (by decide +kernel) (by decide +kernel)
  obtain ⟨hmem, hlen, hsum, hclock⟩ :=
    call_waits_bounded haccepted hsteady .default {} [.start .og 0 1] (.tick 2000)
  exact ⟨by decide +kernel, hmem, hlen, hsum, (hclock Bench.clock bench_shows).1⟩

end Session
end KeyHold
