/-
What a session leaves behind.

A session that has become idle does what a fresh one does. Of what it has been through it keeps the counters, which are
only ever added to, and the index and the stamps, which the next start sets before they are read. So whatever came
before, the same calls do the same from the same generator, and the counters grow by the same amounts.

- `Commutes τ act`: `act` neither reads nor undoes the change `τ` of the session. There is one rule for each way in which
  operations are built, as for `Ends`.
- `run_credit`: **the counters are only added to**, whichever key calls fault.
- `Rig.traced`: a rig that writes down all that is done through it: key calls, waits and entries.
- `run_idle`: **an idle session** does what a fresh one does.
- `run_forgets`: two idle sessions, whatever led to them.
-/
import Mathlib.Tactic
import KeyHold.Proofs.Session.Counters

namespace KeyHold

variable {ω ω' α β : Type}

/-- counters added up -/
def Stats.plus (d e : Stats) : Stats :=
  ⟨d.sessions + e.sessions, d.timeouts + e.timeouts, d.phases + e.phases, d.bounces + e.bounces, d.glitches + e.glitches⟩

namespace Session

/-- a change of a session that does not touch its generator -/
structure Aside (τ : Session → Session) : Prop where
  generator : ∀ x, (τ x).generator = x.generator
  kept : ∀ x g, τ { x with generator := g } = { τ x with generator := g }

/-- the session with counters added to its own -/
def credit (d : Stats) (x : Session) : Session := { x with stats := d.plus x.stats }

/-- the session with the index and the stamps that another may have left -/
def leave (i : ℕ) (a b : ℤ) (x : Session) : Session := { x with phaseIndex := i, startedAt := a, phaseAt := b }

theorem aside_credit (d : Stats) : Aside (credit d) := ⟨fun _ => rfl, fun _ _ => rfl⟩

theorem aside_leave (i : ℕ) (a b : ℤ) : Aside (leave i a b) := ⟨fun _ => rfl, fun _ _ => rfl⟩

/-- the start of a process -/
def fresh (g : Generator) : Session := { generator := g }

end Session

/-- the scene with its session changed -/
def Scene.on (τ : Session → Session) (s : Scene ω) : Scene ω := { s with session := τ s.session }

namespace Act

open Session

variable {τ : Session → Session}

/-- `act` neither reads nor undoes the change `τ` of the session -/
def Commutes (τ : Session → Session) (act : Act ω α) : Prop := ∀ s, act (s.on τ) = ((act s).1, (act s).2.on τ)

theorem Commutes.bind {act : Act ω α} {f : α → Act ω β} (ha : Commutes τ act) (hf : ∀ v, Commutes τ (f v)) :
    Commutes τ (act >>= f) := by
  intro s
  rw [bind_run, bind_run, ha]
  rcases act s with ⟨_ | v, t⟩
  · rfl
  · exact hf v t

theorem commutes_pure {v : α} : Commutes τ (pure v : Act ω α) := fun _ => rfl

theorem commutes_draw (hτ : Aside τ) {f : Generator → α × Generator} : Commutes τ (draw f : Act ω α) := by
  intro s
  show ((.ok (f (τ s.session).generator).1, ⟨{ τ s.session with generator := (f (τ s.session).generator).2 }, s.world⟩) :
    Except Fault α × Scene ω) = _
  rw [hτ.generator, ← hτ.kept]
  rfl

theorem commutes_check {r : Except Fault α} : Commutes τ (check r : Act ω α) := fun _ => rfl

theorem commutes_outside {f : ω → ω} : Commutes τ (outside f) := fun _ => rfl

theorem commutes_attempt {f : ω → Except Fault α × ω} : Commutes τ (attempt f) := fun _ => rfl

theorem commutes_change {f : Session → Session} (hf : ∀ x, f (τ x) = τ (f x)) : Commutes τ (change f : Act ω Unit) :=
  fun s => congrArg (fun x => ((.ok (), ⟨x, s.world⟩) : Except Fault Unit × Scene ω)) (hf s.session)

theorem change_bind {f : Session → Session} {act : Unit → Act ω α} (s : Scene ω) :
    (change f >>= act) s = act () { s with session := f s.session } := rfl

theorem bind_same {act : Act ω α} {f : α → Act ω β} {s t : Scene ω} (h : act s = act t) :
    (act >>= f) s = (act >>= f) t := by
  rw [bind_run, bind_run, h]

/-- what is read of a session to go on with is not changed by `τ` -/
theorem commutes_session {f : Session → Act ω α} (hs : ∀ x, f (τ x) = f x) (hf : ∀ x, Commutes τ (f x)) :
    Commutes τ (session >>= f) := by
  intro s
  rw [session_bind, session_bind]
  show f (τ s.session) (s.on τ) = _
  rw [hs]
  exact hf s.session s

theorem Commutes.afterwards {act : Act ω α} {f : Session → Session} (ha : Commutes τ act)
    (hf : ∀ x, f (τ x) = τ (f x)) : Commutes τ (afterwards f act) := by
  intro s
  unfold Act.afterwards
  rw [ha]
  show (_, (⟨f (τ (act s).2.session), _⟩ : Scene ω)) = _
  rw [hf]
  rfl

theorem commutes_forM {f : α → Act ω Unit} (hf : ∀ v, Commutes τ (f v)) (l : List α) : Commutes τ (l.forM f) := by
  induction l with
  | nil => exact commutes_pure
  | cons v l ih => exact (hf v).bind fun _ => ih

end Act

namespace Session

open Act

variable {E : Setup ω}

/-! ## The counters are only added to -/

section Credit

variable {d : Stats}

theorem humanDelay_commutes {τ : Session → Session} (hτ : Aside τ) (mean stddev : Float) :
    Commutes τ (humanDelay E mean stddev) :=
  (commutes_draw hτ).bind fun _ => commutes_check.bind fun _ => commutes_outside

theorem press_commutes {τ : Session → Session} (hτ : Aside τ) (k : String)
    (hh : ∀ x : Session, { τ x with held := (τ x).held ++ [k] } = τ { x with held := x.held ++ [k] }) :
    Commutes τ (press E k) :=
  (humanDelay_commutes hτ _ _).bind fun _ => commutes_attempt.bind fun _ => commutes_change hh

theorem reseed_commutes {τ : Session → Session} (hτ : Aside τ) (entropy : ℤ) : Commutes τ (reseed E entropy) := by
  refine (commutes_draw hτ).bind fun b => ?_
  split_ifs
  · exact commutes_outside
  · exact commutes_pure

theorem delay_credit (mean stddev : Float) : Commutes (credit d) (humanDelay E mean stddev) :=
  humanDelay_commutes (aside_credit d) mean stddev

theorem draw_credit {f : Generator → α × Generator} : Commutes (credit d) (draw f : Act ω α) :=
  commutes_draw (aside_credit d)

theorem press_credit (k : String) : Commutes (credit d) (press E k) := press_commutes (aside_credit d) k fun _ => rfl

theorem release_credit (k : String) : Commutes (credit d) (release E k) := by
  refine Commutes.bind (commutes_change fun _ => rfl) fun _ => commutes_attempt.bind fun _ => ?_
  refine draw_credit.bind fun b => ?_
  split_ifs
  · refine Commutes.bind (commutes_change fun _ => rfl) fun _ => commutes_outside.bind fun _ => ?_
    refine (delay_credit _ _).bind fun _ => ?_
    exact commutes_attempt.bind fun _ => (delay_credit _ _).bind fun _ => commutes_attempt
  · exact commutes_pure

theorem sampleAtLeast_credit (mean stddev bound : Float) :
    Commutes (credit d) (sampleAtLeast E mean stddev bound) :=
  draw_credit.bind fun _ => commutes_pure

theorem setNextHold_credit (phase : Phase) : Commutes (credit d) (setNextHold E phase) := by
  refine (sampleAtLeast_credit _ _ _).bind fun target => ?_
  refine Commutes.bind (commutes_change fun _ => rfl) fun _ => ?_
  exact draw_credit.bind fun armed => commutes_change fun _ => rfl

theorem beginPhase_credit (p : Policy) (now : ℤ) : Commutes (credit d) (beginPhase E p now) := by
  refine commutes_session (fun _ => rfl) fun x => (press_credit _).bind fun _ => ?_
  refine Commutes.bind (commutes_change fun _ => rfl) fun _ => ?_
  exact (setNextHold_credit _).bind fun _ => commutes_change fun _ => rfl

theorem nextPhase_credit (p : Policy) (now : ℤ) : Commutes (credit d) (nextPhase E p now) :=
  Commutes.bind (commutes_change fun _ => rfl) fun _ => beginPhase_credit p now

theorem enterGap_credit (now : ℤ) : Commutes (credit d) (enterGap E now) := by
  refine draw_credit.bind fun _ => commutes_check.bind fun _ => commutes_session (fun _ => rfl) fun x => ?_
  refine (sampleAtLeast_credit _ _ _).bind fun gap => ?_
  exact Commutes.bind (commutes_change fun _ => rfl) fun _ => commutes_outside

theorem endGap_credit (p : Policy) (glitch : Glitch) (now : ℤ) : Commutes (credit d) (endGap E p glitch now) := by
  refine Commutes.bind (commutes_change fun _ => rfl) fun _ => ?_
  split_ifs
  · exact nextPhase_credit p now
  · refine draw_credit.bind fun _ => (press_credit _).bind fun _ => ?_
    exact Commutes.bind (commutes_change fun _ => rfl) fun _ => commutes_outside

theorem endHold_credit (p : Policy) (k : String) (now : ℤ) : Commutes (credit d) (endHold E p k now) := by
  refine (release_credit k).bind fun _ => commutes_session (fun _ => rfl) fun x => ?_
  split_ifs
  · exact enterGap_credit now
  · exact nextPhase_credit p now

theorem stop_credit : Commutes (credit d) (stop E) := by
  refine commutes_session (fun _ => rfl) fun x => ?_
  cases x.policy with
  | none => exact commutes_pure
  | some p =>
    refine Commutes.bind (Commutes.afterwards ?_ fun _ => rfl) fun _ => commutes_outside
    exact commutes_session (fun _ => rfl) fun y => commutes_forM release_credit y.held

theorem startIdle_credit (p : Policy) (now entropy : ℤ) : Commutes (credit d) (startIdle E p now entropy) := by
  refine (reseed_commutes (aside_credit d) entropy).bind fun _ => ?_
  refine Commutes.bind (commutes_change fun _ => rfl) fun _ => ?_
  exact (beginPhase_credit p now).bind fun _ => commutes_session (fun _ => rfl) fun _ => commutes_outside

theorem start_credit (p : Policy) (now entropy : ℤ) : Commutes (credit d) (start E p now entropy) := by
  rw [start_eq]
  refine commutes_session (fun _ => rfl) fun x => ?_
  cases x.policy with
  | none => exact startIdle_credit p now entropy
  | some q => exact commutes_outside.bind fun _ => stop_credit.bind fun _ => startIdle_credit p now entropy

theorem tick_credit (now : ℤ) : Commutes (credit d) (tick E now) := by
  refine commutes_session (fun _ => rfl) fun x => ?_
  cases x.policy with
  | none => exact commutes_pure
  | some p =>
    dsimp only
    split_ifs
    · refine commutes_check.bind fun _ => commutes_outside.bind fun _ => ?_
      exact Commutes.bind (commutes_change fun _ => rfl) fun _ => stop_credit
    · split
      · refine commutes_check.bind fun _ => ?_
        split_ifs
        · exact endGap_credit p _ now
        · exact commutes_pure
      · exact nextPhase_credit p now
      · refine commutes_check.bind fun _ => ?_
        split_ifs
        · exact endHold_credit p _ now
        · exact commutes_pure

theorem call_credit (call : Call) : Commutes (credit d) (call.act E) := by
  cases call with
  | start p now entropy => exact start_credit p now entropy
  | stop => exact stop_credit
  | tick now => exact tick_credit now

end Credit

/-- **The counters are only added to**: from other counters a run does the same, and adds as much to them. -/
theorem run_credit (E : Setup ω) (d : Stats) (calls : List Call) (s : Scene ω) :
    run E calls (s.on (credit d)) = (run E calls s).on (credit d) := by
  induction calls generalizing s with
  | nil => rfl
  | cons call calls ih =>
    have hstep : step E (s.on (credit d)) call = (step E s call).on (credit d) := congrArg Prod.snd (call_credit call s)
    rw [run, List.foldl_cons, hstep]
    exact ih _

/-! ## Idle sessions -/

theorem press_returns (hR : E.rig.Reliable) (hN : E.SteadyWaits) (k : String) (s : Scene ω) :
    (press E k s).1 = .ok () := by
  have h : Ends (press E k) s (fun _ _ => True) (fun _ _ => False) := by
    obtain ⟨us, hus⟩ := Normal.waitOf_ok E.config.maxWaitUs _ (hN.travel s.session.generator)
    simp only [press, humanDelay, ends_bind, ends_draw, ends_check, hus, ends_outside, ends_attempt]
    rcases hr : E.rig.keyDown k (E.rig.waitUs us s.world) with ⟨_ | _, w⟩
    · have hdown := (hR k (E.rig.waitUs us s.world)).1
      rw [hr] at hdown
      cases hdown
    · trivial
  exact h.returns.choose_spec.1

theorem reseed_returns (entropy : ℤ) (s : Scene ω) : (reseed E entropy s).1 = .ok () := by
  have h : Ends (reseed E entropy) s (fun _ _ => True) (fun _ _ => False) := by
    rw [reseed, ends_bind, ends_draw]
    split_ifs <;> trivial
  exact h.returns.choose_spec.1

/-- a phase sets its stamp before it is read -/
theorem beginPhase_stamped (hR : E.rig.Reliable) (hN : E.SteadyWaits) (p : Policy) (now b : ℤ) (s : Scene ω) :
    beginPhase E p now (s.on fun x => { x with phaseAt := b }) = beginPhase E p now s := by
  have haside : Aside fun x : Session => { x with phaseAt := b } := ⟨fun _ => rfl, fun _ _ => rfl⟩
  have hcommutes := press_commutes (E := E) haside (p.phase s.session.phaseIndex).key fun _ => rfl
  have hreturns := press_returns hR hN (p.phase s.session.phaseIndex).key s
  rw [beginPhase, session_bind, session_bind]
  show (press E (p.phase s.session.phaseIndex).key >>= _) _ = _
  rw [bind_run, bind_run, hcommutes]
  rcases hr : press E (p.phase s.session.phaseIndex).key s with ⟨_ | _, t⟩ <;> rw [hr] at hreturns
  · cases hreturns
  · rfl

/-- a start sets the index and the stamps before they are read -/
theorem startIdle_left (hR : E.rig.Reliable) (hN : E.SteadyWaits) (p : Policy) (now entropy : ℤ) (i : ℕ) (a b : ℤ)
    (s : Scene ω) : startIdle E p now entropy (s.on (leave i a b)) = startIdle E p now entropy s := by
  have hcommutes := reseed_commutes (E := E) (aside_leave i a b) entropy
  have hreturns := reseed_returns (E := E) entropy s
  rw [startIdle, bind_run, bind_run, hcommutes]
  rcases hr : reseed E entropy s with ⟨_ | _, t⟩ <;> rw [hr] at hreturns
  · cases hreturns
  have hstamped := beginPhase_stamped hR hN p now b ⟨opened p t.session now 0, t.world⟩
  dsimp only
  rw [change_bind, change_bind]
  apply bind_same
  exact hstamped

/-- an idle session is a fresh one but for its counters and for the index and the stamps that were left -/
theorem Idle.eq {x : Session} (h : Idle x) :
    x = credit x.stats (leave x.phaseIndex x.startedAt x.phaseAt (fresh x.generator)) := by
  obtain ⟨policy, index, held, startedAt, phaseAt, target, armed, glitch, stats, generator⟩ := x
  obtain ⟨rfl, rfl, rfl, rfl, rfl⟩ := h
  rfl

/-- a start from an idle session is one from a fresh session -/
theorem start_idle (hR : E.rig.Reliable) (hN : E.SteadyWaits) {x : Session} (h : Idle x) (w : ω) (p : Policy)
    (now entropy : ℤ) :
    step E ⟨x, w⟩ (.start p now entropy) =
      (step E ⟨fresh x.generator, w⟩ (.start p now entropy)).on (credit x.stats) := by
  have hidle : start E p now entropy ⟨x, w⟩ = startIdle E p now entropy ⟨x, w⟩ := by
    rw [start_eq, session_bind, h.policy]
  have hleft := startIdle_left hR hN p now entropy x.phaseIndex x.startedAt x.phaseAt ⟨fresh x.generator, w⟩
  have hcredit := startIdle_credit (E := E) (d := x.stats) p now entropy
    (Scene.on (leave x.phaseIndex x.startedAt x.phaseAt) ⟨fresh x.generator, w⟩)
  show (start E p now entropy ⟨x, w⟩).2 = (startIdle E p now entropy ⟨fresh x.generator, w⟩).2.on (credit x.stats)
  rw [hidle]
  calc (startIdle E p now entropy ⟨x, w⟩).2
      = (startIdle E p now entropy (Scene.on (credit x.stats)
          (Scene.on (leave x.phaseIndex x.startedAt x.phaseAt) ⟨fresh x.generator, w⟩))).2 := by
        congr 2
        exact congrArg (Scene.mk · w) h.eq
    _ = _ := by rw [hcredit, hleft]

/-- nothing but a start does anything to an idle session -/
theorem step_idle {s : Scene ω} (h : s.session.policy = none) {call : Call} (hcall : call.starts = 0) :
    step E s call = s := by
  cases call with
  | start => cases hcall
  | stop =>
    show (stop E s).2 = s
    rw [stop, session_bind, h]
    rfl
  | tick now => exact step_early (Or.inl h)

/-- **An idle session does what a fresh one does**: nothing until the first start, and from there on the same, with its
own counters added to. -/
theorem run_idle (hR : E.rig.Reliable) (hN : E.SteadyWaits) {x : Session} (h : Idle x) (w : ω) (calls : List Call) :
    ((calls.map Call.starts).sum = 0 → run E calls ⟨x, w⟩ = ⟨x, w⟩) ∧
      (0 < (calls.map Call.starts).sum →
        run E calls ⟨x, w⟩ = (run E calls ⟨fresh x.generator, w⟩).on (credit x.stats)) := by
  induction calls with
  | nil => exact ⟨fun _ => rfl, fun hlt => absurd hlt (lt_irrefl 0)⟩
  | cons call calls ih =>
    rw [List.map_cons, List.sum_cons]
    rcases Nat.eq_zero_or_pos call.starts with hzero | hpos
    · have hstep : step E ⟨x, w⟩ call = ⟨x, w⟩ := step_idle h.policy hzero
      have hfresh : step E ⟨fresh x.generator, w⟩ call = ⟨fresh x.generator, w⟩ := step_idle rfl hzero
      rw [hzero, Nat.zero_add, run, run, List.foldl_cons, List.foldl_cons, hstep, hfresh]
      exact ih
    · cases call with
      | stop => cases hpos
      | tick now => cases hpos
      | start p now entropy =>
        refine ⟨fun hsum => ?_, fun _ => ?_⟩
        · have : Call.starts (.start p now entropy) = 1 := rfl
          omega
        · rw [run, run, List.foldl_cons, List.foldl_cons, start_idle hR hN h]
          exact run_credit E x.stats calls _

end Session

/-! ## Traced rigs -/

/-- one thing done through a rig -/
inductive Deed where
  | call (a : Attempt)
  | wait (us : ℤ)
  | entry (e : Entry)

/-- a world and all that was done in it -/
structure Traced (ω : Type) where
  world : ω
  trace : List Deed := []

/-- a rig that writes down what is done through it -/
def Rig.traced (R : Rig ω) : Rig (Traced ω) where
  keyDown k w :=
    ((R.keyDown k w.world).1, ⟨(R.keyDown k w.world).2, w.trace ++ [.call ⟨.down, k, (R.keyDown k w.world).1.isOk⟩]⟩)
  keyUp k w :=
    ((R.keyUp k w.world).1, ⟨(R.keyUp k w.world).2, w.trace ++ [.call ⟨.up, k, (R.keyUp k w.world).1.isOk⟩]⟩)
  waitUs us w := ⟨R.waitUs us w.world, w.trace ++ [.wait us]⟩
  note e w := ⟨R.note e w.world, w.trace ++ [.entry e]⟩

/-- the setup with its rig traced -/
def Setup.traced (E : Setup ω) : Setup (Traced ω) := ⟨E.config, E.noise, E.rig.traced⟩

/-- a traced rig does what the rig does -/
theorem Rig.traced_alike (R : Rig ω) : R.traced.Alike (fun v w => v.world = w) R where
  down := by rintro k v _ rfl; exact ⟨rfl, rfl⟩
  up := by rintro k v _ rfl; exact ⟨rfl, rfl⟩
  wait := by rintro us v _ rfl; rfl
  note := by rintro e v _ rfl; rfl

/-- two rigs on which no key call faults write down the same -/
theorem Rig.Reliable.traced_alike {R : Rig ω} {R' : Rig ω'} (hR : R.Reliable) (hR' : R'.Reliable) :
    R.traced.Alike (fun v w => v.trace = w.trace) R'.traced := by
  refine ⟨fun k v w h => ?_, fun k v w h => ?_, fun us v w h => ?_, fun e v w h => ?_⟩
  · simp only [Rig.traced, (hR k v.world).1, (hR' k w.world).1, h, and_self]
  · simp only [Rig.traced, (hR k v.world).2, (hR' k w.world).2, h, and_self]
  · exact congrArg (· ++ [Deed.wait us]) h
  · exact congrArg (· ++ [Deed.entry e]) h

theorem Rig.Reliable.traced {R : Rig ω} (h : R.Reliable) : R.traced.Reliable := fun k w => h k w.world

namespace Session

open Act

/-- **The trace is only written**: without it a run is the run on the rig itself. -/
theorem run_traced (E : Setup ω) (calls : List Call) (s : Scene (Traced ω)) :
    (run E.traced calls s).session = (run E calls ⟨s.session, s.world.world⟩).session ∧
      (run E.traced calls s).world.world = (run E calls ⟨s.session, s.world.world⟩).world :=
  run_alike (c := E.config) (N := E.noise) E.rig.traced_alike rfl rfl calls

/-! ## Whatever came before -/

/-- some run of a fresh session leads to `x`, with finite waits; its key calls may have faulted -/
def Reached (c : EngineConfig) (x : Session) : Prop :=
  ∃ (ω : Type) (E : Setup ω) (g : Generator) (w : ω) (calls : List Call),
    E.config = c ∧ E.SteadyWaits ∧ (run E calls ⟨fresh g, w⟩).session = x

theorem Reached.idle {c : EngineConfig} {x : Session} (h : Reached c x) (hp : x.policy = none) : Idle x := by
  obtain ⟨ω, E, g, w, calls, -, hN, rfl⟩ := h
  have hinv := run_inv hN (inv_fresh E.config g w) calls
  have htaped : (run E.taped calls (Scene.fresh g w)).session = (run E calls ⟨fresh g, w⟩).session :=
    congrArg Scene.session (run_taped E calls (Scene.fresh g w))
  rw [← htaped] at hp ⊢
  exact hinv.coherent.idle hp

theorem Idle.numeric {modes : List Policy} {x : Session} (h : Idle x) : Numeric modes x := by
  refine ⟨?_, ?_, ?_⟩
  · rw [h.target]
    exact Decimal.finite_zero
  · rw [h.glitch]
    exact nofun
  · rw [h.policy]
    exact nofun

/-- two sessions that differ in their counters only -/
def SameButCounters (x y : Session) : Prop := { x with stats := {} } = { y with stats := {} }

/-- **Sessions do not leak into each other.** Take two idle sessions with equal generators, each led to by any run of a
fresh session, of any policies and with any faults, stops and timeouts. Make the same calls on both, with the same
accepted configuration and finite samples, on rigs whose key calls never fault. Then the same is done through both rigs,
the generators are equal, and what is added to the counters is the same; once there has been a start, the sessions differ
in their counters only; and each next call returns on both. -/
theorem run_forgets {c : EngineConfig} {N : Noise} {R : Rig ω} {R' : Rig ω'} {modes : List Policy} (hR : R.Reliable)
    (hR' : R'.Reliable) (hc : c.Accepted) (hN : Setup.SteadySamples ⟨c, N, R⟩ modes) {x y : Session}
    (hx : Reached c x) (hy : Reached c y) (ix : x.policy = none) (iy : y.policy = none)
    (hg : x.generator = y.generator) (w : ω) (v : ω') (calls : List Call) (hm : ∀ call ∈ calls, call.Of modes) :
    let s := run (Setup.traced ⟨c, N, R⟩) calls ⟨x, ⟨w, []⟩⟩
    let t := run (Setup.traced ⟨c, N, R'⟩) calls ⟨y, ⟨v, []⟩⟩
    t.world.trace = s.world.trace ∧ t.session.generator = s.session.generator ∧
      (∃ d, s.session.stats = x.stats.plus d ∧ t.session.stats = y.stats.plus d) ∧
      (0 < (calls.map Call.starts).sum → SameButCounters s.session t.session) ∧
      ∀ call : Call, call.Of modes → (call.act (Setup.traced ⟨c, N, R⟩) s).1 = .ok () ∧
        (call.act (Setup.traced ⟨c, N, R'⟩) t).1 = .ok () := by
  intro s t
  have hT : Setup.SteadySamples (Setup.traced ⟨c, N, R⟩) modes := hN.onRig R.traced
  have hT' : Setup.SteadySamples (Setup.traced ⟨c, N, R'⟩) modes := hN.onRig R'.traced
  have jx : Idle x := hx.idle ix
  have jy : Idle y := hy.idle iy
  obtain ⟨hx0, hx1⟩ := run_idle hR.traced hT.toSteadyWaits jx ⟨w, []⟩ calls
  obtain ⟨hy0, hy1⟩ := run_idle hR'.traced hT'.toSteadyWaits jy ⟨v, []⟩ calls
  -- from a fresh session the same is done on both rigs
  obtain ⟨hsession, htrace⟩ := run_alike (c := c) (N := N) (hR.traced_alike hR')
    (s := ⟨fresh x.generator, ⟨w, []⟩⟩) (t := ⟨fresh y.generator, ⟨v, []⟩⟩) (congrArg fresh hg) rfl calls
  have hreturns : ∀ call : Call, call.Of modes → (call.act (Setup.traced ⟨c, N, R⟩) s).1 = .ok () ∧
      (call.act (Setup.traced ⟨c, N, R'⟩) t).1 = .ok () := by
    intro call hcall
    have hs := run_numeric hR.traced hT hc hm (s := ⟨x, ⟨w, []⟩⟩) jx.numeric
    have ht := run_numeric hR'.traced hT' hc hm (s := ⟨y, ⟨v, []⟩⟩) jy.numeric
    obtain ⟨_, hok, -⟩ := (call_returns hR.traced hT hc hcall s hs).returns
    obtain ⟨_, hok', -⟩ := (call_returns hR'.traced hT' hc hcall t ht).returns
    exact ⟨hok, hok'⟩
  rcases Nat.eq_zero_or_pos (calls.map Call.starts).sum with hzero | hpos
  · -- nothing has been done yet
    have hs : s = ⟨x, ⟨w, []⟩⟩ := hx0 hzero
    have ht : t = ⟨y, ⟨v, []⟩⟩ := hy0 hzero
    refine ⟨by rw [hs, ht], by rw [hs, ht, hg], ⟨{}, by rw [hs]; rfl, by rw [ht]; rfl⟩, ?_, hreturns⟩
    exact fun hpos => absurd hzero (Nat.ne_of_gt hpos)
  · have hs : s = (run (Setup.traced ⟨c, N, R⟩) calls ⟨fresh x.generator, ⟨w, []⟩⟩).on (credit x.stats) := hx1 hpos
    have ht : t = (run (Setup.traced ⟨c, N, R'⟩) calls ⟨fresh y.generator, ⟨v, []⟩⟩).on (credit y.stats) := hy1 hpos
    rw [hs, ht]
    refine ⟨htrace.symm, (congrArg Session.generator hsession).symm, ⟨_, rfl, ?_⟩, fun _ => ?_, ?_⟩
    · exact congrArg (y.stats.plus ·.stats) hsession.symm
    · exact congrArg (fun z : Session => { z with stats := {} }) hsession
    · rw [← hs, ← ht]
      exact hreturns

/-- a mode that another policy ran before, which timed out, and one that was stopped at once -/
theorem run_forgets_og :
    let x := (run (plain 0) [.start .extra 7 1, .tick 150007] ⟨fresh .default, ()⟩).session
    let y := (run (plain 0) [.start .og 0 1, .stop] ⟨fresh .default, ()⟩).session
    x.stats ≠ y.stats ∧ x.startedAt ≠ y.startedAt ∧
      SameButCounters (run (plain 0).traced [.start .og 9 2, .tick 1000] ⟨x, ⟨(), []⟩⟩).session
        (run (plain 0).traced [.start .og 9 2, .tick 1000] ⟨y, ⟨(), []⟩⟩).session := by
  intro x y
  have hsamples := plain_samples 0 Policy.builtin (by decide +kernel)
  have hx : Reached (plain 0).config x := ⟨Unit, plain 0, .default, (), _, rfl, hsamples.toSteadyWaits, rfl⟩
  have hy : Reached (plain 0).config y := ⟨Unit, plain 0, .default, (), _, rfl, hsamples.toSteadyWaits, rfl⟩
  have ix : x.policy = none := Option.isNone_iff_eq_none.1 (by decide +kernel)
  have iy : y.policy = none := Option.isNone_iff_eq_none.1 (by decide +kernel)
  have hg : x.generator = y.generator := by decide +kernel
  refine ⟨by decide +kernel, by decide +kernel, ?_⟩
  exact (run_forgets Rig.quiet_reliable Rig.quiet_reliable (plain_accepted 0) hsamples hx hy ix iy hg () ()
    [.start .og 9 2, .tick 1000] (by simp [Call.Of, Policy.builtin])).2.2.2.1 (by decide)

end Session
end KeyHold
