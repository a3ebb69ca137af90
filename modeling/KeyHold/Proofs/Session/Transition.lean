/-
What a call makes of a session.

When its key calls are taken and its samples are finite, a call does one of a few things, and each is a function of the
session, of the stamp and of the generator it draws from. `Move` lists them for all calls and `Transition` those of a
tick, each with the key calls it makes; what follows about one call or many is read off these lists.

- `Early`: a tick comes too early for anything: nothing runs, or neither the timeout nor the end of the hold or gap has
  come. `tick_early`: it does nothing at all.
- `begun`, `parted`, `resumed`: the session once a phase has begun, once a hold has been split, and once a key has been
  pressed again after the gap.
- `Smooth`: what holds of every session as long as key calls are taken and samples finite (`run_smooth`).
- `step_moves`: **every call** of a smooth run returns, and makes one move; `run_keptBy`: what moves keep, runs keep.
-/
import Mathlib.Tactic
import KeyHold.Proofs.Session.Total

namespace KeyHold

variable {ω ω' : Type}

/-- samples do not depend on the rig -/
theorem Setup.SteadySamples.onRig {E : Setup ω} {modes : List Policy} (h : E.SteadySamples modes) (R : Rig ω') :
    Setup.SteadySamples ⟨E.config, E.noise, R⟩ modes :=
  ⟨⟨h.travel, h.bounceOff, h.bounceOn⟩, h.hold, h.gap⟩

theorem Setup.SteadySamples.taped {E : Setup ω} {modes : List Policy} (h : E.SteadySamples modes) :
    E.taped.SteadySamples modes :=
  h.onRig E.rig.taped

theorem Rig.Reliable.taped {R : Rig ω} (h : R.Reliable) : R.taped.Reliable := fun k w => h k w.world

namespace Session

open Act Tape

/-! ## When a tick comes too early -/

/-- the timeout has not come -/
def InTime (c : EngineConfig) (x : Session) (now : ℤ) : Prop := elapsed now x.startedAt < c.safetyTimeoutMs

/-- fewer milliseconds have passed since the phase's stamp than the whole ones of `ms` -/
def Before (x : Session) (ms : Float) (now : ℤ) : Prop := ∃ n, wholePart ms = .ok n ∧ elapsed now x.phaseAt < n

/-- the whole milliseconds of `ms` have passed since the phase's stamp -/
def Due (x : Session) (ms : Float) (now : ℤ) : Prop := ∃ n, wholePart ms = .ok n ∧ n ≤ elapsed now x.phaseAt

/-- nothing runs, or neither the timeout nor the end of the gap or of the hold has come -/
def Early (c : EngineConfig) (x : Session) (now : ℤ) : Prop :=
  x.policy = none ∨ (InTime c x now ∧
    ((∃ gl, x.glitch = some gl ∧ Before x gl.gap now) ∨ (x.glitch = none ∧ x.held ≠ [] ∧ Before x x.target now)))

/-- an early tick does nothing: session and world are the same after it -/
theorem tick_early {E : Setup ω} {s : Scene ω} {now : ℤ} (h : Early E.config s.session now) :
    tick E now s = (.ok (), s) := by
  rw [tick, session_bind]
  cases hp : s.session.policy with
  | none => rfl
  | some p =>
    rcases h with hn | ⟨ht, hw⟩
    · rw [hn] at hp
      cases hp
    dsimp only
    rw [if_neg (not_le.2 ht)]
    rcases hw with ⟨gl, hgl, n, hn, hlt⟩ | ⟨hgl, hh, n, hn, hlt⟩
    · rw [hgl]
      dsimp only
      rw [hn, bind_run]
      exact congrFun (if_neg (not_le.2 hlt)) s
    · obtain ⟨k, rest, hk⟩ := List.exists_cons_of_ne_nil hh
      rw [hgl, hk]
      dsimp only
      rw [hn, bind_run]
      exact congrFun (if_neg (not_le.2 hlt)) s

theorem Due.not_before {x : Session} {ms : Float} {now : ℤ} (h : Due x ms now) : ¬ Before x ms now := by
  obtain ⟨n, hn, hle⟩ := h
  rintro ⟨m, hm, hlt⟩
  have hnm : n = m := Except.ok.inj (hn.symm.trans hm)
  omega

theorem Early.inTime {c : EngineConfig} {x : Session} {now : ℤ} {p : Policy} (h : Early c x now)
    (hp : x.policy = some p) : InTime c x now := by
  rcases h with hn | h
  · rw [hn] at hp
    cases hp
  · exact h.1

/-- a hold goes on until the timeout or its own end -/
theorem Holding.early_iff {c : EngineConfig} {x : Session} {now : ℤ} {p : Policy} (h : Holding p x) :
    Early c x now ↔ InTime c x now ∧ Before x x.target now := by
  constructor
  · intro he
    refine ⟨he.inTime h.policy, ?_⟩
    rcases he with hn | ⟨-, ⟨gl, hgl, -⟩ | ⟨-, -, hb⟩⟩
    · rw [h.policy] at hn
      cases hn
    · rw [h.glitch] at hgl
      cases hgl
    · exact hb
  · rintro ⟨ht, hb⟩
    exact Or.inr ⟨ht, Or.inr ⟨h.glitch, by simp [h.held], hb⟩⟩

/-- a gap goes on until the timeout or its own end -/
theorem Waiting.early_iff {c : EngineConfig} {x : Session} {now : ℤ} {p : Policy} {gl : Glitch} (h : Waiting p x)
    (hgl : x.glitch = some gl) : Early c x now ↔ InTime c x now ∧ Before x gl.gap now := by
  constructor
  · intro he
    refine ⟨he.inTime h.policy, ?_⟩
    rcases he with hn | ⟨-, ⟨gl', hgl', hb⟩ | ⟨hnone, -⟩⟩
    · rw [h.policy] at hn
      cases hn
    · obtain rfl : gl = gl' := Option.some.inj (hgl.symm.trans hgl')
      exact hb
    · rw [hgl] at hnone
      cases hnone
  · rintro ⟨ht, hb⟩
    exact Or.inr ⟨ht, Or.inl ⟨gl, hgl, hb⟩⟩

/-! ## Sessions after a move -/

/-- the cycle has moved on by one -/
def onward (p : Policy) (x : Session) : Session := { x with phaseIndex := p.phaseAfter x.phaseIndex }

/-- the phase of the index has begun: its key is held, for a hold drawn with the generator `g` -/
def begun (E : Setup ω) (p : Policy) (x : Session) (now : ℤ) (g : Generator) : Session :=
  let phase := p.phase x.phaseIndex
  let sample := E.noise.normal phase.mean phase.stddev g
  let rarity := Generator.oneIn E.config.glitchOneIn sample.2
  { x with held := [phase.key], phaseAt := now, target := Normal.atLeast E.config.minHoldMs sample.1,
           armed := rarity.1, glitch := none, generator := rarity.2, stats.phases := x.stats.phases + 1 }

/-- the hold has been split after `pct` percent of it, for a gap; both are drawn with the generator `g` -/
def parted (E : Setup ω) (x : Session) (now : ℤ) (pct : Float) (g : Generator) : Session :=
  let sample := E.noise.normal E.config.glitchGapMeanMs E.config.glitchGapStddevMs
    (Generator.range E.config.glitchSplitMinPct E.config.glitchSplitMaxPct g).2
  { x with glitch := some ⟨Normal.atLeast E.config.glitchGapMinMs sample.1, x.target * (1.0 - pct / 100.0)⟩,
           armed := false, phaseAt := now, generator := sample.2, stats.glitches := x.stats.glitches + 1 }

/-- `key` is held for what remained of a hold -/
def resumed (p : Policy) (x : Session) (gl : Glitch) (key : String) (now : ℤ) (g : Generator) : Session :=
  { x with held := [key], phaseIndex := p.phaseForKey key, phaseAt := now, target := gl.remaining, armed := false,
           glitch := none, generator := g }

/-- a policy is about to run from its first phase, after `n` bounces of what was let go for it -/
def opened (p : Policy) (x : Session) (now : ℤ) (n : ℕ) : Session :=
  { x with policy := some p, phaseIndex := 0, startedAt := now, stats.sessions := x.stats.sessions + 1,
           stats.bounces := x.stats.bounces + n }

/-- the transitions of a tick, with the key calls that each makes -/
inductive Transition (E : Setup ω) (now : ℤ) (x : Session) : Session → Tape → Prop
  /-- the timeout has come: what is held is let go -/
  | timedOut {p : Policy} {n : ℕ} {g : Generator} {new : Tape} (running : x.policy = some p)
      (late : ¬ InTime E.config x now) (calls : LetGo x.held n new) :
      Transition E now x (stopped { x with stats.timeouts := x.stats.timeouts + 1 } n g) new
  /-- an armed hold is over: its key is let go, for a gap -/
  | parted {p : Policy} {n : ℕ} {pct : Float} {g : Generator} {new : Tape} (holding : Holding p x)
      (inTime : InTime E.config x now) (due : Due x x.target now) (armed : x.armed = true)
      (calls : Released (p.phase x.phaseIndex).key n new)
      (share : toDouble (Generator.range E.config.glitchSplitMinPct E.config.glitchSplitMaxPct g).1 = .ok pct) :
      Transition E now x (parted E (letGo x (p.phase x.phaseIndex).key n g) now pct g) new
  /-- a hold is over: its key is let go, and the next phase begins -/
  | advanced {p : Policy} {n : ℕ} {g : Generator} {new : Tape} (holding : Holding p x)
      (inTime : InTime E.config x now) (due : Due x x.target now) (unarmed : x.armed = false)
      (calls : Released (p.phase x.phaseIndex).key n new) :
      Transition E now x (begun E p (onward p (letGo x (p.phase x.phaseIndex).key n g)) now g)
        (new ++ [⟨.down, (p.phase (p.phaseAfter x.phaseIndex)).key, true⟩])
  /-- a gap is over with nothing remaining of its hold: the next phase begins -/
  | skipped {p : Policy} {gl : Glitch} {g : Generator} (waiting : Waiting p x) (inTime : InTime E.config x now)
      (pending : x.glitch = some gl) (due : Due x gl.gap now) (spent : gl.remaining ≤ 0.0) :
      Transition E now x (begun E p (onward p x) now g) [⟨.down, (p.phase (p.phaseAfter x.phaseIndex)).key, true⟩]
  /-- a gap is over: a key of the policy is pressed for what remains of its hold -/
  | resumed {p : Policy} {gl : Glitch} {key : String} {g : Generator} (waiting : Waiting p x)
      (inTime : InTime E.config x now) (pending : x.glitch = some gl) (due : Due x gl.gap now)
      (left : ¬ gl.remaining ≤ 0.0) (mem : key ∈ p.keys) :
      Transition E now x (resumed p x gl key now g) [⟨.down, key, true⟩]

/-- what a call makes of a session, with the key calls it makes -/
inductive Move (E : Setup ω) (x : Session) : Call → Session → Tape → Prop
  | early {now : ℤ} (h : Early E.config x now) : Move E x (.tick now) x []
  | tick {now : ℤ} {y : Session} {new : Tape} (h : Transition E now x y new) : Move E x (.tick now) y new
  | rest (idle : x.policy = none) : Move E x .stop x []
  | stop {p : Policy} {n : ℕ} {g : Generator} {new : Tape} (running : x.policy = some p) (calls : LetGo x.held n new) :
      Move E x .stop (stopped x n g) new
  | start {p : Policy} {now entropy : ℤ} {n : ℕ} {g : Generator} {new : Tape} (calls : LetGo x.held n new) :
      Move E x (.start p now entropy) (begun E p (opened p x now n) now g) (new ++ [⟨.down, (p.phase 0).key, true⟩])

theorem Move.transition {E : Setup ω} {now : ℤ} {x y : Session} {new : Tape} (h : Move E x (.tick now) y new)
    (he : ¬ Early E.config x now) : Transition E now x y new := by
  cases h with
  | early hearly => exact absurd hearly he
  | tick ht => exact ht

/-! ## What operations leave that return -/

variable {E : Setup ω} {s : Scene (Taped ω)} {p : Policy} {Q : Unit → Scene (Taped ω) → Prop}

/-- a phase begins with nothing in hand -/
theorem beginPhase_begins (hN : E.SteadyWaits) (hh : s.session.held = []) {now : ℤ}
    (hQ : ∀ g v, Q () ⟨begun E p s.session now g,
      ⟨v, s.world.tape ++ [⟨.down, (p.phase s.session.phaseIndex).key, true⟩]⟩⟩) :
    Ends (beginPhase E.taped p now) s Q (fun _ _ => True) := by
  rw [beginPhase, ends_bind, ends_session, ends_bind]
  refine press_ends hN (fun g v => ?_) (fun _ _ _ => trivial)
  simp only [setNextHold, sampleAtLeast, ends_bind, ends_draw, ends_change, ends_pure, hh, List.nil_append]
  exact hQ g v

theorem nextPhase_begins (hN : E.SteadyWaits) (hh : s.session.held = []) {now : ℤ}
    (hQ : ∀ g v, Q () ⟨begun E p (onward p s.session) now g,
      ⟨v, s.world.tape ++ [⟨.down, (p.phase (p.phaseAfter s.session.phaseIndex)).key, true⟩]⟩⟩) :
    Ends (nextPhase E.taped p now) s Q (fun _ _ => True) := by
  rw [nextPhase, ends_bind, ends_change]
  apply beginPhase_begins hN
  · exact hh
  · exact hQ

theorem enterGap_parts {now : ℤ}
    (hQ : ∀ pct v, toDouble (Generator.range E.config.glitchSplitMinPct E.config.glitchSplitMaxPct
        s.session.generator).1 = .ok pct →
      Q () ⟨parted E s.session now pct s.session.generator, ⟨v, s.world.tape⟩⟩) :
    Ends (enterGap E.taped now) s Q (fun _ _ => True) := by
  rw [enterGap, ends_bind, ends_draw, ends_bind, ends_check]
  cases hd : toDouble (Generator.range E.taped.config.glitchSplitMinPct E.taped.config.glitchSplitMaxPct
      s.session.generator).1 with
  | error e => trivial
  | ok pct =>
    simp only [sampleAtLeast, ends_bind, ends_pure, ends_session, ends_draw, ends_change]
    exact say_ends fun v => hQ pct v hd

theorem endGap_moves (hN : E.SteadyWaits) (hw : Waiting p s.session) {gl : Glitch} {now : ℤ}
    (hspent : gl.remaining ≤ 0.0 → ∀ g v, Q () ⟨begun E p (onward p s.session) now g,
      ⟨v, s.world.tape ++ [⟨.down, (p.phase (p.phaseAfter s.session.phaseIndex)).key, true⟩]⟩⟩)
    (hleft : ¬ gl.remaining ≤ 0.0 → ∀ key ∈ p.keys, ∀ g v, Q () ⟨resumed p s.session gl key now g,
      ⟨v, s.world.tape ++ [⟨.down, key, true⟩]⟩⟩) :
    Ends (endGap E.taped p gl now) s Q (fun _ _ => True) := by
  rw [endGap, ends_bind, ends_change]
  by_cases hr : gl.remaining ≤ 0.0
  · rw [if_pos hr]
    apply nextPhase_begins hN
    · exact hw.held
    · exact hspent hr
  · rw [if_neg hr, ends_bind, ends_draw]
    dsimp only
    rw [ends_bind]
    refine press_ends hN (fun g v => ?_) (fun _ _ _ => trivial)
    rw [ends_bind, ends_change]
    refine say_ends fun v => ?_
    simp only [hw.held, List.nil_append]
    exact hleft hr _ (choice_mem p _) g v

theorem endHold_moves (hN : E.SteadyWaits) (hh : Holding p s.session) {now : ℤ}
    (harmed : s.session.armed = true → ∀ n g pct v new, Released (p.phase s.session.phaseIndex).key n new →
      toDouble (Generator.range E.config.glitchSplitMinPct E.config.glitchSplitMaxPct g).1 = .ok pct →
      Q () ⟨parted E (letGo s.session (p.phase s.session.phaseIndex).key n g) now pct g, ⟨v, s.world.tape ++ new⟩⟩)
    (hfree : s.session.armed = false → ∀ n g v new, Released (p.phase s.session.phaseIndex).key n new →
      Q () ⟨begun E p (onward p (letGo s.session (p.phase s.session.phaseIndex).key n g)) now g,
        ⟨v, s.world.tape ++ (new ++ [⟨.down, (p.phase (p.phaseAfter s.session.phaseIndex)).key, true⟩])⟩⟩) :
    Ends (endHold E.taped p (p.phase s.session.phaseIndex).key now) s Q (fun _ _ => True) := by
  rw [endHold, ends_bind]
  refine release_ends hN (fun n g v new hn => ?_) (fun _ _ _ _ _ _ => trivial)
  rw [ends_bind, ends_session]
  cases ha : s.session.armed with
  | true =>
    rw [if_pos (show (letGo s.session _ n g).armed = true from ha)]
    exact enterGap_parts fun pct v hd => harmed ha n g pct v new hn hd
  | false =>
    have hempty : (letGo s.session (p.phase s.session.phaseIndex).key n g).held = [] := by
      simp [letGo, hh.held]
    rw [if_neg (show ¬ (letGo s.session _ n g).armed = true by simp [letGo, ha])]
    refine nextPhase_begins hN hempty fun g v => ?_
    rw [List.append_assoc]
    exact hfree ha n g v new hn

/-- a stop of a session that runs lets go of what is held -/
theorem stop_moves (hN : E.SteadyWaits) (hl : s.session.held.length ≤ 1) (hp : s.session.policy = some p)
    (hQ : ∀ n g v new, LetGo s.session.held n new → Q () ⟨stopped s.session n g, ⟨v, s.world.tape ++ new⟩⟩) :
    Ends (stop E.taped) s Q (fun _ _ => True) := by
  refine stop_ends hN hl (fun hn => ?_) hQ (fun _ _ _ _ _ _ _ _ => trivial)
  rw [hp] at hn
  cases hn

/-- what a tick at `now` leaves that returns: it was early, or it made a transition -/
def Turned (E : Setup ω) (now : ℤ) (s t : Scene (Taped ω)) : Prop :=
  (Early E.config s.session now ∧ t = s) ∨
    ∃ new, Transition E now s.session t.session new ∧ t.world.tape = s.world.tape ++ new

/-- the hold goes on, or it is over -/
theorem hold_moves (hN : E.SteadyWaits) (hh : Holding p s.session) {now : ℤ} (ht : InTime E.config s.session now) :
    Ends (check (wholePart s.session.target) >>= fun n =>
      if elapsed now s.session.phaseAt ≥ n then endHold E.taped p (p.phase s.session.phaseIndex).key now else pure ())
      s (fun _ t => Turned E now s t) (fun _ _ => True) := by
  rw [ends_bind, ends_check]
  cases hn : wholePart s.session.target with
  | error e => trivial
  | ok n =>
    dsimp only
    split_ifs with hlate
    · have hdue : Due s.session s.session.target now := ⟨n, hn, hlate⟩
      apply endHold_moves hN hh
      · intro ha m g pct v new hr hd
        exact Or.inr ⟨new, .parted hh ht hdue ha hr hd, rfl⟩
      · intro ha m g v new hr
        exact Or.inr ⟨_, .advanced hh ht hdue ha hr, rfl⟩
    · have hbefore : Before s.session s.session.target now := ⟨n, hn, not_le.1 hlate⟩
      exact Or.inl ⟨hh.early_iff.2 ⟨ht, hbefore⟩, rfl⟩

/-- the gap goes on, or it is over -/
theorem gap_moves (hN : E.SteadyWaits) (hw : Waiting p s.session) {gl : Glitch} (hgl : s.session.glitch = some gl)
    {now : ℤ} (ht : InTime E.config s.session now) :
    Ends (check (wholePart gl.gap) >>= fun n =>
      if elapsed now s.session.phaseAt ≥ n then endGap E.taped p gl now else pure ())
      s (fun _ t => Turned E now s t) (fun _ _ => True) := by
  rw [ends_bind, ends_check]
  cases hn : wholePart gl.gap with
  | error e => trivial
  | ok n =>
    dsimp only
    split_ifs with hlate
    · have hdue : Due s.session gl.gap now := ⟨n, hn, hlate⟩
      apply endGap_moves hN hw
      · intro hr g v
        exact Or.inr ⟨_, .skipped hw ht hgl hdue hr, rfl⟩
      · intro hr key hkey g v
        exact Or.inr ⟨_, .resumed hw ht hgl hdue hr hkey, rfl⟩
    · have hbefore : Before s.session gl.gap now := ⟨n, hn, not_le.1 hlate⟩
      exact Or.inl ⟨(hw.early_iff hgl).2 ⟨ht, hbefore⟩, rfl⟩

theorem timeOut_moves (hN : E.SteadyWaits) (h : Fine s) (hp : s.session.policy = some p) {now : ℤ}
    (ht : ¬ InTime E.config s.session now) :
    Ends (timeOut E.taped p) s (fun _ t => Turned E now s t) (fun _ _ => True) := by
  rw [timeOut, ends_bind, ends_check]
  cases timeoutSeconds E.taped.config with
  | error e => trivial
  | ok seconds =>
    dsimp only
    rw [ends_bind]
    refine say_ends fun v => ?_
    rw [ends_bind, ends_change]
    apply stop_moves hN (p := p)
    · exact h.grip.length_le
    · exact hp
    · exact fun n g v new hn => Or.inr ⟨new, .timedOut hp ht hn, rfl⟩

/-- a session in order that runs holds the key of its phase, or waits out a gap -/
theorem Fine.running (h : Fine s) (hp : s.session.policy = some p) : Holding p s.session ∨ Waiting p s.session := by
  rcases h.settled with hi | ⟨q, hh⟩ | ⟨q, hw⟩
  · rw [hi.policy] at hp
    cases hp
  · obtain rfl : q = p := Option.some.inj (hh.policy.symm.trans hp)
    exact Or.inl hh
  · obtain rfl : q = p := Option.some.inj (hw.policy.symm.trans hp)
    exact Or.inr hw

theorem tick_moves (hN : E.SteadyWaits) (h : Fine s) (now : ℤ) :
    Ends (tick E.taped now) s (fun _ t => Turned E now s t) (fun _ _ => True) := by
  rw [tick, ends_bind, ends_session]
  cases hp : s.session.policy with
  | none => exact Or.inl ⟨Or.inl hp, rfl⟩
  | some p =>
    dsimp only
    split_ifs with hlate
    · exact timeOut_moves hN h hp (not_lt.2 hlate)
    have ht : InTime E.config s.session now := not_le.1 hlate
    rcases h.running hp with hh | hw
    · rw [hh.glitch, hh.held]
      exact hold_moves hN hh ht
    · obtain ⟨gl, hgl⟩ := Option.isSome_iff_exists.1 hw.glitch
      rw [hgl]
      exact gap_moves hN hw hgl ht

/-- once nothing runs, a start opens the session and presses the first key -/
theorem startIdle_moves (hN : E.SteadyWaits) (h : Idle s.session) {now entropy : ℤ}
    (hQ : ∀ g v, Q () ⟨begun E p (opened p s.session now 0) now g,
      ⟨v, s.world.tape ++ [⟨.down, (p.phase 0).key, true⟩]⟩⟩) :
    Ends (startIdle E.taped p now entropy) s Q (fun _ _ => True) := by
  rw [startIdle, ends_bind]
  refine reseed_ends fun g v => ?_
  rw [ends_bind, ends_change, ends_bind]
  apply beginPhase_begins hN
  · exact h.held
  · intro g v
    rw [ends_bind, ends_session]
    exact say_ends fun v => hQ g v

theorem start_moves (hN : E.SteadyWaits) (h : Fine s) (now entropy : ℤ) :
    Ends (start E.taped p now entropy) s (fun _ t => ∃ new,
      Move E s.session (.start p now entropy) t.session new ∧ t.world.tape = s.world.tape ++ new)
      (fun _ _ => True) := by
  rw [start_eq, ends_bind, ends_session]
  cases hp : s.session.policy with
  | none =>
    have hi : Idle s.session := (Coherent.settled h.settled).idle hp
    refine startIdle_moves hN hi fun g v => ?_
    exact ⟨[] ++ [_], .start (hi.held ▸ .nothing), rfl⟩
  | some q =>
    dsimp only
    rw [ends_bind]
    refine say_ends fun v => ?_
    rw [ends_bind]
    apply stop_moves hN (p := q)
    · exact h.grip.length_le
    · exact hp
    · intro n g v new hn
      refine startIdle_moves hN (idle_idled _) fun g v => ?_
      exact ⟨_, .start hn, List.append_assoc _ _ _⟩

theorem call_moves (hN : E.SteadyWaits) (h : Fine s) (call : Call) :
    Ends (call.act E.taped) s (fun _ t => ∃ new,
      Move E s.session call t.session new ∧ t.world.tape = s.world.tape ++ new) (fun _ _ => True) := by
  cases call with
  | start p now entropy => exact start_moves hN h now entropy
  | stop =>
    cases hp : s.session.policy with
    | none =>
      show Ends (stop E.taped) s _ _
      rw [stop, ends_bind, ends_session, hp]
      exact ⟨[], .rest hp, (List.append_nil _).symm⟩
    | some p => exact stop_moves hN h.grip.length_le hp fun n g v new hn => ⟨new, .stop hp hn, rfl⟩
  | tick now =>
    refine (tick_moves hN h now).mono ?_ (fun _ _ _ => trivial)
    rintro _ t (⟨hearly, rfl⟩ | ⟨new, ht, htape⟩)
    · exact ⟨[], .early hearly, (List.append_nil _).symm⟩
    · exact ⟨new, .tick ht, htape⟩

/-! ## Smooth runs -/

/-- a session in order on an effector that took all its calls, with finite numbers -/
structure Smooth (modes : List Policy) (s : Scene (Taped ω)) : Prop extends Fine s where
  taken : AllTaken s.world.tape
  numeric : Numeric modes s.session

variable {modes : List Policy}

theorem smooth_fresh (g : Generator) (w : ω) : Smooth modes (Scene.fresh g w) :=
  ⟨⟨.idle ⟨rfl, rfl, rfl, rfl, rfl⟩, .empty⟩, allTaken_nil, Decimal.finite_zero, nofun, nofun⟩

/-- only the tape counts of the world -/
theorem Smooth.outside {s : Scene (Taped ω)} (h : Smooth modes s) {v : Taped ω} (hv : v.tape = s.world.tape) :
    Smooth modes ⟨s.session, v⟩ :=
  ⟨⟨h.settled, by rw [hv]; exact h.grip⟩, by rw [hv]; exact h.taken, h.numeric⟩

/-- **A call of a smooth run returns**, makes one move, and leaves a smooth session. -/
theorem step_moves (hR : E.rig.Reliable) (hc : E.config.Accepted) (hN : E.SteadySamples modes)
    (h : Smooth modes s) {call : Call} (hm : call.Of modes) :
    (call.act E.taped s).1 = .ok () ∧ Smooth modes (step E.taped s call) ∧
      ∃ new, Move E s.session call (step E.taped s call).session new ∧
        (step E.taped s call).world.tape = s.world.tape ++ new := by
  obtain ⟨_, hr, hnum⟩ := (call_returns hR.taped hN.taped hc hm s h.numeric).returns
  have hfine := call_ends hN.toSteadyWaits h.toFine.inv call
  have hmoves := call_moves hN.toSteadyWaits h.toFine call
  have htaken := step_taken hR h.taken call
  unfold step at *
  unfold Ends at hfine hmoves
  rcases hs : call.act E.taped s with ⟨e | _, t⟩ <;> rw [hs] at hr hnum hfine hmoves htaken
  · cases hr
  · exact ⟨rfl, ⟨hfine, htaken, hnum⟩, hmoves⟩

theorem run_smooth (hR : E.rig.Reliable) (hc : E.config.Accepted) (hN : E.SteadySamples modes)
    (h : Smooth modes s) {calls : List Call} (hm : ∀ call ∈ calls, call.Of modes) :
    Smooth modes (run E.taped calls s) := by
  induction calls generalizing s with
  | nil => exact h
  | cons call calls ih =>
    obtain ⟨hcall, hcalls⟩ := List.forall_mem_cons.1 hm
    exact ih (step_moves hR hc hN h hcall).2.1 hcalls

/-- what every move keeps holds after a run -/
theorem run_keptBy {I : Session → Prop} (hI : ∀ {x call y new}, Move E x call y new → I x → I y)
    (hR : E.rig.Reliable) (hc : E.config.Accepted) (hN : E.SteadySamples modes) (h : Smooth modes s) (hs : I s.session)
    {calls : List Call} (hm : ∀ call ∈ calls, call.Of modes) : I (run E.taped calls s).session := by
  induction calls generalizing s with
  | nil => exact hs
  | cons call calls ih =>
    obtain ⟨hcall, hcalls⟩ := List.forall_mem_cons.1 hm
    obtain ⟨-, hsmooth, new, hmove, -⟩ := step_moves hR hc hN h hcall
    exact ih hsmooth (hI hmove hs) hcalls

end Session
end KeyHold
