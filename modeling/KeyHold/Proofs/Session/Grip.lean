/-
What a session has in hand.

The invariant of a session on a taped rig, whatever key calls fault and at whatever point:
- its calls are those of one hand (`Tape.Grip`), and the keys it lists as held are the keys in hand;
- it is idle, holds the key of its current phase, or waits out a gap (`Settled`); or a fault has left it running with
  nothing in hand and no gap (`Stranded`);
- `Inv.settled`: as long as every call was taken it is settled.
A call of `start`, `stop` or `tick` that returns leaves a settled session, also from a stranded one (`call_ends`).

Premises:
- the samples that waits are made of are finite (`Setup.SteadyWaits`), else a wait could be cut between a press and
  its release;
- only for `Inv.settled`: the bounds of the split are in order, else the percentage drawn may be beyond doubles.
-/
import Mathlib.Tactic
import KeyHold.Proofs.Bounds
import KeyHold.Proofs.Generator
import KeyHold.Proofs.Policy
import KeyHold.Proofs.Session.Keys

namespace KeyHold

variable {ω : Type}

/-- the percentages that a split can have are doubles -/
theorem toDouble_pct {n : ℤ} (h0 : 0 ≤ n) (h1 : n ≤ 100) : ∃ x, toDouble n = .ok x := by
  have hf : ∀ m : Fin 101, Decimal.isFinite (Float.ofScientific m.val true 0) = true := by decide +kernel
  have hn : ¬ n < 0 := by omega
  refine ⟨Float.ofScientific n.natAbs true 0, ?_⟩
  simp only [toDouble, Decimal.ofInt?, Decimal.ofIntScaled?, hn, if_false]
  rw [if_pos (hf ⟨n.natAbs, by omega⟩)]

namespace Session

open Act Tape

/-! ## Postures -/

/-- nothing runs, nothing is held, nothing is pending -/
structure Idle (s : Session) : Prop where
  policy : s.policy = none
  held : s.held = []
  glitch : s.glitch = none
  armed : s.armed = false
  target : s.target = 0.0

/-- the key of the current phase is held -/
structure Holding (p : Policy) (s : Session) : Prop where
  policy : s.policy = some p
  held : s.held = [(p.phase s.phaseIndex).key]
  glitch : s.glitch = none

/-- a gap is waited out -/
structure Waiting (p : Policy) (s : Session) : Prop where
  policy : s.policy = some p
  held : s.held = []
  glitch : s.glitch.isSome
  armed : s.armed = false

/-- a fault has left a running session with nothing in hand -/
structure Stranded (p : Policy) (s : Session) : Prop where
  policy : s.policy = some p
  held : s.held = []
  glitch : s.glitch = none

theorem Holding.not_waiting {p q : Policy} {s : Session} (h : Holding p s) : ¬ Waiting q s := by
  intro hw
  have hheld := hw.held
  rw [h.held] at hheld
  cases hheld

inductive Settled (s : Session) : Prop
  | idle (h : Idle s)
  | holding (p : Policy) (h : Holding p s)
  | waiting (p : Policy) (h : Waiting p s)

inductive Coherent (s : Session) : Prop
  | settled (h : Settled s)
  | stranded (p : Policy) (h : Stranded p s)

theorem idle_idled (s : Session) : Idle (idled s) := ⟨rfl, rfl, rfl, rfl, rfl⟩

theorem Coherent.idle {s : Session} (h : Coherent s) (hp : s.policy = none) : Idle s := by
  rcases h with (h | ⟨p, h⟩ | ⟨p, h⟩) | ⟨p, h⟩
  · exact h
  · rw [h.policy] at hp; cases hp
  · rw [h.policy] at hp; cases hp
  · rw [h.policy] at hp; cases hp

theorem Coherent.running {s : Session} {p : Policy} (h : Coherent s) (hp : s.policy = some p) :
    Holding p s ∨ Waiting p s ∨ Stranded p s := by
  rcases h with (h | ⟨q, h⟩ | ⟨q, h⟩) | ⟨q, h⟩
  · rw [h.policy] at hp; cases hp
  · obtain rfl : q = p := by rw [h.policy] at hp; exact Option.some.inj hp
    exact Or.inl h
  · obtain rfl : q = p := by rw [h.policy] at hp; exact Option.some.inj hp
    exact Or.inr (Or.inl h)
  · obtain rfl : q = p := by rw [h.policy] at hp; exact Option.some.inj hp
    exact Or.inr (Or.inr h)

/-- the invariant -/
structure Inv (c : EngineConfig) (s : Scene (Taped ω)) : Prop where
  coherent : Coherent s.session
  grip : Grip s.world.tape s.session.held
  settled : c.SplitInOrder → Settled s.session ∨ Faulted s.world.tape

/-- what an operation leaves that returns -/
structure Fine (s : Scene (Taped ω)) : Prop where
  settled : Settled s.session
  grip : Grip s.world.tape s.session.held

theorem Fine.inv {c : EngineConfig} {s : Scene (Taped ω)} (h : Fine s) : Inv c s :=
  ⟨.settled h.settled, h.grip, fun _ => Or.inl h.settled⟩

theorem inv_fresh (c : EngineConfig) (g : Generator) (w : ω) : Inv c (Scene.fresh g w) :=
  Fine.inv ⟨.idle ⟨rfl, rfl, rfl, rfl, rfl⟩, .empty⟩

/-! ## Operations -/

variable {E : Setup ω} {s : Scene (Taped ω)} {c : EngineConfig} {p : Policy}

theorem Inv.held_length_le (h : Inv c s) : s.session.held.length ≤ 1 := h.grip.length_le

theorem Stranded.inv (h : Stranded p s.session) (hg : Grip s.world.tape []) (hf : Faulted s.world.tape) : Inv c s :=
  ⟨.stranded p h, h.held ▸ hg, fun _ => Or.inr hf⟩

/-- a stop leaves an idle session, also when it is cut short -/
theorem stop_fine (hN : E.SteadyWaits) (hI : s.session.policy = none → Idle s.session)
    (hg : Grip s.world.tape s.session.held) :
    Ends (stop E.taped) s (fun _ t => Idle t.session ∧ Fine t) (fun _ t => Idle t.session ∧ Fine t) := by
  refine stop_ends hN hg.length_le (fun hp => ?_) (fun n g v new hn => ?_) (fun e k n g v new hk hc => ?_)
  · exact ⟨hI hp, .idle (hI hp), hg⟩
  · exact ⟨idle_idled _, .idle (idle_idled _), hn.grip hg⟩
  · exact ⟨idle_idled _, .idle (idle_idled _), hc.grip (hk ▸ hg)⟩

theorem setNextHold_ends {E : Setup ω} {s : Scene ω} {phase : Phase} {Q : Unit → Scene ω → Prop}
    {F : Fault → Scene ω → Prop} (hQ : ∀ target armed g,
      Q () { s with session := { s.session with target, armed, glitch := none, generator := g } }) :
    Ends (setNextHold E phase) s Q F := by
  simp only [setNextHold, sampleAtLeast, ends_bind, ends_draw, ends_change, ends_pure]
  exact hQ _ _ _

/-- a phase begins with an empty hand and ends with its key in hand -/
theorem beginPhase_ends (hN : E.SteadyWaits) (h : Stranded p s.session) (hg : Grip s.world.tape []) (now : ℤ) :
    Ends (beginPhase E.taped p now) s (fun _ t => Fine t) (fun _ t => Inv c t) := by
  rw [beginPhase, ends_bind, ends_session, ends_bind]
  refine press_ends hN (fun g v => ?_) (fun e g v => ?_)
  · rw [ends_bind, ends_change, ends_bind]
    refine setNextHold_ends fun target armed g => ?_
    rw [ends_change]
    refine ⟨.holding p ⟨h.policy, ?_, rfl⟩, ?_⟩
    · simp only [h.held, List.nil_append]
    · simp only [h.held, List.nil_append]
      exact hg.pressed _
  · exact Stranded.inv ⟨h.policy, h.held, h.glitch⟩ (hg.missed _) (faulted_snoc_false _ _ _)

theorem nextPhase_ends (hN : E.SteadyWaits) (h : Stranded p s.session) (hg : Grip s.world.tape []) (now : ℤ) :
    Ends (nextPhase E.taped p now) s (fun _ t => Fine t) (fun _ t => Inv c t) := by
  rw [nextPhase, ends_bind, ends_change]
  apply beginPhase_ends hN
  · exact ⟨h.policy, h.held, h.glitch⟩
  · exact hg

theorem enterGap_ends (h : Stranded p s.session) (hg : Grip s.world.tape []) (now : ℤ) :
    Ends (enterGap E.taped now) s (fun _ t => Fine t) (fun _ t => Inv E.config t) := by
  rw [enterGap, ends_bind, ends_draw, ends_bind, ends_check]
  cases hd : toDouble (Generator.range E.taped.config.glitchSplitMinPct E.taped.config.glitchSplitMaxPct
      s.session.generator).1 with
  | error e =>
    -- the percentage is a double if the bounds are in order
    refine ⟨.stranded p ⟨h.policy, h.held, h.glitch⟩, h.held ▸ hg, fun hc => ?_⟩
    obtain ⟨h0, h1⟩ := Generator.range_mem hc.2.1 s.session.generator
    obtain ⟨x, hx⟩ := toDouble_pct (hc.1.trans h0) (h1.trans hc.2.2)
    rw [Setup.taped, hx] at hd
    cases hd
  | ok x =>
    simp only [sampleAtLeast, ends_bind, ends_pure, ends_session, ends_draw, ends_change]
    exact say_ends fun v => ⟨.waiting p ⟨h.policy, h.held, rfl, rfl⟩, h.held ▸ hg⟩

/-- the key drawn after a gap is one of the policy's -/
theorem choice_mem (p : Policy) (g : Generator) : p.keys[(Generator.choice p.keys.length g).1.toNat]?.getD "" ∈ p.keys := by
  have hpos : (0 : ℤ) < p.keys.length := by
    have := p.keys_length_pos
    omega
  obtain ⟨h0, h1⟩ := Generator.choice_lt hpos g
  have hi : (Generator.choice p.keys.length g).1.toNat < p.keys.length := by omega
  rw [List.getElem?_eq_getElem hi]
  exact List.getElem_mem hi

theorem endGap_ends (hN : E.SteadyWaits) (h : Waiting p s.session) (hg : Grip s.world.tape []) (glitch : Glitch)
    (now : ℤ) : Ends (endGap E.taped p glitch now) s (fun _ t => Fine t) (fun _ t => Inv c t) := by
  rw [endGap, ends_bind, ends_change]
  split_ifs
  · apply nextPhase_ends hN
    · exact ⟨h.policy, h.held, rfl⟩
    · exact hg
  · rw [ends_bind, ends_draw, ends_bind]
    have hk := choice_mem p s.session.generator
    refine press_ends hN (fun g v => ?_) (fun e g v => ?_)
    · rw [ends_bind, ends_change]
      refine say_ends fun v => ⟨.holding p ⟨h.policy, ?_, rfl⟩, ?_⟩
      · simp only [h.held, List.nil_append]
        rw [p.key_phaseForKey _ hk]
      · simp only [h.held, List.nil_append]
        exact hg.pressed _
    · exact Stranded.inv ⟨h.policy, h.held, rfl⟩ (hg.missed _) (faulted_snoc_false _ _ _)

theorem endHold_ends (hN : E.SteadyWaits) (h : Holding p s.session) (hg : Grip s.world.tape s.session.held)
    {k : String} (hk : s.session.held = [k]) (now : ℤ) :
    Ends (endHold E.taped p k now) s (fun _ t => Fine t) (fun _ t => Inv E.config t) := by
  rw [endHold, ends_bind]
  have hs : ∀ n g, Stranded p (letGo s.session k n g) := fun n g =>
    ⟨h.policy, by simp [letGo, hk], h.glitch⟩
  rw [hk] at hg
  refine release_ends hN (fun n g v new hn => ?_) (fun e n g v new hc => ?_)
  · rw [ends_bind, ends_session]
    split_ifs
    · exact enterGap_ends (hs n g) (hn.grip hg) now
    · exact nextPhase_ends hN (hs n g) (hn.grip hg) now
  · exact (hs n g).inv (hc.grip hg) (hc.faulted _)

theorem timeOut_ends (hN : E.SteadyWaits) (h : Inv E.config s) (hp : s.session.policy = some p) :
    Ends (timeOut E.taped p) s (fun _ t => Fine t) (fun _ t => Inv E.config t) := by
  rw [timeOut, ends_bind, ends_check]
  cases timeoutSeconds E.taped.config with
  | error e => exact h
  | ok seconds =>
    dsimp only
    rw [ends_bind]
    refine say_ends fun v => ?_
    rw [ends_bind, ends_change]
    apply Ends.mono (stop_fine hN ?_ ?_)
    · exact fun _ t ht => ht.2
    · exact fun _ t ht => ht.2.inv
    · intro hn
      rw [show s.session.policy = none from hn] at hp
      cases hp
    · exact h.grip

theorem tick_ends (hN : E.SteadyWaits) (h : Inv E.config s) (now : ℤ) :
    Ends (tick E.taped now) s (fun _ t => Fine t) (fun _ t => Inv E.config t) := by
  rw [tick, ends_bind, ends_session]
  cases hp : s.session.policy with
  | none => exact ⟨.idle (h.coherent.idle hp), h.grip⟩
  | some p =>
    dsimp only
    split_ifs
    · exact timeOut_ends hN h hp
    have hg := h.grip
    rcases h.coherent.running hp with hh | hw | hs
    · -- the hold goes on, or it is over
      rw [hh.glitch, hh.held]
      dsimp only
      rw [ends_bind, ends_check]
      cases wholePart s.session.target with
      | error e => exact h
      | ok hold =>
        dsimp only
        split_ifs
        · exact endHold_ends hN hh hg hh.held now
        · exact ⟨.holding p hh, hg⟩
    · -- the gap goes on, or it is over
      obtain ⟨gl, hgl⟩ := Option.isSome_iff_exists.1 hw.glitch
      rw [hgl]
      dsimp only
      rw [ends_bind, ends_check]
      cases wholePart gl.gap with
      | error e => exact h
      | ok gap =>
        dsimp only
        split_ifs
        · exact endGap_ends hN hw (hw.held ▸ hg) gl now
        · exact ⟨.waiting p hw, hg⟩
    · -- what a fault has left moves on at once
      rw [hs.glitch, hs.held]
      exact nextPhase_ends hN hs (hs.held ▸ hg) now

theorem reseed_ends {entropy : ℤ} {Q : Unit → Scene (Taped ω) → Prop} {F : Fault → Scene (Taped ω) → Prop}
    (hQ : ∀ g v, Q () { session := { s.session with generator := g }, world := ⟨v, s.world.tape⟩ }) :
    Ends (reseed E.taped entropy) s Q F := by
  rw [reseed, ends_bind, ends_draw]
  split_ifs
  · exact hQ _ _
  · exact hQ _ s.world.world

/-- once nothing runs, a start presses the key of the first phase -/
theorem startIdle_ends (hN : E.SteadyWaits) (h : Idle s.session) (hg : Grip s.world.tape []) (now entropy : ℤ) :
    Ends (startIdle E.taped p now entropy) s (fun _ t => Fine t) (fun _ t => Inv c t) := by
  rw [startIdle, ends_bind]
  refine reseed_ends fun g v => ?_
  rw [ends_bind, ends_change, ends_bind]
  apply Ends.mono (beginPhase_ends hN ?_ ?_ now)
  · intro _ t ht
    rw [ends_bind, ends_session]
    exact say_ends fun v => ⟨ht.settled, ht.grip⟩
  · exact fun _ t ht => ht
  · exact ⟨rfl, h.held, h.glitch⟩
  · exact hg

theorem start_ends (hN : E.SteadyWaits) (h : Inv E.config s) (now entropy : ℤ) :
    Ends (start E.taped p now entropy) s (fun _ t => Fine t) (fun _ t => Inv E.config t) := by
  rw [start_eq, ends_bind, ends_session]
  cases hp : s.session.policy with
  | none =>
    have hi := h.coherent.idle hp
    exact startIdle_ends hN hi (hi.held ▸ h.grip) now entropy
  | some q =>
    dsimp only
    rw [ends_bind]
    refine say_ends fun v => ?_
    rw [ends_bind]
    apply Ends.mono (stop_fine hN ?_ ?_)
    · exact fun _ t ht => startIdle_ends hN ht.1 (ht.1.held ▸ ht.2.grip) now entropy
    · exact fun _ t ht => ht.2.inv
    · exact h.coherent.idle
    · exact h.grip

/-! ## Runs -/

/-- **A call keeps the invariant**, and leaves a settled session if it returns. -/
theorem call_ends (hN : E.SteadyWaits) (h : Inv E.config s) (call : Call) :
    Ends (call.act E.taped) s (fun _ t => Fine t) (fun _ t => Inv E.config t) := by
  cases call with
  | start p now entropy => exact start_ends hN h now entropy
  | stop => exact (stop_fine hN h.coherent.idle h.grip).mono (fun _ t ht => ht.2) (fun _ t ht => ht.2.inv)
  | tick now => exact tick_ends hN h now

theorem step_inv (hN : E.SteadyWaits) (h : Inv E.config s) (call : Call) : Inv E.config (step E.taped s call) :=
  Ends.after ((call_ends hN h call).mono (fun _ _ ht => ht.inv) (fun _ _ ht => ht))

/-- **Every run keeps the invariant.** -/
theorem run_inv (hN : E.SteadyWaits) (h : Inv E.config s) (calls : List Call) : Inv E.config (run E.taped calls s) := by
  induction calls generalizing s with
  | nil => exact h
  | cons call calls ih => exact ih (step_inv hN h call)

end Session
end KeyHold
