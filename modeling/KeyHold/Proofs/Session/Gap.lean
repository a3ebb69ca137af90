/-
The gap in a split hold.

A gap begins where an armed hold is over, and nowhere else. While it lasts nothing is down. It ends at the first tick
at which its length has passed: a key of the policy is pressed for what remains of the hold, and the cycle goes on from
the first phase that holds this key; if nothing remains, the cycle goes on from the phase that was interrupted. Only a
phase that begins can arm a hold, so a session does not split one hold twice.

- `Splits`, `Resumes`, `Begins`: the start of a gap, the press after it, and the phase that follows.
- `Until ms s Q`: ticks leave `s` as it is until `ms` have passed, and then make of it what `Q` says.
- `Rearmed n x`: there have been `n` phases, and more where a hold is armed. Every move keeps this.
- `gap_lifeCycle`: **gaps**, of any run.
-/
import Mathlib.Tactic
import KeyHold.Proofs.Session.Cycle

namespace KeyHold

variable {ω : Type}

namespace Session

open Act Tape

variable {E : Setup ω} {modes : List Policy} {p : Policy} {gl : Glitch} {now : ℤ} {s t : Scene (Taped ω)}

/-! ## How a gap begins -/

/-- the least length of a gap, or a sample above it -/
def GapLength (E : Setup ω) (gap : Float) : Prop :=
  gap = E.config.glitchGapMinMs ∨
    ∃ g, gap = (E.noise.normal E.config.glitchGapMeanMs E.config.glitchGapStddevMs g).1 ∧ gap > E.config.glitchGapMinMs

/-- an armed hold of `s` is over at `now`: its key is let go, for the gap `gl` -/
structure Splits (E : Setup ω) (p : Policy) (gl : Glitch) (now : ℤ) (s t : Scene (Taped ω)) : Prop where
  holding : Holding p s.session
  armed : s.session.armed = true
  inTime : InTime E.config s.session now
  due : Due s.session s.session.target now
  calls : ∃ n new, Released (p.phase s.session.phaseIndex).key n new ∧ t.world.tape = s.world.tape ++ new
  waiting : Waiting p t.session
  index : t.session.phaseIndex = s.session.phaseIndex
  phaseAt : t.session.phaseAt = now
  length : GapLength E gl.gap
  /-- a share of the hold is over, between the bounds of the splits -/
  remaining : ∃ g pct, toDouble (Generator.range E.config.glitchSplitMinPct E.config.glitchSplitMaxPct g).1 = .ok pct ∧
    gl.remaining = s.session.target * (1.0 - pct / 100.0)

theorem gapLength_atLeast (g : Generator) : GapLength E (Normal.atLeast E.config.glitchGapMinMs
    (E.noise.normal E.config.glitchGapMeanMs E.config.glitchGapStddevMs g).1) := by
  unfold Normal.atLeast
  split_ifs with h
  · exact Or.inr ⟨g, rfl, h⟩
  · exact Or.inl rfl

/-- a transition after which a gap is pending has split a hold -/
theorem Transition.splits {new : Tape} (h : Transition E now s.session t.session new)
    (htape : t.world.tape = s.world.tape ++ new) (hgl : t.session.glitch = some gl) :
    ∃ p, Splits E p gl now s t := by
  obtain ⟨y, w⟩ := t
  cases h with
  | timedOut => cases hgl
  | @parted p n pct g new holding inTime due armed calls share =>
    obtain rfl := Option.some.inj hgl
    have hheld : (letGo s.session (p.phase s.session.phaseIndex).key n g).held = [] := by
      simp [letGo, holding.held]
    exact ⟨p, holding, armed, inTime, due, ⟨n, new, calls, htape⟩, ⟨holding.policy, hheld, rfl, rfl⟩, rfl, rfl,
      gapLength_atLeast _, g, pct, share, rfl⟩
  | advanced => cases hgl
  | skipped => cases hgl
  | resumed => cases hgl

/-- a gap that is pending has a length that gaps have -/
def InLength (E : Setup ω) (x : Session) : Prop := ∀ gl, x.glitch = some gl → GapLength E gl.gap

theorem Move.inLength {call : Call} {x y : Session} {new : Tape} (h : Move E x call y new) (hx : InLength E x) :
    InLength E y := by
  intro gl hgl
  cases h with
  | early => exact hx gl hgl
  | rest => exact hx gl hgl
  | stop => cases hgl
  | start => cases hgl
  | tick ht =>
    cases ht with
    | timedOut => cases hgl
    | parted =>
      obtain rfl := Option.some.inj hgl
      exact gapLength_atLeast _
    | advanced => cases hgl
    | skipped => cases hgl
    | resumed => cases hgl

/-- a gap that is pending after a call was pending before it, or the call was a tick that has split a hold -/
theorem Smooth.pending (hR : E.rig.Reliable) (hc : E.config.Accepted) (hN : E.SteadySamples modes) (h : Smooth modes s)
    {call : Call} (hm : call.Of modes) (hgl : (step E.taped s call).session.glitch = some gl) :
    step E.taped s call = s ∨ ∃ p now, call = .tick now ∧ Splits E p gl now s (step E.taped s call) := by
  obtain ⟨-, -, new, hmove, htape⟩ := step_moves hR hc hN h hm
  generalize ht : step E.taped s call = t at hgl hmove htape ⊢
  obtain ⟨y, w⟩ := t
  cases hmove with
  | early hearly => exact Or.inl (ht.symm.trans (step_early hearly))
  | @tick now _ _ htrans =>
    obtain ⟨p, hsplits⟩ := htrans.splits (t := ⟨y, w⟩) htape hgl
    exact Or.inr ⟨p, now, rfl, hsplits⟩
  | rest idle =>
    have hidle : Idle s.session := (Coherent.settled h.settled).idle idle
    rw [hidle.glitch] at hgl
    cases hgl
  | stop => cases hgl
  | start => cases hgl

/-! ## How a gap ends -/

/-- after the gap `gl` a key of `p` is pressed at `now`, for what remained of the hold -/
structure Resumes (p : Policy) (gl : Glitch) (now : ℤ) (s t : Scene (Taped ω)) : Prop where
  policy : t.session.policy = some p
  glitch : t.session.glitch = none
  armed : t.session.armed = false
  target : t.session.target = gl.remaining
  phaseAt : t.session.phaseAt = now
  /-- the index is that of the first phase that holds the key -/
  key : ∃ key ∈ p.keys, p.FirstOf key t.session.phaseIndex ∧ t.session.held = [key] ∧
    t.world.tape = s.world.tape ++ [⟨.down, key, true⟩]
  phases : t.session.stats.phases = s.session.stats.phases

/-- what is held is let go, and the phase at `i` begins at `now` -/
structure Begins (E : Setup ω) (p : Policy) (i : ℕ) (now : ℤ) (s t : Scene (Taped ω)) : Prop where
  holding : Holding p t.session
  index : t.session.phaseIndex = i
  phaseAt : t.session.phaseAt = now
  drawn : Drawn E (p.phase i) t.session
  calls : ∃ n new, LetGo s.session.held n new ∧ t.world.tape = s.world.tape ++ (new ++ [⟨.down, (p.phase i).key, true⟩])
  phases : t.session.stats.phases = s.session.stats.phases + 1

/-- Ticks before the timeout leave `s` as it is until the whole milliseconds of `ms` have passed since the phase's
stamp. The first tick at which they have returns, with what `Q` says. -/
def Until (E : Setup ω) (ms : Float) (s : Scene (Taped ω)) (Q : ℤ → Scene (Taped ω) → Prop) : Prop :=
  ∀ times : List ℤ, (∀ now ∈ times, InTime E.config s.session now) →
    ((∀ now ∈ times, Before s.session ms now) ∧ run E.taped (times.map fun now => .tick now) s = s) ∨
    ∃ early now later, times = early ++ now :: later ∧ (∀ now ∈ early, Before s.session ms now) ∧
      Due s.session ms now ∧ run E.taped (early.map fun now => .tick now) s = s ∧
      ∃ t, tick E.taped now s = (.ok (), t) ∧ Q now t

/-- a tick at which the time has passed -/
theorem Until.due {ms : Float} {Q : ℤ → Scene (Taped ω) → Prop} (h : Until E ms s Q)
    (ht : InTime E.config s.session now) (hdue : Due s.session ms now) :
    ∃ t, tick E.taped now s = (.ok (), t) ∧ Q now t := by
  rcases h [now] (by simpa using ht) with ⟨hbefore, -⟩ | ⟨early, due, later, htimes, hearly, -, -, hout⟩
  · exact absurd (hbefore now (List.mem_singleton_self now)) hdue.not_before
  · cases early with
    | nil =>
      obtain ⟨rfl, -⟩ := List.cons.inj htimes
      exact hout
    | cons first early =>
      simp at htimes

theorem before_or_due {ms : Float} (h : Decimal.Finite ms) (x : Session) (now : ℤ) :
    Before x ms now ∨ Due x ms now := by
  obtain ⟨n, hn⟩ := wholePart_ok h
  rcases lt_or_ge (elapsed now x.phaseAt) n with hlt | hge
  · exact Or.inl ⟨n, hn, hlt⟩
  · exact Or.inr ⟨n, hn, hge⟩

/-- stamps come before the end of a time, or there is a first one after it -/
theorem all_before_or_first_due {ms : Float} (h : Decimal.Finite ms) (x : Session) (times : List ℤ) :
    (∀ now ∈ times, Before x ms now) ∨
      ∃ early now later, times = early ++ now :: later ∧ (∀ now ∈ early, Before x ms now) ∧ Due x ms now := by
  induction times with
  | nil => exact Or.inl (List.forall_mem_nil _)
  | cons now times ih =>
    rcases before_or_due h x now with hbefore | hdue
    · rcases ih with hall | ⟨early, first, later, rfl, hearly, hfirst⟩
      · exact Or.inl (List.forall_mem_cons.2 ⟨hbefore, hall⟩)
      · exact Or.inr ⟨now :: early, first, later, rfl, List.forall_mem_cons.2 ⟨hbefore, hearly⟩, hfirst⟩
    · exact Or.inr ⟨[], now, times, rfl, List.forall_mem_nil _, hdue⟩

theorem until_of_ticks {ms : Float} {Q : ℤ → Scene (Taped ω) → Prop} (hms : Decimal.Finite ms)
    (hearly : ∀ now, Early E.config s.session now ↔ InTime E.config s.session now ∧ Before s.session ms now)
    (hdue : ∀ now, InTime E.config s.session now → ¬ Early E.config s.session now →
      ∃ t, tick E.taped now s = (.ok (), t) ∧ Q now t) :
    Until E ms s Q := by
  intro times htimes
  have hquiet : ∀ l : List ℤ, (∀ now ∈ l, now ∈ times) → (∀ now ∈ l, Before s.session ms now) →
      run E.taped (l.map fun now => .tick now) s = s := by
    intro l hl hbefore
    exact run_early fun now hnow => (hearly now).2 ⟨htimes now (hl now hnow), hbefore now hnow⟩
  rcases all_before_or_first_due hms s.session times with hall | ⟨early, now, later, rfl, hbefore, hlate⟩
  · exact Or.inl ⟨hall, hquiet times (fun _ h => h) hall⟩
  · have hnow : InTime E.config s.session now := htimes now (by simp)
    have hnot : ¬ Early E.config s.session now := fun he => hlate.not_before ((hearly now).1 he).2
    refine Or.inr ⟨early, now, later, rfl, hbefore, hlate, ?_, hdue now hnow hnot⟩
    exact hquiet early (fun _ h => List.mem_append_left _ h) hbefore

/-- the tick that ends a gap -/
theorem Transition.gapEnds {new : Tape} (h : Transition E now s.session t.session new)
    (htape : t.world.tape = s.world.tape ++ new) (hw : Waiting p s.session) (hgl : s.session.glitch = some gl)
    (ht : InTime E.config s.session now) (hfin : Decimal.Finite gl.remaining) :
    (0.0 < gl.remaining → Resumes p gl now s t) ∧
      (¬ 0.0 < gl.remaining → Begins E p (p.phaseAfter s.session.phaseIndex) now s t) := by
  rw [Decimal.pos_iff_not_le_zero hfin]
  obtain ⟨y, w⟩ := t
  cases h with
  | timedOut running late => exact absurd ht late
  | parted holding => exact absurd hw holding.not_waiting
  | advanced holding => exact absurd hw holding.not_waiting
  | skipped waiting inTime pending due spent =>
    obtain rfl := Option.some.inj (pending.symm.trans hgl)
    obtain rfl := Option.some.inj (waiting.policy.symm.trans hw.policy)
    refine ⟨fun hleft => absurd spent hleft, fun _ => ?_⟩
    exact ⟨⟨hw.policy, rfl, rfl⟩, rfl, rfl, begun_drawn E _ _ now _, ⟨0, [], hw.held ▸ .nothing, htape⟩, rfl⟩
  | resumed waiting inTime pending due left mem =>
    obtain rfl := Option.some.inj (pending.symm.trans hgl)
    obtain rfl := Option.some.inj (waiting.policy.symm.trans hw.policy)
    refine ⟨fun _ => ?_, fun hspent => absurd left hspent⟩
    exact ⟨hw.policy, rfl, rfl, rfl, rfl, ⟨_, mem, Policy.phaseForKey_firstOf _ mem, rfl, htape⟩, rfl⟩

theorem Resumes.holding (h : Resumes p gl now s t) : Holding p t.session := by
  obtain ⟨key, -, ⟨⟨ph, hph, hkey⟩, -⟩, hheld, -⟩ := h.key
  obtain ⟨hlt, rfl⟩ := List.getElem?_eq_some_iff.1 hph
  refine ⟨h.policy, ?_, h.glitch⟩
  rw [p.phase_of_lt _ hlt, hkey]
  exact hheld

/-- the tick that ends a hold that is not armed -/
theorem Transition.holdEnds {new : Tape} (h : Transition E now s.session t.session new)
    (htape : t.world.tape = s.world.tape ++ new) (hh : Holding p s.session) (ha : s.session.armed = false)
    (ht : InTime E.config s.session now) : Begins E p (p.phaseAfter s.session.phaseIndex) now s t := by
  obtain ⟨y, w⟩ := t
  cases h with
  | timedOut running late => exact absurd ht late
  | parted holding inTime due armed =>
    rw [ha] at armed
    cases armed
  | advanced holding inTime due unarmed calls =>
    obtain rfl := Option.some.inj (holding.policy.symm.trans hh.policy)
    have hcalls : LetGo s.session.held _ _ := hh.held ▸ LetGo.key calls
    exact ⟨⟨hh.policy, rfl, rfl⟩, rfl, rfl, begun_drawn E _ _ now _, ⟨_, _, hcalls, htape⟩, rfl⟩
  | skipped waiting => exact absurd waiting hh.not_waiting
  | resumed waiting => exact absurd waiting hh.not_waiting

/-- a hold that is not armed goes on until its end, and then the next phase begins -/
theorem Smooth.holdUntil (hR : E.rig.Reliable) (hc : E.config.Accepted) (hN : E.SteadySamples modes) (h : Smooth modes s)
    (hh : Holding p s.session) (ha : s.session.armed = false) :
    Until E s.session.target s fun now t => Begins E p (p.phaseAfter s.session.phaseIndex) now s t := by
  apply until_of_ticks h.numeric.target (fun now => hh.early_iff)
  intro now ht hnot
  obtain ⟨t, new, htick, -, htrans, htape⟩ := h.transition hR hc hN hnot
  exact ⟨t, htick, htrans.holdEnds htape hh ha ht⟩

/-- a gap goes on until its end, and then what remains of the hold, or the next phase if nothing does -/
theorem Smooth.gapUntil (hR : E.rig.Reliable) (hc : E.config.Accepted) (hN : E.SteadySamples modes) (h : Smooth modes s)
    (hw : Waiting p s.session) (hgl : s.session.glitch = some gl) :
    Until E gl.gap s fun now t =>
      (0.0 < gl.remaining → Resumes p gl now s t ∧
        Until E gl.remaining t fun later u => Begins E p (p.phaseAfter t.session.phaseIndex) later t u) ∧
      (¬ 0.0 < gl.remaining → Begins E p (p.phaseAfter s.session.phaseIndex) now s t) := by
  obtain ⟨hgap, hrest⟩ := h.numeric.glitch gl hgl
  apply until_of_ticks hgap (fun now => hw.early_iff hgl)
  intro now ht hnot
  obtain ⟨t, new, htick, hsmooth, htrans, htape⟩ := h.transition hR hc hN hnot
  obtain ⟨hleft, hspent⟩ := htrans.gapEnds htape hw hgl ht hrest
  refine ⟨t, htick, fun hpos => ?_, hspent⟩
  have hresumes : Resumes p gl now s t := hleft hpos
  have huntil := hsmooth.holdUntil hR hc hN hresumes.holding hresumes.armed
  rw [hresumes.target] at huntil
  exact ⟨hresumes, huntil⟩

/-- a session with a gap pending waits it out -/
theorem Fine.waiting (h : Fine s) (hgl : s.session.glitch = some gl) : ∃ p, Waiting p s.session := by
  rcases h.settled with hi | ⟨p, hh⟩ | ⟨p, hw⟩
  · rw [hi.glitch] at hgl
    cases hgl
  · rw [hh.glitch] at hgl
    cases hgl
  · exact ⟨p, hw⟩

/-! ## From one gap to the next -/

/-- no fewer than `n` phases have begun, and more where a hold is armed -/
structure Rearmed (n : ℕ) (x : Session) : Prop where
  most : n ≤ x.stats.phases
  armed : x.armed = true → n < x.stats.phases

theorem Transition.rearmed {n : ℕ} {x y : Session} {new : Tape} (h : Transition E now x y new) (hx : Rearmed n x) :
    Rearmed n y := by
  cases h with
  | timedOut => exact ⟨hx.most, nofun⟩
  | parted => exact ⟨hx.most, nofun⟩
  | advanced => exact ⟨Nat.le_succ_of_le hx.most, fun _ => Nat.lt_succ_of_le hx.most⟩
  | skipped => exact ⟨Nat.le_succ_of_le hx.most, fun _ => Nat.lt_succ_of_le hx.most⟩
  | resumed => exact ⟨hx.most, nofun⟩

theorem Move.rearmed {n : ℕ} {call : Call} {x y : Session} {new : Tape} (h : Move E x call y new) (hx : Rearmed n x) :
    Rearmed n y := by
  cases h with
  | early => exact hx
  | tick ht => exact ht.rearmed hx
  | rest => exact hx
  | stop => exact ⟨hx.most, nofun⟩
  | start => exact ⟨Nat.le_succ_of_le hx.most, fun _ => Nat.lt_succ_of_le hx.most⟩

/-- **The life of a gap.** Take any session that any calls have led to, on a rig whose key calls never fault and with
finite samples. A call after which a gap is pending was made in this gap and has changed nothing, or it is a tick that
ends an armed hold. While a gap is pending nothing is down; its length is the least there is or a sample above it. As
long as only ticks come, and before the timeout, it ends at the first one at which its length has passed. If what
remains of the hold is positive, a key of the policy is pressed for exactly this, the index is that of the first phase
that holds the key, and when this hold is over the phase after it begins; else the phase after the interrupted one
begins. And between two gaps, whatever is called, at least one phase begins. -/
theorem gap_lifeCycle (hR : E.rig.Reliable) (hc : E.config.Accepted) (hN : E.SteadySamples modes) (g : Generator) (w : ω)
    (before : List Call) (hm : ∀ call ∈ before, call.Of modes) :
    let s := run E.taped before (Scene.fresh g w)
    (∀ call, call.Of modes → ∀ gl, (step E.taped s call).session.glitch = some gl →
      step E.taped s call = s ∨ ∃ p now, call = .tick now ∧ Splits E p gl now s (step E.taped s call)) ∧
    ∀ gl, s.session.glitch = some gl →
      asserted s.world.tape = [] ∧ GapLength E gl.gap ∧
      (∃ p, Waiting p s.session ∧ Until E gl.gap s fun now t =>
        (0.0 < gl.remaining → Resumes p gl now s t ∧
          Until E gl.remaining t fun later u => Begins E p (p.phaseAfter t.session.phaseIndex) later t u) ∧
        (¬ 0.0 < gl.remaining → Begins E p (p.phaseAfter s.session.phaseIndex) now s t)) ∧
      ∀ calls : List Call, (∀ call ∈ calls, call.Of modes) → ∀ p gl now t,
        Splits E p gl now (run E.taped calls s) t →
          s.session.stats.phases < (run E.taped calls s).session.stats.phases := by
  intro s
  have h : Smooth modes s := run_smooth hR hc hN (smooth_fresh g w) hm
  constructor
  · intro call hcall gl hgl
    exact h.pending hR hc hN hcall hgl
  intro gl hgl
  obtain ⟨p, hw⟩ := h.waiting hgl
  refine ⟨?_, ?_, ⟨p, hw, h.gapUntil hR hc hN hw hgl⟩, ?_⟩
  · rw [h.grip.asserted_eq h.taken.not_faulted]
    exact hw.held
  · have hfresh : InLength E (Scene.fresh g w).session := nofun
    exact run_keptBy Move.inLength hR hc hN (smooth_fresh g w) hfresh hm gl hgl
  · intro calls hcalls p gl now t hsplits
    have hstart : Rearmed s.session.stats.phases s.session := by
      refine ⟨le_rfl, fun harmed => ?_⟩
      rw [hw.armed] at harmed
      cases harmed
    exact (run_keptBy Move.rearmed hR hc hN h hstart hcalls).armed hsplits.armed

/-- a session whose first hold is split at 900 ms, with a gap of 80 ms -/
theorem gap_lifeCycle_up :
    let s := run (plain 1).taped [.start .og 0 1, .tick 900] (Scene.fresh .default ())
    ∃ gl p, s.session.glitch = some gl ∧ asserted s.world.tape = [] ∧ Waiting p s.session ∧
      ∃ t, tick (plain 1).taped 980 s = (.ok (), t) ∧ Resumes p gl 980 s t ∧
        Until (plain 1) gl.remaining t fun later u => Begins (plain 1) p (p.phaseAfter t.session.phaseIndex) later t u := by
  have hN : (plain 1).SteadySamples Policy.builtin := plain_samples 1 _ (by decide +kernel)
  obtain ⟨-, hgaps⟩ := gap_lifeCycle (E := plain 1) Rig.quiet_reliable (plain_accepted 1) hN .default ()
    [.start .og 0 1, .tick 900] (by simp [Call.Of, Policy.builtin])
  intro s
  obtain ⟨gl, hgl⟩ : ∃ gl, s.session.glitch = some gl := Option.isSome_iff_exists.1 (by decide +kernel)
  obtain ⟨hdown, -, ⟨p, hw, huntil⟩, -⟩ := hgaps gl hgl
  have hgap : s.session.glitch.all (fun gl => decide (0.0 < gl.remaining) &&
      decide ((wholePart gl.gap).toOption = some 80)) = true := by decide +kernel
  rw [hgl, Option.all_some, Bool.and_eq_true, decide_eq_true_eq, decide_eq_true_eq] at hgap
  have hwhole : wholePart gl.gap = .ok 80 := by
    cases hn : wholePart gl.gap with
    | error e => simp [hn, Except.toOption] at hgap
    | ok n => simpa [hn, Except.toOption] using hgap.2
  have htime : InTime (plain 1).config s.session 980 := by
    show elapsed 980 s.session.startedAt < 150000
    decide +kernel
  obtain ⟨t, htick, hleft, -⟩ := huntil.due htime ⟨80, hwhole, by decide +kernel⟩
  obtain ⟨hresumes, hnext⟩ := hleft hgap.1
  exact ⟨gl, p, hgl, hdown, hw, t, htick, hresumes, hnext⟩

end Session
end KeyHold
