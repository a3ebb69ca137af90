/-
The safety timeout.

A session is stopped by the first tick that comes as late as the timeout after its start, however late that is and in
whatever posture it finds the session; no earlier tick ends it. Stamps are compared modulo 2^32, so this holds across
the wrap for times less than 2^32 ms apart.

- `Lasting x y`: the same policy has been running since the same stamp. What happens within a phase and from phase to
  phase leaves it so (`tick_lasts`), whichever key calls fault.
- `tick_timedOut`: past the timeout a tick lets go of what is held, and the session is idle.
- `run_timedOut`: **whole runs of ticks** at times that are given by their stamps.
-/
import Mathlib.Tactic
import KeyHold.Proofs.Decimal.Finite
import KeyHold.Proofs.Session.Grip

namespace KeyHold

variable {ω α β : Type}

/-- the same policy has been running since the same stamp -/
structure Lasting (x y : Session) : Prop where
  policy : y.policy = x.policy
  started : y.startedAt = x.startedAt

theorem Lasting.trans {x y z : Session} (h : Lasting x y) (h' : Lasting y z) : Lasting x z :=
  ⟨h'.policy.trans h.policy, h'.started.trans h.started⟩

namespace Act

/-- whatever way `act` ends, the same policy runs on -/
def Lasts (act : Act ω α) : Prop := ∀ s, Lasting s.session (act s).2.session

theorem Lasts.bind {act : Act ω α} {f : α → Act ω β} (ha : Lasts act) (hf : ∀ a, Lasts (f a)) :
    Lasts (act >>= f) := by
  intro s
  have h := ha s
  rw [bind_run]
  rcases hr : act s with ⟨_ | a, t⟩ <;> rw [hr] at h
  · exact h
  · exact h.trans (hf a t)

theorem Lasts.ends {act : Act ω α} (h : Lasts act) (s : Scene ω) :
    Ends act s (fun _ t => Lasting s.session t.session) (fun _ t => Lasting s.session t.session) :=
  ends_iff_after.2 (h s)

theorem lasts_pure {a : α} : Lasts (pure a : Act ω α) := fun _ => ⟨rfl, rfl⟩

theorem lasts_session : Lasts (session : Act ω Session) := fun _ => ⟨rfl, rfl⟩

theorem lasts_change {f : Session → Session} (hf : ∀ x, Lasting x (f x)) : Lasts (change f : Act ω Unit) :=
  fun s => hf s.session

theorem lasts_draw {f : Generator → α × Generator} : Lasts (draw f : Act ω α) := fun _ => ⟨rfl, rfl⟩

theorem lasts_check {r : Except Fault α} : Lasts (check r : Act ω α) := fun _ => ⟨rfl, rfl⟩

theorem lasts_outside {f : ω → ω} : Lasts (outside f) := fun _ => ⟨rfl, rfl⟩

theorem lasts_attempt {f : ω → Except Fault α × ω} : Lasts (attempt f) := fun _ => ⟨rfl, rfl⟩

end Act

theorem EngineConfig.accepted_default : EngineConfig.Accepted {} := by
  show EngineConfig.flaw? {} = none
  decide +kernel

namespace Session

open Act Tape

/-! ## What leaves a session running -/

section Lasting

variable {E : Setup ω}

theorem humanDelay_lasts (mean stddev : Float) : Lasts (humanDelay E mean stddev) :=
  lasts_draw.bind fun _ => lasts_check.bind fun _ => lasts_outside

theorem press_lasts (k : String) : Lasts (press E k) :=
  (humanDelay_lasts _ _).bind fun _ => lasts_attempt.bind fun _ => lasts_change fun _ => ⟨rfl, rfl⟩

theorem bounce_lasts (k : String) : Lasts (bounce E k) := by
  refine Lasts.bind (lasts_change fun _ => ⟨rfl, rfl⟩) fun _ => lasts_outside.bind fun _ => ?_
  refine (humanDelay_lasts _ _).bind fun _ => lasts_attempt.bind fun _ => ?_
  exact (humanDelay_lasts _ _).bind fun _ => lasts_attempt

theorem release_lasts (k : String) : Lasts (release E k) := by
  refine Lasts.bind (lasts_change fun _ => ⟨rfl, rfl⟩) fun _ => lasts_attempt.bind fun _ => lasts_draw.bind fun b => ?_
  split_ifs
  · exact bounce_lasts k
  · exact lasts_pure

theorem sampleAtLeast_lasts (mean stddev bound : Float) : Lasts (sampleAtLeast E mean stddev bound) :=
  lasts_draw.bind fun _ => lasts_pure

theorem beginPhase_lasts (p : Policy) (now : ℤ) : Lasts (beginPhase E p now) := by
  refine lasts_session.bind fun _ => (press_lasts _).bind fun _ => ?_
  refine Lasts.bind (lasts_change fun _ => ⟨rfl, rfl⟩) fun _ => ?_
  refine Lasts.bind ?_ fun _ => lasts_change fun _ => ⟨rfl, rfl⟩
  refine (sampleAtLeast_lasts _ _ _).bind fun _ => Lasts.bind (lasts_change fun _ => ⟨rfl, rfl⟩) fun _ => ?_
  exact lasts_draw.bind fun _ => lasts_change fun _ => ⟨rfl, rfl⟩

theorem nextPhase_lasts (p : Policy) (now : ℤ) : Lasts (nextPhase E p now) :=
  Lasts.bind (lasts_change fun _ => ⟨rfl, rfl⟩) fun _ => beginPhase_lasts p now

theorem enterGap_lasts (now : ℤ) : Lasts (enterGap E now) := by
  refine lasts_draw.bind fun _ => lasts_check.bind fun _ => lasts_session.bind fun _ => ?_
  exact (sampleAtLeast_lasts _ _ _).bind fun _ => Lasts.bind (lasts_change fun _ => ⟨rfl, rfl⟩) fun _ => lasts_outside

theorem endGap_lasts (p : Policy) (glitch : Glitch) (now : ℤ) : Lasts (endGap E p glitch now) := by
  refine Lasts.bind (lasts_change fun _ => ⟨rfl, rfl⟩) fun _ => ?_
  split_ifs
  · exact nextPhase_lasts p now
  · refine lasts_draw.bind fun _ => (press_lasts _).bind fun _ => ?_
    exact Lasts.bind (lasts_change fun _ => ⟨rfl, rfl⟩) fun _ => lasts_outside

theorem endHold_lasts (p : Policy) (k : String) (now : ℤ) : Lasts (endHold E p k now) := by
  refine (release_lasts k).bind fun _ => lasts_session.bind fun s => ?_
  split_ifs
  · exact enterGap_lasts now
  · exact nextPhase_lasts p now

/-- before the timeout a tick ends no session, whichever way it ends itself -/
theorem tick_lasts {s : Scene ω} {now : ℤ} (h : elapsed now s.session.startedAt < E.config.safetyTimeoutMs) :
    Lasting s.session (tick E now s).2.session := by
  rw [tick, session_bind]
  cases s.session.policy with
  | none => exact ⟨rfl, rfl⟩
  | some p =>
    dsimp only
    rw [if_neg (by omega)]
    refine (?_ : Lasts _) s
    split
    · refine lasts_check.bind fun _ => ?_
      split_ifs
      · exact endGap_lasts p _ now
      · exact lasts_pure
    · exact nextPhase_lasts p now
    · refine lasts_check.bind fun _ => ?_
      split_ifs
      · exact endHold_lasts p _ now
      · exact lasts_pure

end Lasting

/-! ## Stopping on a reliable rig -/

variable {E : Setup ω} {s : Scene (Taped ω)}

/-- a stop returns if every key call is taken -/
theorem stop_returns (hR : E.rig.Reliable) (hN : E.SteadyWaits) (hl : s.session.held.length ≤ 1)
    (ht : AllTaken s.world.tape) {Q : Unit → Scene (Taped ω) → Prop} (hI : s.session.policy = none → Q () s)
    (hQ : ∀ n g v new, LetGo s.session.held n new → Q () ⟨stopped s.session n g, ⟨v, s.world.tape ++ new⟩⟩) :
    Ends (stop E.taped) s Q (fun _ _ => False) := by
  have hk : AllTaken (stop E.taped s).2.world.tape :=
    (stop_alike (R := E.taped.rig) hR.keeps.alike s.session s.world s.world ⟨rfl, ht⟩).2.2.2
  have hs : Ends (stop E.taped) s Q (fun _ t => Faulted t.world.tape) :=
    stop_ends hN hl hI hQ (fun e k n g v new _ hc => hc.faulted _)
  unfold Ends at *
  rcases hr : stop E.taped s with ⟨e | a, t⟩ <;> rw [hr] at hs hk
  · exact hk.not_faulted hs
  · exact hs

theorem timeoutSeconds_ok {c : EngineConfig} (h0 : 0 ≤ c.safetyTimeoutMs) (h : c.safetyTimeoutMs < 2 ^ 53) :
    ∃ text, timeoutSeconds c = .ok text := by
  obtain ⟨x, hx⟩ := Decimal.ofIntScaled?_thousandth h0 h
  exact ⟨Decimal.fixed 0 x, by rw [timeoutSeconds, hx]⟩

/-- what a tick does that ends a session for its age -/
structure TimedOut (s : Scene (Taped ω)) (r : Except Fault Unit × Scene (Taped ω)) : Prop where
  returned : r.1 = .ok ()
  idle : Idle r.2.session
  silent : asserted r.2.world.tape = []
  /-- what was held is let go, and nothing else is done -/
  calls : ∃ n new, LetGo s.session.held n new ∧ r.2.world.tape = s.world.tape ++ new ∧
    r.2.session.stats =
      { s.session.stats with timeouts := s.session.stats.timeouts + 1, bounces := s.session.stats.bounces + n }

theorem LetGo.allTaken {held : List String} {n : ℕ} {new t : Tape} (h : LetGo held n new) (ht : AllTaken t) :
    AllTaken (t ++ new) := by
  cases h with
  | nothing => simpa using ht
  | key h =>
    cases h with
    | plain => exact ht.snoc _ _
    | bounced => simpa using ((ht.snoc .up _).snoc .down _).snoc .up _

/-- past the timeout a tick stops the session, in whatever posture it is -/
theorem tick_timedOut (hR : E.rig.Reliable) (hc : E.config.Accepted) (hN : E.SteadyWaits) (h : Inv E.config s)
    (ht : AllTaken s.world.tape) {p : Policy} (hp : s.session.policy = some p) {now : ℤ}
    (hnow : E.config.safetyTimeoutMs ≤ elapsed now s.session.startedAt) : TimedOut s (tick E.taped now s) := by
  have helapsed : elapsed now s.session.startedAt < 4294967296 := Int.emod_lt_of_pos _ (by norm_num)
  obtain ⟨text, htext⟩ := timeoutSeconds_ok (c := E.config) hc.timeout_pos.le (by omega)
  have hends : Ends (tick E.taped now) s (fun _ t => TimedOut s (.ok (), t)) (fun _ _ => False) := by
    rw [tick, ends_bind, ends_session, hp]
    dsimp only
    rw [if_pos (show elapsed now s.session.startedAt ≥ E.taped.config.safetyTimeoutMs from hnow), timeOut, ends_bind,
      ends_check, show timeoutSeconds E.taped.config = _ from htext]
    dsimp only
    rw [ends_bind]
    refine say_ends fun v => ?_
    rw [ends_bind, ends_change]
    apply stop_returns hR hN
    · exact h.held_length_le
    · exact ht
    · intro hn
      rw [show s.session.policy = none from hn] at hp
      cases hp
    · intro n g v new hn
      exact ⟨rfl, idle_idled _, (hn.grip h.grip).asserted_eq (hn.allTaken ht).not_faulted, n, new, hn, rfl, rfl⟩
  obtain ⟨_, hr, hq⟩ := hends.returns
  exact ⟨hr, hq.idle, hq.silent, hq.calls⟩

/-! ## Runs -/

/-- the stamp of a time -/
def folded (ms : ℤ) : ℤ := ms % 4294967296

/-- less than 2^32 ms pass between two times whose stamps are compared -/
theorem elapsed_folded {T T0 : ℤ} (h0 : T0 ≤ T) (h : T - T0 < 4294967296) :
    elapsed (folded T) (folded T0) = T - T0 := by
  unfold elapsed folded
  omega

/-- a session that runs since `T0` on an effector that took all its calls -/
structure Since (c : EngineConfig) (T0 : ℤ) (p : Policy) (s : Scene (Taped ω)) : Prop where
  inv : Inv c s
  taken : AllTaken s.world.tape
  policy : s.session.policy = some p
  started : s.session.startedAt = folded T0

theorem step_taken (hR : E.rig.Reliable) (ht : AllTaken s.world.tape) (call : Call) :
    AllTaken (step E.taped s call).world.tape :=
  run_keeps (E := E.taped) hR.keeps ht [call]

/-- a tick leaves a session running whose age reads as less than the timeout -/
theorem Since.step {T0 now : ℤ} {p : Policy} (hR : E.rig.Reliable) (hN : E.SteadyWaits) (h : Since E.config T0 p s)
    (hlt : elapsed now (folded T0) < E.config.safetyTimeoutMs) : Since E.config T0 p (step E.taped s (.tick now)) := by
  have hl : Lasting s.session (Session.step E.taped s (.tick now)).session := tick_lasts (by rw [h.started]; exact hlt)
  exact ⟨step_inv hN h.inv _, step_taken hR h.taken _, hl.policy.trans h.policy, hl.started.trans h.started⟩

theorem Since.tick {T0 T : ℤ} {p : Policy} (hR : E.rig.Reliable) (hN : E.SteadyWaits) (h : Since E.config T0 p s)
    (h0 : T0 ≤ T) (hT : T - T0 < 4294967296) (hlt : T - T0 < E.config.safetyTimeoutMs) :
    Since E.config T0 p (Session.step E.taped s (.tick (folded T))) :=
  h.step hR hN (by rw [elapsed_folded h0 hT]; exact hlt)

/-- nothing comes of ticks while idle -/
theorem ticks_idle {E : Setup ω} {s : Scene ω} (hs : s.session.policy = none) (times : List ℤ) :
    run E (times.map fun T => .tick (folded T)) s = s := by
  induction times with
  | nil => rfl
  | cons T times ih =>
    have : step E s (.tick (folded T)) = s := by
      show (tick E (folded T) s).2 = s
      rw [tick, session_bind, hs]
      rfl
    rw [List.map_cons, run, List.foldl_cons, this]
    exact ih

/-- ticks before the timeout leave a session running, and one past it ends it -/
theorem ticks_since {T0 : ℤ} {p : Policy} (hR : E.rig.Reliable) (hc : E.config.Accepted) (hN : E.SteadyWaits)
    (h : Since E.config T0 p s) (times : List ℤ) (ht : ∀ T ∈ times, T0 ≤ T ∧ T - T0 < 4294967296) :
    ((∀ T ∈ times, T - T0 < E.config.safetyTimeoutMs) ∧
      Since E.config T0 p (run E.taped (times.map fun T => .tick (folded T)) s)) ∨
    ((∃ T ∈ times, E.config.safetyTimeoutMs ≤ T - T0) ∧
      Idle (run E.taped (times.map fun T => .tick (folded T)) s).session) := by
  induction times generalizing s with
  | nil => exact Or.inl ⟨List.forall_mem_nil _, h⟩
  | cons T times ih =>
    obtain ⟨h0, hT⟩ := ht T List.mem_cons_self
    rcases lt_or_ge (T - T0) E.config.safetyTimeoutMs with hlt | hge
    · have hrest : ∀ T ∈ times, T0 ≤ T ∧ T - T0 < 4294967296 := fun T hT => ht T (List.mem_cons_of_mem _ hT)
      rcases ih (h.tick hR hN h0 hT hlt) hrest with ⟨hall, hs⟩ | ⟨⟨U, hU, hle⟩, hs⟩
      · exact Or.inl ⟨List.forall_mem_cons.2 ⟨hlt, hall⟩, hs⟩
      · exact Or.inr ⟨⟨U, List.mem_cons_of_mem _ hU, hle⟩, hs⟩
    · refine Or.inr ⟨⟨T, List.mem_cons_self, hge⟩, ?_⟩
      have hout : TimedOut s (Session.tick E.taped (folded T) s) :=
        tick_timedOut hR hc hN h.inv h.taken h.policy (by rw [h.started, elapsed_folded h0 hT]; exact hge)
      have hi : Idle (step E.taped s (.tick (folded T))).session := hout.idle
      rw [List.map_cons, run, List.foldl_cons]
      show Idle (run E.taped _ _).session
      rw [ticks_idle hi.policy]
      exact hi

/-- once nothing runs, a start leaves its policy running since its stamp -/
theorem startIdle_since (p : Policy) (now entropy : ℤ) (s : Scene (Taped ω)) :
    Ends (startIdle E.taped p now entropy) s (fun _ t => t.session.policy = some p ∧ t.session.startedAt = now)
      (fun _ t => t.session.policy = some p ∧ t.session.startedAt = now) := by
  rw [startIdle, ends_bind]
  refine reseed_ends fun g v => ?_
  rw [ends_bind, ends_change]
  have hl : Lasts (do
      beginPhase E.taped p now
      let s ← session
      say E.taped .info ("Macro " ++ p.name.plain ++ " started: " ++ s.held.headD "" ++ " for " ++ inMs s.target)) :=
    (beginPhase_lasts p now).bind fun _ => lasts_session.bind fun _ => lasts_outside
  exact (hl.ends _).mono (fun _ t ht => ⟨ht.policy, ht.started⟩) (fun _ t ht => ⟨ht.policy, ht.started⟩)

/-- a start leaves its policy running since its stamp -/
theorem start_since (hR : E.rig.Reliable) (hN : E.SteadyWaits) (h : Inv E.config s) (ht : AllTaken s.world.tape)
    (p : Policy) (T0 entropy : ℤ) : Since E.config T0 p (step E.taped s (.start p (folded T0) entropy)) := by
  have hs : Ends (start E.taped p (folded T0) entropy) s
      (fun _ t => t.session.policy = some p ∧ t.session.startedAt = folded T0)
      (fun _ t => t.session.policy = some p ∧ t.session.startedAt = folded T0) := by
    rw [start_eq, ends_bind, ends_session]
    cases hp : s.session.policy with
    | none => exact startIdle_since p _ _ s
    | some q =>
      dsimp only
      rw [ends_bind]
      refine say_ends fun v => ?_
      rw [ends_bind]
      -- the stop returns, so the start goes on
      apply Ends.mono (stop_returns (Q := fun _ _ => True) hR hN ?_ ?_ (fun _ => trivial) fun _ _ _ _ _ => trivial)
      · exact fun _ t _ => startIdle_since p _ _ t
      · exact fun _ _ hf => hf.elim
      · exact h.held_length_le
      · exact ht
  obtain ⟨hp, ha⟩ := hs.after
  exact ⟨step_inv hN h _, step_taken hR ht _, hp, ha⟩

/-- **The safety timeout.** On a rig whose key calls never fault, let a session be started at a time `T0`, after any
calls, and then only ticked, at times less than 2^32 ms later, each given by its stamp. It is active as long as every
tick came before the timeout; and the tick that comes after it lets go of what is held and leaves the session idle with
nothing down, one timeout more counted, and no phase begun. -/
theorem run_timedOut {E : Setup ω} (hR : E.rig.Reliable) (hc : E.config.Accepted) (hN : E.SteadyWaits) (g : Generator)
    (w : ω) (before : List Call) (p : Policy) (entropy T0 : ℤ) (times : List ℤ)
    (ht : ∀ T ∈ times, T0 ≤ T ∧ T - T0 < 4294967296) :
    let s := run E.taped (before ++ .start p (folded T0) entropy :: times.map fun T => .tick (folded T))
      (Scene.fresh g w)
    (s.session.active = true ↔ ∀ T ∈ times, T - T0 < E.config.safetyTimeoutMs) ∧
      ∀ T, T0 ≤ T → T - T0 < 4294967296 → s.session.active = true → E.config.safetyTimeoutMs ≤ T - T0 →
        TimedOut s (tick E.taped (folded T) s) := by
  have hstart : Since E.config T0 p
      (step E.taped (run E.taped before (Scene.fresh g w)) (.start p (folded T0) entropy)) :=
    start_since hR hN (run_inv hN (inv_fresh E.config g w) before)
      (run_keeps (E := E.taped) hR.keeps (s := Scene.fresh g w) allTaken_nil before) p T0 entropy
  have hrun : run E.taped (before ++ .start p (folded T0) entropy :: times.map fun T => .tick (folded T))
      (Scene.fresh g w) = run E.taped (times.map fun T => .tick (folded T))
        (step E.taped (run E.taped before (Scene.fresh g w)) (.start p (folded T0) entropy)) := by
    simp only [run, List.foldl_append, List.foldl_cons]
  dsimp only
  rw [hrun]
  generalize step E.taped (run E.taped before (Scene.fresh g w)) (.start p (folded T0) entropy) = s at hstart
  rcases ticks_since hR hc hN hstart times ht with ⟨hall, hs⟩ | ⟨⟨U, hU, hle⟩, hi⟩
  · have hactive := active_iff.2 fun hn => nomatch hs.policy.symm.trans hn
    refine ⟨iff_of_true hactive hall, fun T h0 hT _ hge => ?_⟩
    exact tick_timedOut hR hc hN hs.inv hs.taken hs.policy (by rw [hs.started, elapsed_folded h0 hT]; exact hge)
  · have hidle := fun ha => active_iff.1 ha hi.policy
    have hlate : ¬ ∀ T ∈ times, T - T0 < E.config.safetyTimeoutMs := fun hall => absurd (hall U hU) (by omega)
    exact ⟨iff_of_false hidle hlate, fun T _ _ ha => absurd ha hidle⟩

/-- a session started 100 ms before the stamps wrap, and a tick 150 s later -/
theorem run_timedOut_wrap :
    let s := run (Setup.taped ⟨{}, .mean, .quiet⟩)
      [.start .og (folded 4294967196) 1, .tick (folded 4294968196)] (Scene.fresh .default ())
    s.session.active = true ∧
      TimedOut s (tick (Setup.taped ⟨{}, .mean, .quiet⟩) (folded 4295117196) s) := by
  obtain ⟨hactive, hout⟩ := run_timedOut (E := ⟨{}, .mean, .quiet⟩) Rig.quiet_reliable EngineConfig.accepted_default
    (Noise.mean_steady _ (by decide +kernel) (by decide +kernel) (by decide +kernel)) .default () [] .og 1 4294967196
    [4294968196] (by decide)
  have h := hactive.2 (by decide)
  exact ⟨h, hout 4295117196 (by decide) (by decide) h (by decide)⟩

end Session
end KeyHold
