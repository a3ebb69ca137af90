/-
Sessions at another time.

Time enters a session by stamps alone, and every decision is about the time elapsed between two of them. So all that a
session does is the same when each stamp given to it is later by the same number of milliseconds, modulo 2^32: also
when the stamps wrap in one run and not in the other, and also where key calls fault.

The stamps that it keeps are then later by as much. A phase is stamped once its key is down, so a session whose first
press failed has not stamped any (`Unbegun`); it reads this stamp only while a key is held or a gap is waited out.

- `call_mirrors`: what one call at a later stamp does.
- `run_later`, `run_shifted`: **whole runs**.
- `unbegun_unshifted`: a first press that fails leaves a running session with no stamp of a phase.
-/
import Mathlib.Tactic
import KeyHold.Session.Bench
import KeyHold.Proofs.Mirrors
import KeyHold.Proofs.Session.Keys

namespace KeyHold

variable {ω : Type}

namespace Session

open Act

variable {E : Setup ω}

/-! ## Operations that are blind -/

theorem say_blind (level : Level) (text : String) : Blind (say E level text) := blind_outside

theorem humanDelay_blind (mean stddev : Float) : Blind (humanDelay E mean stddev) :=
  blind_draw.bind fun _ => blind_check.bind fun _ => blind_outside

theorem bounce_blind (k : String) : Blind (bounce E k) := by
  refine Blind.bind (blind_change (fun _ _ _ => rfl) fun _ => ⟨rfl, rfl, rfl, id, id, id⟩) fun _ => ?_
  refine (say_blind _ _).bind fun _ => (humanDelay_blind _ _).bind fun _ => blind_attempt.bind fun _ => ?_
  exact (humanDelay_blind _ _).bind fun _ => blind_attempt

theorem release_blind (k : String) : Blind (release E k) := by
  refine Blind.bind (blind_change (fun _ _ _ => rfl) fun x => ⟨rfl, rfl, rfl, id, fun h => ?_, id⟩) fun _ => ?_
  · show x.held.erase k = []
    rw [h]
    rfl
  · refine blind_attempt.bind fun _ => blind_draw.bind fun b => ?_
    split_ifs
    · exact bounce_blind k
    · exact blind_pure

theorem releaseAll_blind : Blind (releaseAll E) :=
  (blind_session (fun _ _ _ => rfl) fun x => blind_forM release_blind x.held).afterwards (fun _ _ _ => rfl)
    fun _ => ⟨rfl, rfl, rfl, fun _ => rfl, fun _ => rfl, fun _ => rfl⟩

theorem stop_blind : Blind (stop E) := by
  refine blind_session (fun _ _ _ => rfl) fun x => ?_
  cases x.policy with
  | none => exact blind_pure
  | some p => exact releaseAll_blind.bind fun _ => say_blind _ _

theorem reseed_blind (entropy : ℤ) : Blind (reseed E entropy) := by
  refine blind_draw.bind fun b => ?_
  split_ifs
  · exact blind_outside
  · exact blind_pure

theorem sampleAtLeast_blind (mean stddev bound : Float) : Blind (sampleAtLeast E mean stddev bound) :=
  blind_draw.bind fun _ => blind_pure

theorem setNextHold_blind (phase : Phase) : Blind (setNextHold E phase) := by
  refine (sampleAtLeast_blind _ _ _).bind fun target => ?_
  refine Blind.bind (blind_change (fun _ _ _ => rfl) fun _ => ⟨rfl, rfl, rfl, id, id, id⟩) fun _ => ?_
  refine blind_draw.bind fun armed => ?_
  exact blind_change (fun _ _ _ => rfl) fun _ => ⟨rfl, rfl, rfl, id, id, fun _ => rfl⟩

/-! ## The stamps of two runs -/

/-- the start's stamp is `c` later; nothing has been started otherwise -/
def StartShifted (c : ℤ) (x : Session) (a : ℤ) : Prop :=
  a ≡ x.startedAt + c [ZMOD 4294967296] ∨ (x.policy = none ∧ x.startedAt = 0 ∧ a = 0)

/-- no phase has begun yet: its stamp is still zero, and nothing is held or pends -/
structure Unbegun (x : Session) (b : ℤ) : Prop where
  stamps : x.phaseAt = 0 ∧ b = 0
  phases : x.stats.phases = 0
  held : x.held = []
  glitch : x.glitch = none

/-- both stamps are `c` later -/
def Phased (c : ℤ) (x : Session) (a b : ℤ) : Prop :=
  StartShifted c x a ∧ b ≡ x.phaseAt + c [ZMOD 4294967296]

/-- the stamps are `c` later, that of the phase as soon as one has begun -/
def Shifted (c : ℤ) (x : Session) (a b : ℤ) : Prop :=
  StartShifted c x a ∧ (b ≡ x.phaseAt + c [ZMOD 4294967296] ∨ Unbegun x b)

/-- the same for a session that no fault has cut off: if it is active, a phase has begun -/
def InPhase (c : ℤ) (x : Session) (a b : ℤ) : Prop := Phased c x a b ∨ (Shifted c x a b ∧ x.policy = none)

section Stamps

variable {c : ℤ} {x y : Session} {a b : ℤ}

theorem StartShifted.quiet (h : StartShifted c x a) (hq : Quiet x y) : StartShifted c y a := by
  rcases h with h | ⟨hp, hx, ha⟩
  · exact Or.inl (hq.started ▸ h)
  · exact Or.inr ⟨hq.policy hp, hq.started.trans hx, ha⟩

theorem Phased.quiet (h : Phased c x a b) (hq : Quiet x y) : Phased c y a b := ⟨h.1.quiet hq, hq.phase ▸ h.2⟩

theorem Unbegun.quiet (h : Unbegun x b) (hq : Quiet x y) : Unbegun y b :=
  ⟨⟨hq.phase.trans h.stamps.1, h.stamps.2⟩, hq.phases.trans h.phases, hq.held h.held, hq.glitch h.glitch⟩

theorem Shifted.quiet (h : Shifted c x a b) (hq : Quiet x y) : Shifted c y a b :=
  ⟨h.1.quiet hq, h.2.imp (hq.phase ▸ ·) (·.quiet hq)⟩

theorem Phased.shifted (h : Phased c x a b) : Shifted c x a b := ⟨h.1, Or.inl h.2⟩

theorem InPhase.shifted (h : InPhase c x a b) : Shifted c x a b := h.elim Phased.shifted And.left

theorem Shifted.phased (h : Shifted c x a b) (hx : x.held ≠ [] ∨ x.glitch ≠ none) : Phased c x a b := by
  refine ⟨h.1, h.2.resolve_right fun hu => ?_⟩
  rcases hx with hx | hx
  · exact hx hu.held
  · exact hx hu.glitch

/-- the time elapsed between two stamps is that between the later ones -/
theorem elapsed_shifted {now now' t t' : ℤ} (hn : now' ≡ now + c [ZMOD 4294967296])
    (ht : t' ≡ t + c [ZMOD 4294967296]) : elapsed now' t' = elapsed now t := by
  have h : now' - t' ≡ now + c - (t + c) [ZMOD 4294967296] := hn.sub ht
  rw [add_sub_add_right_eq_sub] at h
  exact h

end Stamps

section Mirrors

variable {c now now' a b : ℤ} {s : Scene ω} {p : Policy}

/-- after a press that returns the phase's stamp is to be set -/
theorem press_mirrors (h : Shifted c s.session a b) (k : String) :
    Mirrors (press E k) (press E k) s a b (fun x a _ => StartShifted c x a) (Shifted c) := by
  refine ((humanDelay_blind _ _).mirrors (fun _ => h.quiet) fun _ => h.quiet).bind fun _ t a b h => ?_
  refine (blind_attempt.mirrors (fun _ => h.quiet) fun _ => h.quiet).bind fun _ t a b h => ?_
  exact mirrors_change a b rfl h.1

theorem beginPhase_mirrors (hn : now' ≡ now + c [ZMOD 4294967296]) (h : Shifted c s.session a b) :
    Mirrors (beginPhase E p now') (beginPhase E p now) s a b (Phased c) (Shifted c) := by
  refine mirrors_session ((press_mirrors h _).bind fun _ t a b h => ?_)
  refine Mirrors.bind (Q := Phased c) (mirrors_change a now' rfl ⟨h, hn⟩) fun _ t a b h => ?_
  refine ((setNextHold_blind _).mirrors (fun _ => h.quiet) fun _ => h.shifted.quiet).bind fun _ t a b h => ?_
  exact mirrors_change a b rfl h

theorem nextPhase_mirrors (hn : now' ≡ now + c [ZMOD 4294967296]) (h : Shifted c s.session a b) :
    Mirrors (nextPhase E p now') (nextPhase E p now) s a b (Phased c) (Shifted c) := by
  refine Mirrors.bind (Q := Shifted c) (mirrors_change a b rfl ?_) fun _ t a b h => beginPhase_mirrors hn h
  exact h.quiet ⟨rfl, rfl, rfl, id, id, id⟩

theorem enterGap_mirrors (hn : now' ≡ now + c [ZMOD 4294967296]) (h : Phased c s.session a b) :
    Mirrors (enterGap E now') (enterGap E now) s a b (Phased c) (Shifted c) := by
  refine (blind_draw.mirrors (fun _ => h.quiet) fun _ => h.shifted.quiet).bind fun pct t a b h => ?_
  refine (blind_check.mirrors (fun _ => h.quiet) fun _ => h.shifted.quiet).bind fun x t a b h => ?_
  refine mirrors_session ?_
  refine ((sampleAtLeast_blind _ _ _).mirrors (fun _ => h.quiet) fun _ => h.shifted.quiet).bind fun gap t a b h => ?_
  refine Mirrors.bind (Q := Phased c) (mirrors_change a now' rfl ⟨h.1, hn⟩) fun _ t a b h => ?_
  exact (say_blind _ _).mirrors (fun _ => h.quiet) fun _ => h.shifted.quiet

theorem endGap_mirrors (hn : now' ≡ now + c [ZMOD 4294967296]) (h : Phased c s.session a b) (glitch : Glitch) :
    Mirrors (endGap E p glitch now') (endGap E p glitch now) s a b (Phased c) (Shifted c) := by
  refine Mirrors.bind (Q := Phased c) (mirrors_change a b rfl ?_) fun _ t a b h => ?_
  · exact h.quiet ⟨rfl, rfl, rfl, id, id, fun _ => rfl⟩
  split_ifs
  · exact nextPhase_mirrors hn h.shifted
  · refine (blind_draw.mirrors (fun _ => h.shifted.quiet) fun _ => h.shifted.quiet).bind fun i t a b h => ?_
    refine (press_mirrors h _).bind fun _ t a b h => ?_
    refine Mirrors.bind (Q := Phased c) (mirrors_change a now' rfl ⟨h, hn⟩) fun _ t a b h => ?_
    exact (say_blind _ _).mirrors (fun _ => h.quiet) fun _ => h.shifted.quiet

theorem endHold_mirrors (hn : now' ≡ now + c [ZMOD 4294967296]) (h : Phased c s.session a b) (k : String) :
    Mirrors (endHold E p k now') (endHold E p k now) s a b (Phased c) (Shifted c) := by
  refine ((release_blind k).mirrors (fun _ => h.quiet) fun _ => h.shifted.quiet).bind fun _ t a b h => ?_
  refine mirrors_session ?_
  show Mirrors (if t.session.armed then _ else _) _ _ _ _ _ _
  split_ifs
  · exact enterGap_mirrors hn h
  · exact nextPhase_mirrors hn h.shifted

/-! ## Operations -/

/-- a stop leaves nothing running, whichever way it ends -/
theorem stop_policy (s : Scene ω) : (stop E s).2.session.policy = none := by
  rw [stop, session_bind]
  cases hp : s.session.policy with
  | none => exact hp
  | some p =>
    dsimp only
    rw [bind_run]
    have hall : (releaseAll E s).2.session.policy = none := rfl
    rcases hr : releaseAll E s with ⟨_ | _, t⟩ <;> rw [hr] at hall <;> exact hall

theorem stop_mirrors (h : Shifted c s.session a b) : Mirrors (stop E) (stop E) s a b (InPhase c) (Shifted c) := by
  refine Mirrors.mono (Mirrors.after (P := fun x => x.policy = none) (Q := Shifted c) (F := Shifted c) ?_ ?_) ?_ ?_
  · exact stop_blind.mirrors (fun _ => h.quiet) fun _ => h.quiet
  · exact stop_policy s
  · exact fun _ _ _ => Or.inr
  · exact fun _ _ _ => And.left

theorem timeOut_mirrors (h : Shifted c s.session a b) :
    Mirrors (timeOut E p) (timeOut E p) s a b (InPhase c) (Shifted c) := by
  refine (blind_check.mirrors (fun _ => h.quiet) fun _ => h.quiet).bind fun text t a b h => ?_
  refine ((say_blind _ _).mirrors (fun _ => h.quiet) fun _ => h.quiet).bind fun _ t a b h => ?_
  refine Mirrors.bind (Q := Shifted c) (mirrors_change a b rfl ?_) fun _ t a b h => stop_mirrors h
  exact h.quiet ⟨rfl, rfl, rfl, id, id, id⟩

theorem tick_mirrors (hn : now' ≡ now + c [ZMOD 4294967296]) (h : Shifted c s.session a b) :
    Mirrors (tick E now') (tick E now) s a b (InPhase c) (Shifted c) := by
  refine mirrors_session ?_
  dsimp only [Session.restamp]
  cases hp : s.session.policy with
  | none => exact mirrors_pure (Or.inr ⟨h, hp⟩)
  | some p =>
    have ha : a ≡ s.session.startedAt + c [ZMOD 4294967296] := h.1.resolve_right fun hi => by
      rw [hi.1] at hp
      cases hp
    simp only [elapsed_shifted hn ha]
    split_ifs
    · exact timeOut_mirrors h
    cases hg : s.session.glitch with
    | some gl =>
      have h := h.phased (Or.inr (by simp [hg]))
      simp only [elapsed_shifted hn h.2]
      refine (blind_check.mirrors (fun _ => h.quiet) fun _ => h.shifted.quiet).bind fun gap t a b h => ?_
      split_ifs
      · exact (endGap_mirrors hn h gl).mono (fun _ _ _ => Or.inl) fun _ _ _ => id
      · exact mirrors_pure (Or.inl h)
    | none =>
      cases hh : s.session.held with
      | nil => exact (nextPhase_mirrors hn h).mono (fun _ _ _ => Or.inl) fun _ _ _ => id
      | cons k rest =>
        have h := h.phased (Or.inl (by simp [hh]))
        simp only [elapsed_shifted hn h.2]
        refine (blind_check.mirrors (fun _ => h.quiet) fun _ => h.shifted.quiet).bind fun hold t a b h => ?_
        split_ifs
        · exact (endHold_mirrors hn h k).mono (fun _ _ _ => Or.inl) fun _ _ _ => id
        · exact mirrors_pure (Or.inl h)

theorem startIdle_mirrors (hn : now' ≡ now + c [ZMOD 4294967296]) (h : Shifted c s.session a b) (entropy : ℤ) :
    Mirrors (startIdle E p now' entropy) (startIdle E p now entropy) s a b (InPhase c) (Shifted c) := by
  refine ((reseed_blind entropy).mirrors (fun _ => h.quiet) fun _ => h.quiet).bind fun _ t a b h => ?_
  refine Mirrors.bind (Q := Shifted c) (mirrors_change now' b rfl ?_) fun _ t a b h => ?_
  · exact ⟨Or.inl hn, h.2.imp id fun hu => ⟨hu.stamps, hu.phases, hu.held, hu.glitch⟩⟩
  refine (beginPhase_mirrors hn h).bind fun _ t a b h => mirrors_session ?_
  exact (say_blind _ _).mirrors (fun _ hq => Or.inl (h.quiet hq)) fun _ => h.shifted.quiet

theorem start_mirrors (hn : now' ≡ now + c [ZMOD 4294967296]) (h : Shifted c s.session a b) (entropy : ℤ) :
    Mirrors (start E p now' entropy) (start E p now entropy) s a b (InPhase c) (Shifted c) := by
  rw [start_eq, start_eq]
  refine mirrors_session ?_
  dsimp only [Session.restamp]
  cases s.session.policy with
  | none => exact startIdle_mirrors hn h entropy
  | some q =>
    refine ((say_blind _ _).mirrors (fun _ => h.quiet) fun _ => h.quiet).bind fun _ t a b h => ?_
    exact (stop_mirrors h).bind fun _ t a b h => startIdle_mirrors hn h.shifted entropy

end Mirrors

/-! ## Runs -/

/-- a stamp `c` later -/
def later (c now : ℤ) : ℤ := (now + c) % 4294967296

theorem later_modEq (c now : ℤ) : later c now ≡ now + c [ZMOD 4294967296] := Int.mod_modEq _ _

/-- the same call `c` later -/
def Call.later (c : ℤ) : Call → Call
  | .start p now entropy => .start p (Session.later c now) entropy
  | .stop => .stop
  | .tick now => .tick (Session.later c now)

theorem call_mirrors {c a b : ℤ} {s : Scene ω} (h : Shifted c s.session a b) (call : Call) :
    Mirrors ((call.later c).act E) (call.act E) s a b (InPhase c) (Shifted c) := by
  cases call with
  | start p now entropy => exact start_mirrors (later_modEq c now) h entropy
  | stop => exact stop_mirrors h
  | tick now => exact tick_mirrors (later_modEq c now) h

/-- a call made `c` later on a session whose stamps are `c` later -/
theorem step_later {c a b : ℤ} {s : Scene ω} (h : Shifted c s.session a b) (call : Call) :
    ((call.later c).act E (s.restamp a b)).1 = (call.act E s).1 ∧
    ∃ a' b', step E (s.restamp a b) (call.later c) = (step E s call).restamp a' b' ∧
      Shifted c (step E s call).session a' b' ∧
      ((call.act E s).1 = .ok () → InPhase c (step E s call).session a' b') := by
  obtain ⟨a', b', hsame, hends⟩ := call_mirrors (E := E) h call
  refine ⟨by rw [hsame], a', b', by rw [step, hsame]; rfl, ?_⟩
  unfold step
  unfold Ends at hends
  rcases hr : call.act E s with ⟨e | v, t⟩ <;> rw [hr] at hends
  · exact ⟨hends, fun hc => by cases hc⟩
  · exact ⟨hends.shifted, fun _ => hends⟩

theorem run_later {c a b : ℤ} {s : Scene ω} (h : Shifted c s.session a b) (calls : List Call) :
    ∃ a' b', run E (calls.map (Call.later c)) (s.restamp a b) = (run E calls s).restamp a' b' ∧
      Shifted c (run E calls s).session a' b' := by
  induction calls generalizing s a b with
  | nil => exact ⟨a, b, rfl, h⟩
  | cons call calls ih =>
    obtain ⟨-, a', b', hstep, hs, -⟩ := step_later (E := E) h call
    obtain ⟨a'', b'', hrun, hs'⟩ := ih hs
    refine ⟨a'', b'', ?_, hs'⟩
    rw [List.map_cons, run, List.foldl_cons, hstep]
    exact hrun

/-- two sessions that differ by `c` in their stamps, and in nothing else -/
structure Later (c : ℤ) (x y : Session) : Prop where
  same : y = x.restamp y.startedAt y.phaseAt
  started : x.active = true → y.startedAt ≡ x.startedAt + c [ZMOD 4294967296]
  /-- the stamp of the phase is zero in both until a phase has begun -/
  phase : x.active = true →
    y.phaseAt ≡ x.phaseAt + c [ZMOD 4294967296] ∨ (x.stats.phases = 0 ∧ x.phaseAt = 0 ∧ y.phaseAt = 0)

theorem Shifted.later {c a b : ℤ} {x : Session} (h : Shifted c x a b) : Later c x (x.restamp a b) := by
  refine ⟨rfl, fun hx => ?_, fun _ => ?_⟩
  · exact h.1.resolve_right fun hi => active_iff.1 hx hi.1
  · exact h.2.imp id fun hu => ⟨hu.phases, hu.stamps⟩

theorem InPhase.phase {c a b : ℤ} {x : Session} (h : InPhase c x a b) (hx : x.active = true) :
    b ≡ x.phaseAt + c [ZMOD 4294967296] := by
  rcases h with h | ⟨-, hp⟩
  · exact h.2
  · exact absurd hp (active_iff.1 hx)

/-- **Runs at another time.** Let every stamp given to a fresh session be `c` later, modulo 2^32. On any rig, whichever
key calls fault, each call then ends in the same way and leaves the same world, and the sessions differ in their stamps
only, by `c`; but a session that runs though none of its phases has begun has no stamp of a phase yet, in both. No call
that returns leaves one. -/
theorem run_shifted (E : Setup ω) (g : Generator) (w : ω) (c : ℤ) (calls : List Call) (call : Call) :
    let s := run E calls ⟨{ generator := g }, w⟩
    let t := run E (calls.map (Call.later c)) ⟨{ generator := g }, w⟩
    t.world = s.world ∧ Later c s.session t.session ∧ ((call.later c).act E t).1 = (call.act E s).1 ∧
      ((call.act E s).1 = .ok () → (step E s call).session.active = true →
        (step E t (call.later c)).session.phaseAt ≡ (step E s call).session.phaseAt + c [ZMOD 4294967296]) := by
  have fresh : Shifted c ({ generator := g } : Session) 0 0 :=
    ⟨Or.inr ⟨rfl, rfl, rfl⟩, Or.inr ⟨⟨rfl, rfl⟩, rfl, rfl, rfl⟩⟩
  obtain ⟨a, b, hrun, hs⟩ := run_later (E := E) (s := ⟨{ generator := g }, w⟩) fresh calls
  have hrun : run E (calls.map (Call.later c)) ⟨{ generator := g }, w⟩ = _ := hrun
  obtain ⟨hends, a', b', hstep, -, hphase⟩ := step_later (E := E) hs call
  dsimp only
  rw [hrun]
  refine ⟨rfl, hs.later, hends, fun hok hx => ?_⟩
  rw [hstep]
  exact (hphase hok).phase hx

/-- a bench whose first press fails -/
def firstPressFails : Bench := { faulty := fun d n => d = .down && n == 0 }

/-- **A first press that fails** leaves a session that runs, with the stamp of its phase at zero whenever it was
started. -/
theorem unbegun_unshifted :
    let s := run ⟨{}, .mean, Bench.rig⟩ [.start .og 0 0] ⟨{}, firstPressFails⟩
    let t := run ⟨{}, .mean, Bench.rig⟩ ([.start .og 0 0].map (Call.later 5)) ⟨{}, firstPressFails⟩
    s.session.active = true ∧ ¬ t.session.phaseAt ≡ s.session.phaseAt + 5 [ZMOD 4294967296] := by
  decide +kernel

end Session
end KeyHold
