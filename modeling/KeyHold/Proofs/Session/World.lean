/-
What a session's operations do to the world.

A session touches its world through the four functions of its rig only. So on rigs that do the same as far as a
relation `S` of their worlds tells, every operation ends in the same way with the same session, and in worlds that `S`
relates (`call_alike`, `run_alike`).

- `run_keeps`: a property of the world that outlives each function of the rig outlives every run.
- `run_taped`: a run on a taped rig is the run on the rig itself.
-/
import Mathlib.Tactic
import KeyHold.Proofs.Tape

namespace KeyHold

variable {ω ω' : Type}

/-- the setup with its rig taped -/
def Setup.taped (E : Setup ω) : Setup (Taped ω) := ⟨E.config, E.noise, E.rig.taped⟩

/-- what a scene is without its tape -/
def Scene.untaped (s : Scene (Taped ω)) : Scene ω := ⟨s.session, s.world.world⟩

/-- a taped rig does what the rig does -/
theorem Rig.taped_alike (R : Rig ω) : R.taped.Alike (fun v w => v.world = w) R where
  down := by rintro k v _ rfl; exact ⟨rfl, rfl⟩
  up := by rintro k v _ rfl; exact ⟨rfl, rfl⟩
  wait := by rintro us v _ rfl; rfl
  note := by rintro e v _ rfl; rfl

namespace Session

open Act

variable {S : ω → ω' → Prop} {c : EngineConfig} {N : Noise} {R : Rig ω} {R' : Rig ω'}

theorem say_alike (hS : R.Alike S R') (level : Level) (text : String) :
    Alike S (say ⟨c, N, R⟩ level text) (say ⟨c, N, R'⟩ level text) :=
  alike_outside (hS.note _)

theorem humanDelay_alike (hS : R.Alike S R') (mean stddev : Float) :
    Alike S (humanDelay ⟨c, N, R⟩ mean stddev) (humanDelay ⟨c, N, R'⟩ mean stddev) :=
  alike_draw.bind fun _ => alike_check.bind fun us => alike_outside (hS.wait us)

theorem press_alike (hS : R.Alike S R') (k : String) : Alike S (press ⟨c, N, R⟩ k) (press ⟨c, N, R'⟩ k) :=
  (humanDelay_alike hS _ _).bind fun _ => (alike_attempt (hS.down k)).bind fun _ => alike_change

theorem bounce_alike (hS : R.Alike S R') (k : String) : Alike S (bounce ⟨c, N, R⟩ k) (bounce ⟨c, N, R'⟩ k) := by
  refine alike_change.bind fun _ => (say_alike hS _ _).bind fun _ => (humanDelay_alike hS _ _).bind fun _ => ?_
  exact (alike_attempt (hS.down k)).bind fun _ => (humanDelay_alike hS _ _).bind fun _ => alike_attempt (hS.up k)

theorem release_alike (hS : R.Alike S R') (k : String) : Alike S (release ⟨c, N, R⟩ k) (release ⟨c, N, R'⟩ k) := by
  refine alike_change.bind fun _ => (alike_attempt (hS.up k)).bind fun _ => alike_draw.bind fun b => ?_
  split_ifs
  · exact bounce_alike hS k
  · exact alike_pure

theorem releaseAll_alike (hS : R.Alike S R') : Alike S (releaseAll ⟨c, N, R⟩) (releaseAll ⟨c, N, R'⟩) :=
  (alike_session.bind fun s => alike_forM (release_alike hS) s.held).afterwards

theorem setNextHold_alike (phase : Phase) :
    Alike S (setNextHold ⟨c, N, R⟩ phase) (setNextHold ⟨c, N, R'⟩ phase) := by
  refine (alike_draw.bind fun _ => alike_pure).bind fun _ => alike_change.bind fun _ => ?_
  exact alike_draw.bind fun _ => alike_change

theorem beginPhase_alike (hS : R.Alike S R') (p : Policy) (now : ℤ) :
    Alike S (beginPhase ⟨c, N, R⟩ p now) (beginPhase ⟨c, N, R'⟩ p now) := by
  refine alike_session.bind fun _ => (press_alike hS _).bind fun _ => alike_change.bind fun _ => ?_
  exact (setNextHold_alike _).bind fun _ => alike_change

theorem nextPhase_alike (hS : R.Alike S R') (p : Policy) (now : ℤ) :
    Alike S (nextPhase ⟨c, N, R⟩ p now) (nextPhase ⟨c, N, R'⟩ p now) :=
  alike_change.bind fun _ => beginPhase_alike hS p now

theorem enterGap_alike (hS : R.Alike S R') (now : ℤ) :
    Alike S (enterGap ⟨c, N, R⟩ now) (enterGap ⟨c, N, R'⟩ now) := by
  refine alike_draw.bind fun _ => alike_check.bind fun _ => alike_session.bind fun _ => ?_
  exact (alike_draw.bind fun _ => alike_pure).bind fun _ => alike_change.bind fun _ => say_alike hS _ _

theorem endGap_alike (hS : R.Alike S R') (p : Policy) (glitch : Glitch) (now : ℤ) :
    Alike S (endGap ⟨c, N, R⟩ p glitch now) (endGap ⟨c, N, R'⟩ p glitch now) := by
  refine alike_change.bind fun _ => ?_
  split_ifs
  · exact nextPhase_alike hS p now
  · refine alike_draw.bind fun _ => (press_alike hS _).bind fun _ => ?_
    exact alike_change.bind fun _ => say_alike hS _ _

theorem stop_alike (hS : R.Alike S R') : Alike S (stop ⟨c, N, R⟩) (stop ⟨c, N, R'⟩) := by
  refine alike_session.bind fun s => ?_
  cases s.policy with
  | none => exact alike_pure
  | some p => exact (releaseAll_alike hS).bind fun _ => say_alike hS _ _

theorem reseed_alike (hS : R.Alike S R') (entropy : ℤ) :
    Alike S (reseed ⟨c, N, R⟩ entropy) (reseed ⟨c, N, R'⟩ entropy) := by
  refine alike_draw.bind fun b => ?_
  split_ifs
  · exact alike_outside (hS.note _)
  · exact alike_pure

/-- what a start does once nothing runs -/
def startIdle (E : Setup ω) (p : Policy) (now entropy : ℤ) : Act ω Unit := do
  reseed E entropy
  change fun s =>
    { s with policy := some p, phaseIndex := 0, startedAt := now, stats.sessions := s.stats.sessions + 1 }
  beginPhase E p now
  let s ← session
  say E .info ("Macro " ++ p.name.plain ++ " started: " ++ s.held.headD "" ++ " for " ++ inMs s.target)

/-- a start switches away from what runs, and then starts -/
theorem start_eq (E : Setup ω) (p : Policy) (now entropy : ℤ) :
    start E p now entropy = session >>= fun s =>
      match s.policy with
      | none => startIdle E p now entropy
      | some q =>
        say E .info ("Switching macro " ++ q.name.plain ++ " -> " ++ p.name.plain) >>= fun _ =>
          stop E >>= fun _ => startIdle E p now entropy := rfl

theorem startIdle_alike (hS : R.Alike S R') (p : Policy) (now entropy : ℤ) :
    Alike S (startIdle ⟨c, N, R⟩ p now entropy) (startIdle ⟨c, N, R'⟩ p now entropy) := by
  refine (reseed_alike hS entropy).bind fun _ => alike_change.bind fun _ => ?_
  exact (beginPhase_alike hS p now).bind fun _ => alike_session.bind fun _ => say_alike hS _ _

theorem start_alike (hS : R.Alike S R') (p : Policy) (now entropy : ℤ) :
    Alike S (start ⟨c, N, R⟩ p now entropy) (start ⟨c, N, R'⟩ p now entropy) := by
  rw [start_eq, start_eq]
  refine alike_session.bind fun s => ?_
  cases s.policy with
  | none => exact startIdle_alike hS p now entropy
  | some q => exact (say_alike hS _ _).bind fun _ => (stop_alike hS).bind fun _ => startIdle_alike hS p now entropy

theorem timeOut_alike (hS : R.Alike S R') (p : Policy) : Alike S (timeOut ⟨c, N, R⟩ p) (timeOut ⟨c, N, R'⟩ p) := by
  refine alike_check.bind fun _ => (say_alike hS _ _).bind fun _ => ?_
  exact alike_change.bind fun _ => stop_alike hS

theorem endHold_alike (hS : R.Alike S R') (p : Policy) (k : String) (now : ℤ) :
    Alike S (endHold ⟨c, N, R⟩ p k now) (endHold ⟨c, N, R'⟩ p k now) := by
  refine (release_alike hS k).bind fun _ => alike_session.bind fun s => ?_
  split_ifs
  · exact enterGap_alike hS now
  · exact nextPhase_alike hS p now

theorem tick_alike (hS : R.Alike S R') (now : ℤ) : Alike S (tick ⟨c, N, R⟩ now) (tick ⟨c, N, R'⟩ now) := by
  refine alike_session.bind fun s => ?_
  cases s.policy with
  | none => exact alike_pure
  | some p =>
    dsimp only
    split_ifs
    · exact timeOut_alike hS p
    · split
      · refine alike_check.bind fun _ => ?_
        split_ifs
        · exact endGap_alike hS p _ now
        · exact alike_pure
      · exact nextPhase_alike hS p now
      · refine alike_check.bind fun _ => ?_
        split_ifs
        · exact endHold_alike hS p _ now
        · exact alike_pure

theorem call_alike (hS : R.Alike S R') (call : Call) : Alike S (call.act ⟨c, N, R⟩) (call.act ⟨c, N, R'⟩) := by
  cases call with
  | start p now entropy => exact start_alike hS p now entropy
  | stop => exact stop_alike hS
  | tick now => exact tick_alike hS now

/-- **Runs on rigs that do the same** go the same way. -/
theorem run_alike (hS : R.Alike S R') {s : Scene ω} {t : Scene ω'} (hs : s.session = t.session)
    (hw : S s.world t.world) (calls : List Call) :
    (run ⟨c, N, R⟩ calls s).session = (run ⟨c, N, R'⟩ calls t).session ∧
      S (run ⟨c, N, R⟩ calls s).world (run ⟨c, N, R'⟩ calls t).world := by
  induction calls generalizing s t with
  | nil => exact ⟨hs, hw⟩
  | cons call calls ih =>
    obtain ⟨x, v⟩ := s
    obtain ⟨y, w⟩ := t
    obtain rfl : x = y := hs
    obtain ⟨-, h2, h3⟩ := call_alike hS call x v w hw
    exact ih h2 h3

/-- **What the rig keeps every run keeps**, whichever calls fault. -/
theorem run_keeps {E : Setup ω} {P : ω → Prop} (hP : E.rig.Keeps P) {s : Scene ω} (h : P s.world)
    (calls : List Call) : P (run E calls s).world :=
  (run_alike hP.alike rfl ⟨rfl, h⟩ calls).2.2

/-- **The tape is only written**: without it a run is the run on the rig itself. -/
theorem run_taped (E : Setup ω) (calls : List Call) (s : Scene (Taped ω)) :
    (run E.taped calls s).untaped = run E calls s.untaped := by
  obtain ⟨h1, h2⟩ := run_alike (c := E.config) (N := E.noise) (t := s.untaped) E.rig.taped_alike rfl rfl calls
  exact congrArg₂ Scene.mk h1 h2

end Session
end KeyHold
