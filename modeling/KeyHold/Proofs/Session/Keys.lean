/-
The key calls of a session's operations.

On a taped rig every press, release and stop is a few calls in a fixed order, and a fault cuts them short after one
that was not taken. Each rule below says of an operation what it leaves, for every way in which it can end; it is
enough to show what is wanted of each of these.

- `press_ends`: a press is one call.
- `release_ends`: a release is one call, or three with a bounce (`Released`); it is cut at any of them (`Cut`).
- `stop_ends`: a stop is the release of the key that is held, if one is, and the session is idle however it ends.

The samples that waits are made of have to be finite (`Setup.SteadyWaits`), else a wait could be cut as well, between a
press and its release. They are asked for at every state of the generator; a run has the noise of the states that it
visits only, so they may be taken to be finite elsewhere (`Session.run_along`).
-/
import Mathlib.Tactic
import KeyHold.Proofs.Session.World

namespace KeyHold

variable {ω : Type}

/-- the samples that waits are made of are finite -/
structure Setup.SteadyWaits (E : Setup ω) : Prop where
  travel : ∀ g, Decimal.Finite (E.noise.normal E.config.travelMeanUs E.config.travelStddevUs g).1
  bounceOff : ∀ g, Decimal.Finite (E.noise.normal E.config.bounceOffMeanUs E.config.bounceOffStddevUs g).1
  bounceOn : ∀ g, Decimal.Finite (E.noise.normal E.config.bounceOnMeanUs E.config.bounceOnStddevUs g).1

/-- no noise: every sample is the mean -/
def Noise.mean : Noise where
  normal mean _ g := (mean, g)

theorem Noise.mean_steady {c : EngineConfig} (R : Rig ω) (h1 : Decimal.Finite c.travelMeanUs)
    (h2 : Decimal.Finite c.bounceOffMeanUs) (h3 : Decimal.Finite c.bounceOnMeanUs) :
    Setup.SteadyWaits ⟨c, .mean, R⟩ :=
  ⟨fun _ => h1, fun _ => h2, fun _ => h3⟩

theorem Normal.waitOf_ok (most : ℤ) (x : Float) (h : Decimal.Finite x) : ∃ us, waitOf most x = .ok us := by
  obtain ⟨n, hn⟩ := (Decimal.roundEven_isOk_iff x).2 h
  exact ⟨clampWait most n, by simp [waitOf, nearestWhole, hn, Except.mapError, Except.map]⟩

namespace Session

open Act Tape

/-! ## Single key calls -/

variable {E : Setup ω} {s : Scene (Taped ω)} {Q : Unit → Scene (Taped ω) → Prop} {F : Fault → Scene (Taped ω) → Prop}

theorem keyDown_ends {k : String}
    (hQ : ∀ v, Q () { s with world := ⟨v, s.world.tape ++ [⟨.down, k, true⟩]⟩ })
    (hF : ∀ e v, F e { s with world := ⟨v, s.world.tape ++ [⟨.down, k, false⟩]⟩ }) :
    Ends (attempt (E.rig.taped.keyDown k)) s Q F := by
  rw [ends_attempt]
  rcases hr : E.rig.keyDown k s.world.world with ⟨e | _, v⟩
  · simp only [Rig.taped, hr]
    exact hF e v
  · simp only [Rig.taped, hr]
    exact hQ v

theorem keyUp_ends {k : String}
    (hQ : ∀ v, Q () { s with world := ⟨v, s.world.tape ++ [⟨.up, k, true⟩]⟩ })
    (hF : ∀ e v, F e { s with world := ⟨v, s.world.tape ++ [⟨.up, k, false⟩]⟩ }) :
    Ends (attempt (E.rig.taped.keyUp k)) s Q F := by
  rw [ends_attempt]
  rcases hr : E.rig.keyUp k s.world.world with ⟨e | _, v⟩
  · simp only [Rig.taped, hr]
    exact hF e v
  · simp only [Rig.taped, hr]
    exact hQ v

/-- an entry leaves the tape as it is -/
theorem say_ends {level : Level} {text : String} (hQ : ∀ v, Q () { s with world := ⟨v, s.world.tape⟩ }) :
    Ends (say E.taped level text) s Q F := by
  rw [say, ends_outside]
  exact hQ _

/-- a wait of finite samples takes time and a draw -/
theorem humanDelay_ends {mean stddev : Float} (hN : ∀ g, Decimal.Finite (E.noise.normal mean stddev g).1)
    (hQ : ∀ g v, Q () { session := { s.session with generator := g }, world := ⟨v, s.world.tape⟩ }) :
    Ends (humanDelay E.taped mean stddev) s Q F := by
  obtain ⟨us, hus⟩ := Normal.waitOf_ok E.config.maxWaitUs _ (hN s.session.generator)
  simp only [humanDelay, ends_bind, ends_draw, ends_check, ends_outside, Setup.taped, hus]
  exact hQ _ _

theorem press_ends {k : String} (hN : E.SteadyWaits)
    (hQ : ∀ g v, Q () { session := { s.session with held := s.session.held ++ [k], generator := g },
                        world := ⟨v, s.world.tape ++ [⟨.down, k, true⟩]⟩ })
    (hF : ∀ e g v, F e { session := { s.session with generator := g },
                         world := ⟨v, s.world.tape ++ [⟨.down, k, false⟩]⟩ }) :
    Ends (press E.taped k) s Q F := by
  unfold press
  rw [ends_bind]
  refine humanDelay_ends hN.travel fun g v => ?_
  rw [ends_bind]
  refine keyDown_ends (fun v => ?_) (fun e v => hF e g v)
  rw [ends_change]
  exact hQ g v

/-- the calls of a release that returns, with the number of bounces -/
inductive Released (k : String) : ℕ → Tape → Prop
  | plain : Released k 0 [⟨.up, k, true⟩]
  | bounced : Released k 1 [⟨.up, k, true⟩, ⟨.down, k, true⟩, ⟨.up, k, true⟩]

/-- the calls of a release that faults, with the number of bounces begun -/
inductive Cut (k : String) : ℕ → Tape → Prop
  | first : Cut k 0 [⟨.up, k, false⟩]
  | press : Cut k 1 [⟨.up, k, true⟩, ⟨.down, k, false⟩]
  | second : Cut k 1 [⟨.up, k, true⟩, ⟨.down, k, true⟩, ⟨.up, k, false⟩]

theorem Released.grip {k : String} {n : ℕ} {new t : Tape} (h : Released k n new) (ht : Grip t [k]) :
    Grip (t ++ new) [] := by
  cases h with
  | plain => exact ht.released k true
  | bounced => simpa using ((ht.released k true).pressed k).released k true

theorem Cut.grip {k : String} {n : ℕ} {new t : Tape} (h : Cut k n new) (ht : Grip t [k]) : Grip (t ++ new) [] := by
  cases h with
  | first => exact ht.released k false
  | press => simpa using (ht.released k true).missed k
  | second => simpa using ((ht.released k true).pressed k).released k false

theorem Cut.faulted {k : String} {n : ℕ} {new : Tape} (h : Cut k n new) (t : Tape) : Faulted (t ++ new) := by
  cases h with
  | first => exact ⟨⟨.up, k, false⟩, by simp, rfl⟩
  | press => exact ⟨⟨.down, k, false⟩, by simp, rfl⟩
  | second => exact ⟨⟨.up, k, false⟩, by simp, rfl⟩

/-- the session after a release of `k` -/
def letGo (s : Session) (k : String) (n : ℕ) (g : Generator) : Session :=
  { s with held := s.held.erase k, stats.bounces := s.stats.bounces + n, generator := g }

theorem release_ends {k : String} (hN : E.SteadyWaits)
    (hQ : ∀ n g v new, Released k n new → Q () ⟨letGo s.session k n g, ⟨v, s.world.tape ++ new⟩⟩)
    (hF : ∀ e n g v new, Cut k n new → F e ⟨letGo s.session k n g, ⟨v, s.world.tape ++ new⟩⟩) :
    Ends (release E.taped k) s Q F := by
  unfold release
  rw [ends_bind, ends_change, ends_bind]
  refine keyUp_ends (fun v => ?_) (fun e v => hF e 0 _ v _ .first)
  rw [ends_bind, ends_draw]
  split_ifs
  · unfold bounce
    rw [ends_bind, ends_change, ends_bind]
    refine say_ends fun v => ?_
    rw [ends_bind]
    refine humanDelay_ends hN.bounceOff fun g v => ?_
    rw [ends_bind]
    refine keyDown_ends (fun v => ?_) (fun e v => ?_)
    · rw [ends_bind]
      refine humanDelay_ends hN.bounceOn fun g v => keyUp_ends (fun v => ?_) (fun e v => ?_)
      · simpa only [letGo, List.append_assoc, List.cons_append, List.nil_append] using hQ 1 g v _ .bounced
      · simpa only [letGo, List.append_assoc, List.cons_append, List.nil_append] using hF e 1 g v _ .second
    · simpa only [letGo, List.append_assoc, List.cons_append, List.nil_append] using hF e 1 g v _ .press
  · rw [ends_pure]
    exact hQ 0 _ v _ .plain

/-! ## Stopping -/

/-- the calls that let go of all that is held, with the number of bounces -/
inductive LetGo : List String → ℕ → Tape → Prop
  | nothing : LetGo [] 0 []
  | key {k : String} {n : ℕ} {new : Tape} (h : Released k n new) : LetGo [k] n new

theorem LetGo.grip {held : List String} {n : ℕ} {new t : Tape} (h : LetGo held n new) (ht : Grip t held) :
    Grip (t ++ new) [] := by
  cases h with
  | nothing => simpa using ht
  | key h => exact h.grip ht

/-- an idle session with some bounces more -/
def stopped (s : Session) (n : ℕ) (g : Generator) : Session :=
  idled { s with stats.bounces := s.stats.bounces + n, generator := g }

theorem releaseAll_ends (hN : E.SteadyWaits) (hl : s.session.held.length ≤ 1)
    (hQ : ∀ n g v new, LetGo s.session.held n new → Q () ⟨stopped s.session n g, ⟨v, s.world.tape ++ new⟩⟩)
    (hF : ∀ e k n g v new, s.session.held = [k] → Cut k n new →
      F e ⟨stopped s.session n g, ⟨v, s.world.tape ++ new⟩⟩) :
    Ends (releaseAll E.taped) s Q F := by
  rw [releaseAll, ends_afterwards, ends_bind, ends_session]
  match hh : s.session.held, hl with
  | [], _ =>
    have h := hQ 0 s.session.generator s.world.world [] (hh ▸ .nothing)
    rw [List.append_nil] at h
    exact h
  | [k], _ =>
    show Ends (release E.taped k >>= fun _ => [].forM (release E.taped)) s _ _
    rw [ends_bind]
    refine release_ends hN (fun n g v new h => ?_) (fun e n g v new h => hF e k n g v new hh h)
    exact hQ n g v new (hh ▸ .key h)

theorem stop_ends (hN : E.SteadyWaits) (hl : s.session.held.length ≤ 1) (hI : s.session.policy = none → Q () s)
    (hQ : ∀ n g v new, LetGo s.session.held n new → Q () ⟨stopped s.session n g, ⟨v, s.world.tape ++ new⟩⟩)
    (hF : ∀ e k n g v new, s.session.held = [k] → Cut k n new →
      F e ⟨stopped s.session n g, ⟨v, s.world.tape ++ new⟩⟩) :
    Ends (stop E.taped) s Q F := by
  rw [stop, ends_bind, ends_session]
  cases hp : s.session.policy with
  | none => exact hI hp
  | some p =>
    rw [ends_bind]
    exact releaseAll_ends hN hl (fun n g v new h => say_ends fun v => hQ n g v new h) hF

end Session
end KeyHold
