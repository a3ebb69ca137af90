/-
What a call leaves running.

A call that faults keeps what it has done. A stop leaves the session idle also when a release fails, and a start runs
its policy before the first key goes down, so a session runs the same policy after a call that faults as after one that
returns, or nothing. A session that runs nothing is idle at all times.

- `call_policy`: what a call leaves running, whether it returns or faults.
- `call_tidy`: a session that runs nothing is idle, after every call, on every rig.
-/
import Mathlib.Tactic
import KeyHold.Proofs.Session.Shift
import KeyHold.Proofs.Session.Timeout

namespace KeyHold.Session

open Act

variable {ω : Type} {E : Setup ω}

/-! ## What a call leaves running -/

/-- once nothing runs, a start leaves its policy running, also when its first key does not go down -/
theorem startIdle_policy (p : Policy) (now entropy : ℤ) (s : Scene ω) :
    Ends (startIdle E p now entropy) s (fun _ t => t.session.policy = some p)
      (fun _ t => t.session.policy = some p) := by
  have hreseed : ∀ {Q F}, (∀ t : Scene ω, Q () t) → Ends (reseed E entropy) s Q F := by
    intro Q F hQ
    rw [reseed, ends_bind, ends_draw]
    split_ifs
    · exact hQ _
    · exact hQ _
  have hrest : Lasts (do
      beginPhase E p now
      let s ← session
      say E .info ("Macro " ++ p.name.plain ++ " started: " ++ s.held.headD "" ++ " for " ++ inMs s.target)) :=
    (beginPhase_lasts p now).bind fun _ => lasts_session.bind fun _ => lasts_outside
  rw [startIdle, ends_bind]
  refine hreseed fun t => ?_
  rw [ends_bind, ends_change]
  exact (hrest.ends _).mono (fun _ t ht => ht.policy) (fun _ t ht => ht.policy)

theorem stop_ends_policy (s : Scene ω) :
    Ends (stop E) s (fun _ t => t.session.policy = none) (fun _ t => t.session.policy = none) :=
  ends_iff_after.2 (stop_policy s)

/-- a start that returns leaves its policy running; one that faults leaves this or nothing -/
theorem start_policy (p : Policy) (now entropy : ℤ) (s : Scene ω) :
    Ends (start E p now entropy) s (fun _ t => t.session.policy = some p)
      (fun _ t => t.session.policy = some p ∨ t.session.policy = none) := by
  rw [start_eq, ends_bind, ends_session]
  cases s.session.policy with
  | none => exact (startIdle_policy p now entropy s).mono (fun _ _ h => h) (fun _ _ h => Or.inl h)
  | some q =>
    dsimp only
    rw [ends_bind, say, ends_outside, ends_bind]
    apply (stop_ends_policy _).mono
    · intro _ t _
      exact (startIdle_policy p now entropy t).mono (fun _ _ h => h) (fun _ _ h => Or.inl h)
    · exact fun _ _ h => Or.inr h

/-- a tick leaves running what runs, or nothing -/
theorem tick_policy (now : ℤ) (s : Scene ω) :
    Ends (tick E now) s (fun _ t => t.session.policy = s.session.policy ∨ t.session.policy = none)
      (fun _ t => t.session.policy = s.session.policy ∨ t.session.policy = none) := by
  rcases lt_or_ge (elapsed now s.session.startedAt) E.config.safetyTimeoutMs with hlt | hge
  · have hlast : Lasting s.session (tick E now s).2.session := tick_lasts hlt
    exact ends_iff_after.2 (Or.inl hlast.policy)
  · rw [tick, ends_bind, ends_session]
    cases hp : s.session.policy with
    | none => exact Or.inl hp
    | some p =>
      dsimp only
      rw [if_pos hge, timeOut, ends_bind, ends_check]
      cases timeoutSeconds E.config with
      | error e => exact Or.inl hp
      | ok seconds =>
        dsimp only
        rw [ends_bind, say, ends_outside, ends_bind, ends_change]
        exact (stop_ends_policy _).mono (fun _ _ h => Or.inr h) (fun _ _ h => Or.inr h)

/-- what runs after a call that returns is none, what ran before, or what the call starts -/
def Call.Runs (before after : Option Policy) : Call → Prop
  | .start p _ _ => after = some p
  | .stop => after = none
  | .tick _ => after = before ∨ after = none

/-- **What a call leaves running**: one that faults leaves what it would leave if it returned, or nothing. -/
theorem call_policy (call : Call) (s : Scene ω) :
    Ends (call.act E) s (fun _ t => call.Runs s.session.policy t.session.policy)
      (fun _ t => call.Runs s.session.policy t.session.policy ∨ t.session.policy = none) := by
  cases call with
  | start p now entropy => exact start_policy p now entropy s
  | stop => exact (stop_ends_policy s).mono (fun _ _ h => h) (fun _ _ h => Or.inr h)
  | tick now => exact (tick_policy now s).mono (fun _ _ h => h) (fun _ _ h => Or.inl h)

/-! ## Sessions that run nothing -/

/-- a session that runs nothing is idle -/
def Tidy (x : Session) : Prop := x.policy = none → Idle x

theorem tidy_of_running {x : Session} {p : Policy} (h : x.policy = some p) : Tidy x := by
  intro hn
  rw [h] at hn
  cases hn

theorem Idle.tidy {x : Session} (h : Idle x) : Tidy x := fun _ => h

variable {s : Scene ω}

/-- a stop leaves the session idle, also when a release fails -/
theorem stop_idle (h : Tidy s.session) :
    Ends (stop E) s (fun _ t => Idle t.session) (fun _ t => Idle t.session) := by
  rw [stop, ends_bind, ends_session]
  cases hp : s.session.policy with
  | none => exact h hp
  | some p =>
    dsimp only
    rw [ends_bind]
    have hall : Idle (releaseAll E s).2.session := idle_idled _
    refine (ends_iff_after.2 hall).mono (fun _ t ht => ?_) (fun _ _ ht => ht)
    rw [say, ends_outside]
    exact ht

theorem start_tidy (h : Tidy s.session) (p : Policy) (now entropy : ℤ) :
    Ends (start E p now entropy) s (fun _ t => Tidy t.session) (fun _ t => Tidy t.session) := by
  have hstarted : ∀ t : Scene ω, Ends (startIdle E p now entropy) t (fun _ t => Tidy t.session)
      (fun _ t => Tidy t.session) := by
    intro t
    exact (startIdle_policy p now entropy t).mono (fun _ _ h => tidy_of_running h) (fun _ _ h => tidy_of_running h)
  rw [start_eq, ends_bind, ends_session]
  cases s.session.policy with
  | none => exact hstarted s
  | some q =>
    dsimp only
    rw [ends_bind, say, ends_outside, ends_bind]
    refine (stop_idle ?_).mono (fun _ t _ => hstarted t) (fun _ _ h => h.tidy)
    exact h

theorem tick_tidy (h : Tidy s.session) (now : ℤ) : Tidy (tick E now s).2.session := by
  cases hp : s.session.policy with
  | none =>
    rw [tick, session_bind, hp]
    exact h
  | some p =>
    by_cases hlate : elapsed now s.session.startedAt ≥ E.config.safetyTimeoutMs
    · have hends : Ends (tick E now) s (fun _ t => Tidy t.session) (fun _ t => Tidy t.session) := by
        rw [tick, ends_bind, ends_session, hp]
        dsimp only
        rw [if_pos hlate, timeOut, ends_bind, ends_check]
        cases timeoutSeconds E.config with
        | error e => exact h
        | ok seconds =>
          dsimp only
          rw [ends_bind, say, ends_outside, ends_bind, ends_change]
          refine (stop_idle ?_).mono (fun _ _ h => h.tidy) (fun _ _ h => h.tidy)
          exact tidy_of_running hp
      exact hends.after
    · -- what the tick does leaves the policy running
      have hlast : Lasting s.session (tick E now s).2.session := tick_lasts (not_le.1 hlate)
      exact tidy_of_running (hlast.policy.trans hp)

/-- **A session that runs nothing is idle**, after every call, on every rig. -/
theorem call_tidy (h : Tidy s.session) (call : Call) : Tidy (call.act E s).2.session := by
  cases call with
  | start p now entropy => exact (start_tidy h p now entropy).after
  | stop => exact ((stop_idle h).mono (fun _ _ h => h.tidy) (fun _ _ h => h.tidy)).after
  | tick now => exact tick_tidy h now

end KeyHold.Session
