/-
Keys that a stop does not release.

A release drops its key from the session's list before the effector has taken the call. If the effector then faults in
a tick, the key stays down and no later stop knows of it: a stop releases what is listed, no more.

- `stop_releases_iff`: **what a stop leaves**: if every call that a stop or a forced stop makes is taken, it returns,
  and nothing is down after it exactly if every key whose last release failed was listed as held.
- `leak`: a session is started, the release of its first key fails in a tick, and the key outlives the stop.
-/
import Mathlib.Tactic
import KeyHold.Session.Bench
import KeyHold.Proofs.Driver.Operation

namespace KeyHold

variable {ω : Type}

namespace Session

open Act Tape

/-- after all that is held was let go, a key is stuck if it was before and was not held -/
theorem LetGo.stuck {held : List String} {n : ℕ} {new : Tape} (h : LetGo held n new) (t : Tape) (k : String) :
    Stuck k (t ++ new) ↔ Stuck k t ∧ k ∉ held := by
  cases h with
  | nothing => simp
  | @key j _ _ h =>
    have hj : (⟨.up, j, true⟩ : Attempt) ≠ ⟨.up, k, true⟩ ↔ k ∉ [j] := by simp [eq_comm]
    cases h with
    | plain =>
      rw [stuck_snoc, hj]
      simp
    | bounced =>
      rw [show t ++ [⟨.up, j, true⟩, ⟨.down, j, true⟩, ⟨.up, j, true⟩] =
        t ++ [⟨.up, j, true⟩] ++ [⟨.down, j, true⟩] ++ [⟨.up, j, true⟩] by simp]
      rw [stuck_snoc, stuck_snoc, stuck_snoc, hj]
      simp only [Attempt.mk.injEq]
      simp

/-- what a stop adds to the tape -/
theorem stop_tape {E : Setup ω} {c : EngineConfig} {s : Scene (Taped ω)} (hN : E.SteadyWaits) (h : Inv c s) :
    Ends (stop E.taped) s (fun _ t => ∃ n new, LetGo s.session.held n new ∧ t.world.tape = s.world.tape ++ new)
      (fun _ t => ∃ k n new, Cut k n new ∧ t.world.tape = s.world.tape ++ new) := by
  refine stop_ends hN h.held_length_le (fun hp => ?_) (fun n g v new hn => ?_) (fun e k n g v new _ hc => ?_)
  · refine ⟨0, [], ?_, by simp⟩
    rw [(h.coherent.idle hp).held]
    exact .nothing
  · exact ⟨n, new, hn, rfl⟩
  · exact ⟨k, n, new, hc, rfl⟩

end Session

namespace Driver

open Act Tape Session

/-- what a stop adds to the tape, forced or not -/
theorem stopping_tape {D : Driver ω} {c : EngineConfig} {s : Scene (Taped ω)} (hN : D.setup.SteadyWaits) (h : Inv c s)
    {last : Operation} (hl : last = .session .stop ∨ last = .driver .forceStop) :
    Ends (D.taped.operate last) s
      (fun _ t => ∃ n new, LetGo s.session.held n new ∧ t.world.tape = s.world.tape ++ new)
      (fun _ t => ∃ k n new, Cut k n new ∧ t.world.tape = s.world.tape ++ new) := by
  rcases hl with rfl | rfl
  · exact stop_tape (E := D.setup) hN h
  · show Ends (forceStop D.taped) s _ _
    rw [forceStop, ends_bind, ends_session]
    dsimp only
    rw [ends_bind]
    exact (stop_tape (E := D.setup) hN h).mono (fun _ t ht => notify_ends fun v => ht) (fun _ _ ht => ht)

/-- what a stop leaves of a session in order, if its calls are taken -/
theorem stopping_releases {D : Driver ω} {c : EngineConfig} {s : Scene (Taped ω)} (hN : D.setup.SteadyWaits)
    (h : Inv c s) {last : Operation} (hl : last = .session .stop ∨ last = .driver .forceStop)
    (ht : AllTaken ((D.taped.operate last s).2.world.tape.drop s.world.tape.length)) :
    (D.taped.operate last s).1 = .ok () ∧ (asserted (D.taped.operate last s).2.world.tape = [] ↔
      ∀ k, Stuck k s.world.tape → k ∈ s.session.held) := by
  have hr := stopping_tape hN h hl
  unfold Ends at hr
  rcases he : D.taped.operate last s with ⟨e | _, t⟩
  · -- a fault comes with a call that was not taken
    rw [he] at hr ht
    obtain ⟨k, n, new, hc, hnew⟩ := hr
    rw [hnew, List.drop_left] at ht
    exact absurd (hc.faulted []) ht.not_faulted
  · rw [he] at hr
    obtain ⟨n, new, hn, hnew⟩ := hr
    refine ⟨rfl, ?_⟩
    rw [hnew, List.eq_nil_iff_forall_not_mem]
    refine forall_congr' fun k => ?_
    rw [(hn.grip h.grip).mem_asserted, hn.stuck]
    simp

/-- **What a stop leaves.** However a session came about, whichever key calls faulted in it: if every call made by a
stop of it is taken, the stop returns, and nothing is down exactly if every key whose last release failed was held. -/
theorem stop_releases_iff {D : Driver ω} (hN : D.setup.SteadyWaits) (g : Generator) (w : ω) (ops : List Operation)
    {last : Operation} (hl : last = .session .stop ∨ last = .driver .forceStop)
    (ht : AllTaken ((D.taped.operate last (D.taped.operations ops (Scene.fresh g w))).2.world.tape.drop
      (D.taped.operations ops (Scene.fresh g w)).world.tape.length)) :
    (D.taped.operate last (D.taped.operations ops (Scene.fresh g w))).1 = .ok () ∧
      (asserted (D.taped.operate last (D.taped.operations ops (Scene.fresh g w))).2.world.tape = [] ↔
        ∀ k, Stuck k (D.taped.operations ops (Scene.fresh g w)).world.tape →
          k ∈ (D.taped.operations ops (Scene.fresh g w)).session.held) :=
  stopping_releases hN (run_inv hN (inv_fresh D.config g w) ops) hl ht

/-- a driver on a bench, without noise, bounces and glitches -/
def plain : Driver Bench :=
  ⟨.builtin, { bounceOneIn := 0, glitchOneIn := 0 }, .mean, Bench.hostRig⟩

/-- a hold that a forced stop ends -/
theorem stop_releases_plain :
    let s := plain.taped.operations [.driver (.toggle (.str "og") (some 0))] (Scene.fresh .default {})
    let r := plain.taped.operate (.driver .forceStop) s
    s.session.held = ["up"] ∧ r.1 = .ok () ∧
      (asserted r.2.world.tape = [] ↔ ∀ k, Stuck k s.world.tape → k ∈ s.session.held) := by
  refine ⟨by decide +kernel, stop_releases_iff (D := plain) ?_ _ _ _ (Or.inr rfl) (by decide +kernel)⟩
  exact Noise.mean_steady _ (by decide +kernel) (by decide +kernel) (by decide +kernel)

/-- a session on a bench where the first release fails, after the end of its first hold -/
def cutShort : Scene (Taped Bench) :=
  plain.taped.operations [.session (.start .og 0 0), .session (.tick 900)]
    (Scene.fresh .default { faulty := fun d n => d = .up && n == 0 })

/-- **A stop can leave a key down** though all its calls are taken: the session that runs after the failed release
holds nothing, so neither a stop nor a forced stop releases anything. -/
theorem stop_leaks :
    cutShort.session.active = true ∧ cutShort.world.tape = [⟨.down, "up", true⟩, ⟨.up, "up", false⟩] ∧
      ∀ last ∈ [Operation.session .stop, .driver .forceStop],
        (plain.taped.operate last cutShort).1.isOk = true ∧
        AllTaken ((plain.taped.operate last cutShort).2.world.tape.drop cutShort.world.tape.length) ∧
        asserted (plain.taped.operate last cutShort).2.world.tape = ["up"] := by
  refine ⟨by decide +kernel, by decide +kernel, fun last hl => ?_⟩
  rcases List.mem_pair.1 hl with rfl | rfl <;> decide +kernel

end Driver
end KeyHold
