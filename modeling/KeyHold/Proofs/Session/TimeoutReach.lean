/-
Which safety timeouts are reached.

The age of a session is a difference of two stamps, so it always reads as less than 2^32 ms. A timeout of 2^32 ms or more
is accepted like any other that is positive, but no age reads as that much, and the session that it should end runs on.

- `everyMs`: a tick for each millisecond after a time.
- `Since.ticks_late`: no ticks end a session whose timeout is 2^32 ms or more.
- `Since.ticks_few`, `Since.ticks_past`: what a tick for each of a number of milliseconds leaves of a session.
- `timeout_reached_iff`: **a timeout is reached exactly if it is less than 2^32 ms**.
- `late_runs_on`: the shortest timeout that is never reached.
-/
import Mathlib.Tactic
import KeyHold.Proofs.Session.Timeout

namespace KeyHold.Session

open Act Tape

variable {ω : Type} {E : Setup ω} {s : Scene (Taped ω)}

/-- a tick for each of the `n` milliseconds after a time -/
def everyMs (T0 : ℤ) (n : ℕ) : List Call := (List.range n).map fun i : ℕ => .tick (folded (T0 + (i + 1)))

theorem everyMs_add (T0 : ℤ) (m n : ℕ) : everyMs T0 (m + n) = everyMs T0 m ++ everyMs (T0 + m) n := by
  unfold everyMs
  rw [List.range_add, List.map_append, List.map_map]
  congr 1
  refine List.map_congr_left fun i _ => ?_
  dsimp only [Function.comp]
  push_cast
  ring_nf

theorem everyMs_eq (T0 : ℤ) (n : ℕ) :
    everyMs T0 n = ((List.range n).map fun i : ℕ => T0 + (i + 1)).map fun T => .tick (folded T) := by
  unfold everyMs
  rw [List.map_map]
  rfl

theorem elapsed_lt (now earlier : ℤ) : elapsed now earlier < 4294967296 := Int.emod_lt_of_pos _ (by norm_num)

theorem Since.active {T0 : ℤ} {p : Policy} (h : Since E.config T0 p s) : s.session.active = true := by
  apply active_iff.2
  rw [h.policy]
  intro hnone
  cases hnone

/-- no ticks end a session whose timeout is 2^32 ms or more -/
theorem Since.ticks_late {T0 : ℤ} {p : Policy} (hR : E.rig.Reliable) (hN : E.SteadyWaits) (h : Since E.config T0 p s)
    (hlate : 4294967296 ≤ E.config.safetyTimeoutMs) (times : List ℤ) :
    Since E.config T0 p (run E.taped (times.map fun T => .tick (folded T)) s) := by
  induction times generalizing s with
  | nil => exact h
  | cons T times ih =>
    have hlt : elapsed (folded T) (folded T0) < E.config.safetyTimeoutMs := (elapsed_lt _ _).trans_le hlate
    exact ih (h.step hR hN hlt)

/-- a tick for each of fewer milliseconds than the timeout has leaves a session running -/
theorem Since.ticks_few {T0 : ℤ} {p : Policy} (hR : E.rig.Reliable) (hc : E.config.Accepted) (hN : E.SteadyWaits)
    (h : Since E.config T0 p s) {n : ℕ} (hn : n < E.config.safetyTimeoutMs) :
    Since E.config T0 p (run E.taped (everyMs T0 n) s) := by
  rw [everyMs_eq]
  by_cases hlate : 4294967296 ≤ E.config.safetyTimeoutMs
  · exact h.ticks_late hR hN hlate _
  · have htimes : ∀ T ∈ (List.range n).map fun i : ℕ => T0 + (i + 1),
        T0 ≤ T ∧ T - T0 < 4294967296 ∧ T - T0 < E.config.safetyTimeoutMs := by
      intro T hT
      obtain ⟨i, hi, rfl⟩ := List.mem_map.1 hT
      have := List.mem_range.1 hi
      omega
    rcases ticks_since hR hc hN h _ fun T hT => ⟨(htimes T hT).1, (htimes T hT).2.1⟩ with ⟨-, hs⟩ | ⟨⟨T, hT, hle⟩, -⟩
    · exact hs
    · exact absurd (htimes T hT).2.2 (by omega)

/-- a tick for each of as many milliseconds as the timeout has ends a session, if they are fewer than 2^32 -/
theorem Since.ticks_full {T0 : ℤ} {p : Policy} (hR : E.rig.Reliable) (hc : E.config.Accepted) (hN : E.SteadyWaits)
    (h : Since E.config T0 p s) {n : ℕ} (hn : E.config.safetyTimeoutMs = n) (hlt : n < 4294967296) :
    Idle (run E.taped (everyMs T0 n) s).session := by
  have hpos := hc.timeout_pos
  have htimes : ∀ T ∈ (List.range n).map fun i : ℕ => T0 + (i + 1), T0 ≤ T ∧ T - T0 < 4294967296 := by
    intro T hT
    obtain ⟨i, hi, rfl⟩ := List.mem_map.1 hT
    have := List.mem_range.1 hi
    omega
  rw [everyMs_eq]
  rcases ticks_since hR hc hN h _ htimes with ⟨hall, -⟩ | ⟨-, hidle⟩
  · -- the last of the ticks comes with the timeout
    have hlast : T0 + ((n - 1 : ℕ) + 1) ∈ (List.range n).map fun i : ℕ => T0 + (i + 1) :=
      List.mem_map.2 ⟨n - 1, List.mem_range.2 (by omega), rfl⟩
    have := hall _ hlast
    omega
  · exact hidle

/-- and so do more of them, which find nothing running -/
theorem Since.ticks_past {T0 : ℤ} {p : Policy} (hR : E.rig.Reliable) (hc : E.config.Accepted) (hN : E.SteadyWaits)
    (h : Since E.config T0 p s) {n : ℕ} (hn : E.config.safetyTimeoutMs ≤ n)
    (hlt : E.config.safetyTimeoutMs < 4294967296) : Idle (run E.taped (everyMs T0 n) s).session := by
  obtain ⟨m, hm⟩ := Int.eq_ofNat_of_zero_le hc.timeout_pos.le
  obtain ⟨rest, rfl⟩ := Nat.exists_eq_add_of_le (show m ≤ n by omega)
  have hidle : Idle (run E.taped (everyMs T0 m) s).session := h.ticks_full hR hc hN hm (by omega)
  rw [everyMs_add, run, List.foldl_append, everyMs_eq (T0 + m)]
  show Idle (run E.taped _ (run E.taped (everyMs T0 m) s)).session
  rw [ticks_idle hidle.policy]
  exact hidle

/-- **A safety timeout is reached exactly if it is less than 2^32 ms.** On a rig whose key calls never fault, let a
session be started at any time, after any calls, and then ticked once for each millisecond. If its timeout is less than
2^32 ms it is idle, with nothing down, from the tick on that comes with the timeout, and active before; otherwise it is
active after any number of ticks. -/
theorem timeout_reached_iff (hR : E.rig.Reliable) (hc : E.config.Accepted) (hN : E.SteadyWaits) (g : Generator) (w : ω)
    (before : List Call) (p : Policy) (entropy T0 : ℤ) :
    let after (n : ℕ) := run E.taped (before ++ .start p (folded T0) entropy :: everyMs T0 n) (Scene.fresh g w)
    ((∃ n : ℕ, n ≤ E.config.safetyTimeoutMs ∧ Idle (after n).session) ↔ E.config.safetyTimeoutMs < 4294967296) ∧
      ∀ n : ℕ, (E.config.safetyTimeoutMs ≤ n ∧ E.config.safetyTimeoutMs < 4294967296 →
          Idle (after n).session ∧ asserted (after n).world.tape = []) ∧
        (n < E.config.safetyTimeoutMs ∨ 4294967296 ≤ E.config.safetyTimeoutMs → (after n).session.active = true) := by
  intro after
  have hstart : Since E.config T0 p
      (step E.taped (run E.taped before (Scene.fresh g w)) (.start p (folded T0) entropy)) :=
    start_since hR hN (run_inv hN (inv_fresh E.config g w) before)
      (run_keeps (E := E.taped) hR.keeps (s := Scene.fresh g w) allTaken_nil before) p T0 entropy
  have hafter : ∀ n, after n = run E.taped (everyMs T0 n)
      (step E.taped (run E.taped before (Scene.fresh g w)) (.start p (folded T0) entropy)) := by
    intro n
    simp only [after, run, List.foldl_append, List.foldl_cons]
  have hsilent : ∀ n, Idle (after n).session → asserted (after n).world.tape = [] := by
    intro n hidle
    have hinv : Inv E.config (after n) := run_inv hN (inv_fresh E.config g w) _
    have htaken : AllTaken (after n).world.tape :=
      run_keeps (E := E.taped) hR.keeps (s := Scene.fresh g w) allTaken_nil _
    rw [hinv.grip.asserted_eq htaken.not_faulted, hidle.held]
  have hidle : ∀ n : ℕ, E.config.safetyTimeoutMs ≤ n → E.config.safetyTimeoutMs < 4294967296 →
      Idle (after n).session := by
    intro n hn hlt
    rw [hafter]
    exact hstart.ticks_past hR hc hN hn hlt
  have hactive : ∀ n : ℕ, n < E.config.safetyTimeoutMs ∨ 4294967296 ≤ E.config.safetyTimeoutMs →
      (after n).session.active = true := by
    intro n hn
    have hs : Since E.config T0 p (after n) := by
      rw [hafter]
      rcases hn with hn | hlate
      · exact hstart.ticks_few hR hc hN hn
      · rw [everyMs_eq]
        exact hstart.ticks_late hR hN hlate _
    exact hs.active
  refine ⟨⟨?_, fun hlt => ?_⟩, fun n => ⟨fun h => ⟨hidle n h.1 h.2, hsilent n (hidle n h.1 h.2)⟩, hactive n⟩⟩
  · rintro ⟨n, -, h⟩
    by_contra hlate
    exact active_iff.1 (hactive n (Or.inr (not_lt.1 hlate))) h.policy
  · obtain ⟨m, hm⟩ := Int.eq_ofNat_of_zero_le hc.timeout_pos.le
    exact ⟨m, hm.ge, hidle m hm.le hlt⟩

/-- a session started 100 ms before the stamps wrap, and a tick for each of the 150000 ms of its timeout -/
theorem timeout_reached_wrap :
    let s := run (Setup.taped ⟨{}, .mean, .quiet⟩) (.start .og (folded 4294967196) 1 :: everyMs 4294967196 150000)
      (Scene.fresh .default ())
    Idle s.session ∧ asserted s.world.tape = [] := by
  obtain ⟨-, h⟩ := timeout_reached_iff (E := ⟨{}, .mean, .quiet⟩) Rig.quiet_reliable EngineConfig.accepted_default
    (Noise.mean_steady _ (by decide +kernel) (by decide +kernel) (by decide +kernel)) .default () [] .og 1 4294967196
  -- stated for any number of ticks, so that no one counts to it
  have hafter : ∀ n : ℕ, (150000 : ℤ) ≤ n →
      let s := run (Setup.taped ⟨{}, .mean, .quiet⟩) (.start .og (folded 4294967196) 1 :: everyMs 4294967196 n)
        (Scene.fresh .default ())
      Idle s.session ∧ asserted s.world.tape = [] := by
    intro n hn
    have hlt : (150000 : ℤ) < 4294967296 := by norm_num
    exact (h n).1 ⟨hn, hlt⟩
  exact hafter 150000 (by norm_num)

/-- the shortest timeout that is never reached -/
def late : EngineConfig := { safetyTimeoutMs := 4294967296 }

/-- **A timeout of 2^32 ms is accepted and never reached**: a session is active after as many ticks, one for each
millisecond, and after any other number of them. -/
theorem late_runs_on : late.Accepted ∧ ∀ n : ℕ,
    (run (Setup.taped ⟨late, .mean, .quiet⟩) (.start .og (folded 0) 1 :: everyMs 0 n)
      (Scene.fresh .default ())).session.active = true := by
  have hN : Setup.SteadyWaits ⟨late, .mean, (.quiet : Rig Unit)⟩ :=
    Noise.mean_steady _ (by decide +kernel) (by decide +kernel) (by decide +kernel)
  refine ⟨by show EngineConfig.flaw? _ = none; decide +kernel, fun n => ?_⟩
  have hstart : Since late 0 .og (step (Setup.taped ⟨late, .mean, .quiet⟩) (Scene.fresh .default ())
      (.start .og (folded 0) 1)) :=
    start_since (E := ⟨late, .mean, .quiet⟩) Rig.quiet_reliable hN (inv_fresh late .default ()) allTaken_nil .og 0 1
  have hs := hstart.ticks_late (E := ⟨late, .mean, .quiet⟩) Rig.quiet_reliable hN le_rfl
    ((List.range n).map fun i : ℕ => 0 + (i + 1))
  rw [← everyMs_eq] at hs
  exact hs.active

end KeyHold.Session
