/-
The holds of a report.

A history in which each press is followed by its release pairs each with the other, so there are half as many holds as
actions at most, whatever is left out as a bounce. The only thing that can go wrong is the division of a hold by a
thousand: it is one of doubles, and a hold may last for more microseconds than a double can count.

- `Paired history`: presses each followed by its release.
- `Overlong history`: a hold lasts for more microseconds than a double can count.
- `report_overlong`, `report_countable`: **the report** of a paired history is made unless one of its holds is overlong,
  and counts no more holds than there are releases.
-/
import Mathlib.Tactic
import KeyHold.Simulation.Basic
import KeyHold.Proofs.Effector.Pairing

namespace KeyHold

namespace Recorder

/-- presses each followed by its release -/
inductive Paired : List KeyAction → Prop
  | nil : Paired []
  | hold {downUs upUs : ℤ} {key : String} {rest : List KeyAction} (h : Paired rest) :
      Paired (⟨downUs, .down, key⟩ :: ⟨upUs, .up, key⟩ :: rest)

/-- a key is held for more microseconds than a double can count -/
def Overlong (history : List KeyAction) : Prop :=
  ∃ before downUs upUs key after, history = before ++ ⟨downUs, .down, key⟩ :: ⟨upUs, .up, key⟩ :: after ∧
    Decimal.ofInt? (upUs - downUs) = none

variable {history rest : List KeyAction} {downUs upUs : ℤ} {key : String} {minMs : Float}

theorem not_overlong_nil : ¬ Overlong [] := by
  rintro ⟨before, downUs, upUs, key, after, h, -⟩
  exact List.append_ne_nil_of_right_ne_nil before (List.cons_ne_nil _ _) h.symm

/-- a hold is overlong that begins a history, or one of the rest is -/
theorem overlong_cons : Overlong (⟨downUs, .down, key⟩ :: ⟨upUs, .up, key⟩ :: rest) ↔
    Decimal.ofInt? (upUs - downUs) = none ∨ Overlong rest := by
  constructor
  · rintro ⟨_ | ⟨a, _ | ⟨b, before⟩⟩, d, u, k, after, h, hnone⟩
    · simp only [List.nil_append, List.cons.injEq, KeyAction.mk.injEq] at h
      obtain ⟨⟨rfl, -, -⟩, ⟨rfl, -, -⟩, -⟩ := h
      exact Or.inl hnone
    · -- a release does not begin a hold
      simp at h
    · simp only [List.cons_append, List.cons.injEq] at h
      exact Or.inr ⟨before, d, u, k, after, h.2.2, hnone⟩
  · rintro (hnone | ⟨before, d, u, k, after, h, hnone⟩)
    · exact ⟨[], downUs, upUs, key, rest, rfl, hnone⟩
    · exact ⟨_ :: _ :: before, d, u, k, after, by rw [h]; rfl, hnone⟩

/-- a history is paired in which the keys go down and up in turn -/
theorem paired_of_word {keys : List String}
    (h : history.map (fun a => (a.direction, a.key)) = keys.flatMap fun k => [(.down, k), (.up, k)]) :
    Paired history := by
  induction keys generalizing history with
  | nil =>
    obtain rfl : history = [] := by simpa using h
    exact .nil
  | cons k keys ih =>
    match history, h with
    | ⟨_, d, j⟩ :: ⟨_, u, i⟩ :: rest, h =>
      simp only [List.map_cons, List.flatMap_cons, List.cons_append, List.cons.injEq, Prod.mk.injEq] at h
      obtain ⟨⟨rfl, rfl⟩, ⟨rfl, rfl⟩, hrest⟩ := h
      exact .hold (ih hrest)

/-! ## Pairing -/

/-- there are half as many holds as actions -/
theorem Paired.length_spans (h : Paired history) : (spans history).length = history.length / 2 := by
  induction h with
  | nil => rfl
  | hold h ih =>
    rw [spans_hold]
    simp only [List.length_cons]
    omega

/-- the holds are those of the presses with the releases that follow them -/
theorem Paired.overlong_iff (h : Paired history) : Overlong history ↔ ∃ s ∈ spans history, s.TooLong := by
  induction h with
  | nil => exact iff_of_false not_overlong_nil nofun
  | hold h ih =>
    rw [overlong_cons, ih, spans_hold, List.exists_mem_cons_iff]
    rfl

/-- **The holds of a paired history** cannot be told if one of them is overlong. -/
theorem holdDurations_overlong {r : Recorder} (h : Paired r.history.toList) (ho : Overlong r.history.toList) :
    r.holdDurations minMs = .error .beyondDoubles :=
  holdDurations_error (h.overlong_iff.1 ho) minMs

/-- **The holds of a paired history** are found if none of them is overlong, and are half as many as its actions at
most. -/
theorem holdDurations_countable {r : Recorder} (minMs : Float) (h : Paired r.history.toList)
    (ho : ¬ Overlong r.history.toList) :
    ∃ found : Holds, r.holdDurations minMs = .ok found ∧ found.total ≤ r.history.size / 2 ∧
      ∀ hold ∈ found, hold.2 ≠ [] := by
  have hcount : ∀ s ∈ spans r.history.toList, ¬ s.TooLong := fun s hs hlong => ho (h.overlong_iff.2 ⟨s, hs, hlong⟩)
  obtain ⟨timed, htimed⟩ := mapM_timed_ok hcount
  obtain ⟨found, hfound, hlists, htotal⟩ := holdDurations_ok htimed minMs
  refine ⟨found, hfound, ?_, fun hold hmem => ((hlists.mem hold.1 hold.2).1 hmem).2⟩
  calc found.total ≤ timed.length := htotal.trans_le (List.length_filter_le _ _)
    _ = r.history.size / 2 := by
      rw [← (forall₂_of_mapM htimed).length_eq, h.length_spans, Array.length_toList]

end Recorder

namespace HoldStats

theorem ofValues_ok {xs : List Float} (h : xs ≠ []) : ∃ stats, ofValues xs = .ok stats ∧ stats.count = xs.length := by
  cases xs with
  | nil => exact absurd rfl h
  | cons x xs => exact ⟨_, rfl, rfl⟩

/-- **Holds have statistics**, which count each of them. -/
theorem mapM_ok {holds : Recorder.Holds} (h : ∀ hold ∈ holds, hold.2 ≠ []) :
    ∃ stats, (holds.mapM fun (key, xs) => do return (key, ← ofValues xs) : Except Fault _) = .ok stats ∧
      (stats.map (·.2.count)).sum = holds.total := by
  induction holds with
  | nil => exact ⟨[], rfl, rfl⟩
  | cons hold holds ih =>
    obtain ⟨key, xs⟩ := hold
    obtain ⟨hfirst, hrest⟩ := List.forall_mem_cons.1 h
    obtain ⟨first, hvalues, hcount⟩ := ofValues_ok hfirst
    obtain ⟨stats, hmap, hsum⟩ := ih hrest
    refine ⟨(key, first) :: stats, ?_, ?_⟩
    · rw [List.mapM_cons, hmap]
      dsimp only
      rw [hvalues]
      rfl
    · simp only [List.map_cons, List.sum_cons, hsum, hcount, Recorder.Holds.total]
      push_cast
      rfl

end HoldStats

namespace Simulation

open Recorder

variable {p : Plan} {s : Scene Bench}

/-- no report is made of an overlong hold -/
theorem report_overlong (h : Paired s.world.recorder.history.toList) (ho : Overlong s.world.recorder.history.toList) :
    report p s = .error .beyondDoubles := by
  rw [report, holdDurations_overlong h ho]
  rfl

/-- **The report** of holds that can be counted -/
theorem report_countable (h : Paired s.world.recorder.history.toList)
    (ho : ¬ Overlong s.world.recorder.history.toList) :
    ∃ stats : List (String × HoldStats), report p s = .ok {
        mode := p.policy.name, seconds := p.seconds, stepMs := p.stepMs, seed := p.seed
        phases := s.session.stats.phases, bounces := s.session.stats.bounces, glitches := s.session.stats.glitches
        timedOut := s.session.stats.timeouts > 0, endedClean := s.world.recorder.asserted.isEmpty
        maxSimultaneous := s.world.recorder.maxSimultaneous, holds := stats } ∧
      (stats.map (·.2.count)).sum ≤ (s.world.recorder.history.size / 2 : ℕ) := by
  obtain ⟨found, hfound, htotal, hne⟩ := holdDurations_countable bounceFilterMs h ho
  obtain ⟨stats, hstats, hsum⟩ := HoldStats.mapM_ok hne
  refine ⟨stats, ?_, ?_⟩
  · rw [report, hfound]
    show ((found.mapM fun (key, xs) => do return (key, ← HoldStats.ofValues xs)) >>= _) = _
    rw [hstats]
    rfl
  · rw [hsum]
    exact_mod_cast htotal

end Simulation
end KeyHold
