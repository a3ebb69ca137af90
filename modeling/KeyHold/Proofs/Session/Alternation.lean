/-
Presses and releases alternate.

When every key call is taken the hand of a session is what the effector holds, and a session is never stranded.

- `run_orderly`: **after every call** an idle session has nothing down and nothing pending; a running one holds exactly
  the key of its phase, or waits out a gap with nothing down; and the calls so far are presses each followed by its
  release, with the press of the key held at the end. No beginning of them has two keys down.
- `bench_maxSimultaneous`: on a sound bench the recorder never sees two keys down at once.
-/
import Mathlib.Tactic
import KeyHold.Session.Bench
import KeyHold.Proofs.Session.Grip

namespace KeyHold

variable {ω : Type}

namespace Session

open Act Tape

/-- presses and releases alternate, and the session knows what is down -/
structure Orderly (s : Scene (Taped ω)) : Prop where
  taken : AllTaken s.world.tape
  idle : s.session.policy = none →
    s.session.held = [] ∧ s.session.glitch = none ∧ s.session.armed = false ∧ asserted s.world.tape = []
  running : ∀ p, s.session.policy = some p →
    (∃ k, s.session.held = [k] ∧ s.session.glitch = none ∧ asserted s.world.tape = [k] ∧
      k = (p.phase s.session.phaseIndex).key) ∨
    (s.session.held = [] ∧ asserted s.world.tape = [] ∧ s.session.glitch.isSome ∧ s.session.armed = false)
  /-- the calls are presses each followed by its release, then the press of the key held -/
  word : ∃ ks : List String,
    s.world.tape.map move = ks.flatMap (fun k => [(.down, k), (.up, k)]) ++ s.session.held.map (.down, ·)
  /-- no two keys are ever down -/
  single : ∀ pre, pre <+: s.world.tape → (asserted pre).length ≤ 1
  /-- a key is pressed only when none is down -/
  pressed : ∀ pre k b, pre ++ [⟨.down, k, b⟩] <+: s.world.tape → asserted pre = []
  /-- a key is released only when it is down -/
  released : ∀ pre k b, pre ++ [⟨.up, k, b⟩] <+: s.world.tape → asserted pre = [k]

theorem Inv.orderly {c : EngineConfig} {s : Scene (Taped ω)} (h : Inv c s) (hc : c.Accepted)
    (ht : AllTaken s.world.tape) : Orderly s := by
  have hdown : asserted s.world.tape = s.session.held := h.grip.asserted_eq ht.not_faulted
  have hs : Settled s.session := (h.settled hc.splitInOrder).resolve_right ht.not_faulted
  refine ⟨ht, fun hp => ?_, fun p hp => ?_, h.grip.word ht.not_faulted, ?_, ?_, ?_⟩
  · obtain ⟨-, hh, hg, ha, -⟩ := h.coherent.idle hp
    exact ⟨hh, hg, ha, hdown.trans hh⟩
  · rcases hs with hi | ⟨q, hq⟩ | ⟨q, hq⟩
    · rw [hi.policy] at hp
      cases hp
    · obtain rfl : q = p := Option.some.inj (hq.policy.symm.trans hp)
      exact Or.inl ⟨_, hq.held, hq.glitch, hdown.trans hq.held, rfl⟩
    · exact Or.inr ⟨hq.held, hdown.trans hq.held, hq.glitch, hq.armed⟩
  · intro pre hpre
    obtain ⟨held, hg⟩ := h.grip.beginning hpre.choose_spec.symm
    rw [hg.asserted_eq (ht.of_prefix hpre).not_faulted]
    exact hg.length_le
  · rintro pre k b ⟨post, hpost⟩
    rw [List.append_assoc] at hpost
    rcases h.grip.before hpost.symm with ⟨-, hg⟩ | ⟨hd, -⟩
    · exact hg.asserted_eq (ht.of_prefix ⟨_, hpost⟩).not_faulted
    · cases hd
  · rintro pre k b ⟨post, hpost⟩
    rw [List.append_assoc] at hpost
    rcases h.grip.before hpost.symm with ⟨hd, -⟩ | ⟨-, hg⟩
    · cases hd
    · exact hg.asserted_eq (ht.of_prefix ⟨_, hpost⟩).not_faulted

/-- **Presses and releases alternate** on a rig whose key calls never fault: after every run of calls, at any stamps
and with any entropies, from any state of the generator. -/
theorem run_orderly {E : Setup ω} (hR : E.rig.Reliable) (hc : E.config.Accepted) (hN : E.SteadyWaits) (g : Generator)
    (w : ω) (calls : List Call) : Orderly (run E.taped calls (Scene.fresh g w)) := by
  have ht := run_keeps (E := E.taped) hR.keeps (s := Scene.fresh g w) allTaken_nil calls
  exact (run_inv hN (inv_fresh E.config g w) calls).orderly hc ht

/-- a start, a hold that ends, and a stop -/
theorem run_orderly_quiet :
    Orderly (run (Setup.taped ⟨{}, .mean, .quiet⟩) [.start .og 0 1, .tick 1000, .stop] (Scene.fresh .default ())) := by
  refine run_orderly Rig.quiet_reliable ?_ ?_ _ _ _
  · show EngineConfig.flaw? {} = none
    decide +kernel
  · exact Noise.mean_steady _ (by decide +kernel) (by decide +kernel) (by decide +kernel)

/-! ## On the bench -/

/-- the recorder has what is on tape -/
structure Recorded (w : Taped Bench) : Prop where
  sound : w.world.sound
  taken : AllTaken w.tape
  down : w.world.recorder.asserted = asserted w.tape
  history : w.world.recorder.history.toList.map (fun a => (a.direction, a.key)) = w.tape.map move
  most : ∃ pre, pre <+: w.tape ∧ w.world.recorder.maxSimultaneous ≤ (asserted pre).length

/-- a sound bench records each call -/
theorem call_sound {b : Bench} (hb : b.sound) (d : Direction) (k : String) :
    Bench.call d k b = (.ok (), (b.record k d).count d) := by
  rw [Bench.call, hb d]
  rfl

theorem recorded_keeps : Bench.rig.taped.Keeps Recorded := by
  refine ⟨fun k w hw => ?_, fun k w hw => ?_, fun us w hw => ⟨hw.1, hw.2, hw.3, hw.4, hw.5⟩,
    fun e w hw => ⟨hw.1, hw.2, hw.3, hw.4, hw.5⟩⟩
  · have hd : (w.world.recorder.keyDown w.world.clock.nowUs k).asserted = asserted (w.tape ++ [⟨.down, k, true⟩]) := by
      rw [asserted_snoc, ← hw.down]
      simp [Recorder.keyDown, effect]
    simp only [Rig.taped, Bench.rig, call_sound hw.sound]
    refine ⟨hw.sound, hw.taken.snoc _ _, hd, ?_, ?_⟩
    · simp [Bench.record, Bench.count, Recorder.keyDown, hw.history, move]
    · -- the maximum stays, or it is what is down now
      obtain ⟨pre, hpre, hm⟩ := hw.most
      have hmost : (w.world.recorder.keyDown w.world.clock.nowUs k).maxSimultaneous =
          max w.world.recorder.maxSimultaneous (asserted (w.tape ++ [⟨.down, k, true⟩])).length := by
        rw [← hd]
        rfl
      rcases le_total w.world.recorder.maxSimultaneous (asserted (w.tape ++ [⟨.down, k, true⟩])).length with h | h
      · exact ⟨_, List.prefix_refl _, (hmost.trans (max_eq_right h)).le⟩
      · exact ⟨pre, hpre.trans (List.prefix_append _ _), (hmost.trans (max_eq_left h)).le.trans hm⟩
  · have hd : (w.world.recorder.keyUp w.world.clock.nowUs k).asserted = asserted (w.tape ++ [⟨.up, k, true⟩]) := by
      rw [asserted_snoc, ← hw.down]
      rfl
    simp only [Rig.taped, Bench.rig, call_sound hw.sound]
    refine ⟨hw.sound, hw.taken.snoc _ _, hd, ?_, ?_⟩
    · simp [Bench.record, Bench.count, Recorder.keyUp, hw.history, move]
    · obtain ⟨pre, hpre, hm⟩ := hw.most
      exact ⟨pre, hpre.trans (List.prefix_append _ _), hm⟩

/-- **The recorder of a sound bench** has down what the session holds, and never had two keys down at once. -/
theorem bench_maxSimultaneous {E : Setup Bench} (hE : E.rig = Bench.rig) (hc : E.config.Accepted) (hN : E.SteadyWaits)
    (g : Generator) {b : Bench} (hb : b.sound) (hr : b.recorder = {}) (calls : List Call) :
    (run E calls ⟨{ generator := g }, b⟩).world.recorder.asserted = (run E calls ⟨{ generator := g }, b⟩).session.held ∧
      (run E calls ⟨{ generator := g }, b⟩).world.recorder.maxSimultaneous ≤ 1 := by
  have fresh : Recorded ⟨b, []⟩ :=
    ⟨hb, allTaken_nil, by rw [hr]; rfl, by rw [hr]; rfl, [], List.prefix_refl _, by rw [hr]; rfl⟩
  have hk : Recorded (run E.taped calls (Scene.fresh g b)).world :=
    run_keeps (E := E.taped) (by rw [Setup.taped, hE]; exact recorded_keeps) fresh calls
  have ho := (run_inv hN (inv_fresh E.config g b) calls).orderly hc hk.taken
  have ht : run E calls ⟨{ generator := g }, b⟩ = (run E.taped calls (Scene.fresh g b)).untaped :=
    (run_taped E calls (Scene.fresh g b)).symm
  have hh := (run_inv hN (inv_fresh E.config g b) calls).grip.asserted_eq hk.taken.not_faulted
  rw [ht]
  obtain ⟨pre, hpre, hm⟩ := hk.most
  exact ⟨hk.down.trans hh, hm.trans (ho.single pre hpre)⟩

end Session
end KeyHold
