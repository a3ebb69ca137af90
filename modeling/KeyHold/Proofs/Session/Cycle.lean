/-
The cycle of the phases.

A session without glitches goes through the table of its policy and around again. Each tick that is not early ends the
hold that goes on, by a release that may bounce, and begins the next one; a bounce calls the key of its own hold and
does not count as a phase. So the key calls of a session are those of its holds in the order of the cycle, and index,
key and hold stay in step whatever the lengths of the table, of the run and of the stalls in it.

- `holds p flags`: the calls of the first holds of `p`, each of which bounced or did not.
- `InHold`, `Ended`: a session in the hold after these, and one that the timeout has ended after them.
- `InHold.tick`: what a tick makes of a session in a hold. `run_phaseOrder`: **a start and any ticks**.
-/
import Mathlib.Tactic
import KeyHold.Proofs.Session.Switch

namespace KeyHold

variable {ω : Type}

namespace Session

open Act Tape

/-! ## Holds -/

/-- the calls of a hold that is over: its press, its release, and the bounce if there was one -/
def holdCalls (key : String) (bounced : Bool) : Tape :=
  ⟨.down, key, true⟩ :: if bounced then [⟨.up, key, true⟩, ⟨.down, key, true⟩, ⟨.up, key, true⟩] else [⟨.up, key, true⟩]

/-- the calls of the first holds of a policy, around its cycle; of each it is given whether it bounced -/
def holds (p : Policy) (bounced : List Bool) : Tape :=
  bounced.zipIdx.flatMap fun b => holdCalls (p.phase b.2).key b.1

theorem holds_snoc (p : Policy) (bounced : List Bool) (b : Bool) :
    holds p (bounced ++ [b]) = holds p bounced ++ holdCalls (p.phase bounced.length).key b := by
  simp [holds, List.zipIdx_append]

/-- the calls of a release, with the press before it, are those of a hold -/
theorem Released.holdCalls {k : String} {n : ℕ} {new : Tape} (h : Released k n new) :
    ∃ b : Bool, n = [b].count true ∧ ⟨.down, k, true⟩ :: new = holdCalls k b := by
  cases h with
  | plain => exact ⟨false, rfl, rfl⟩
  | bounced => exact ⟨true, rfl, rfl⟩

/-- the hold was drawn from a phase, and after it whether it will be split; nothing has been drawn since -/
def Drawn (E : Setup ω) (phase : Phase) (x : Session) : Prop :=
  ∃ g, x.target = Normal.atLeast E.config.minHoldMs (E.noise.normal phase.mean phase.stddev g).1 ∧
    (x.armed, x.generator) = Generator.oneIn E.config.glitchOneIn (E.noise.normal phase.mean phase.stddev g).2

theorem begun_drawn (E : Setup ω) (p : Policy) (x : Session) (now : ℤ) (g : Generator) :
    Drawn E (p.phase x.phaseIndex) (begun E p x now g) := ⟨g, rfl, rfl⟩

/-- a hold that is drawn where there are no glitches is not split -/
theorem Drawn.unarmed {E : Setup ω} {phase : Phase} {x : Session} (h : Drawn E phase x)
    (hg : E.config.glitchOneIn ≤ 0) : x.armed = false := by
  obtain ⟨g, -, hd⟩ := h
  rw [Generator.oneIn_never hg] at hd
  exact congrArg Prod.fst hd

/-! ## Sessions in the cycle -/

/-- the holds that are counted are over, and the one after them goes on; before them were the calls `base` and what
`st` counts -/
structure InHold (E : Setup ω) (p : Policy) (base : Tape) (st : Stats) (bounced : List Bool) (s : Scene (Taped ω)) :
    Prop where
  holding : Holding p s.session
  index : s.session.phaseIndex = bounced.length % p.length
  drawn : Drawn E (p.phase bounced.length) s.session
  calls : s.world.tape = base ++ (holds p bounced ++ [⟨.down, (p.phase bounced.length).key, true⟩])
  stats : s.session.stats =
    { st with phases := st.phases + bounced.length, bounces := st.bounces + bounced.count true }

/-- the timeout has come in the last of these holds -/
structure Ended (p : Policy) (base : Tape) (st : Stats) (bounced : List Bool) (s : Scene (Taped ω)) : Prop where
  idle : Idle s.session
  last : ∃ m, bounced.length = m + 1 ∧ s.session.phaseIndex = m % p.length ∧ s.session.stats =
    { st with phases := st.phases + m, bounces := st.bounces + bounced.count true, timeouts := st.timeouts + 1 }
  calls : s.world.tape = base ++ holds p bounced

variable {E : Setup ω} {modes : List Policy} {p : Policy} {base : Tape} {st : Stats} {bounced : List Bool}
  {s t : Scene (Taped ω)}

/-- the press of a hold that goes on, and its release, make a hold that is over -/
theorem holds_closed {b : Bool} {new : Tape}
    (hb : ⟨.down, (p.phase bounced.length).key, true⟩ :: new = holdCalls (p.phase bounced.length).key b) :
    base ++ (holds p bounced ++ [⟨.down, (p.phase bounced.length).key, true⟩]) ++ new =
      base ++ holds p (bounced ++ [b]) := by
  rw [holds_snoc, ← hb]
  simp

/-- the key that is held is that of the phase which the holds have come to -/
theorem InHold.key_eq (h : InHold E p base st bounced s) :
    (p.phase s.session.phaseIndex).key = (p.phase bounced.length).key := by
  rw [h.index, p.phase_mod]

theorem InHold.phases_eq (h : InHold E p base st bounced s) :
    s.session.stats.phases = st.phases + bounced.length := by
  rw [h.stats]

/-- the timeout comes in a hold -/
theorem InHold.timedOut (h : InHold E p base st bounced s) {n : ℕ} {g : Generator} {new : Tape} {v : ω}
    (hr : Released (p.phase s.session.phaseIndex).key n new) :
    ∃ b, Ended p base st (bounced ++ [b])
      ⟨stopped { s.session with stats.timeouts := s.session.stats.timeouts + 1 } n g, v, s.world.tape ++ new⟩ := by
  rw [h.key_eq] at hr
  obtain ⟨b, hn, hb⟩ := hr.holdCalls
  refine ⟨b, idle_idled _, ⟨bounced.length, by simp, h.index, ?_⟩, ?_⟩
  · simp [stopped, idled, h.stats, List.count_append, hn, add_assoc]
  · simp only [h.calls]
    exact holds_closed hb

/-- a hold is over, and the next one begins -/
theorem InHold.advanced (h : InHold E p base st bounced s) {n : ℕ} {g : Generator} {new : Tape} {v : ω} {now : ℤ}
    (hr : Released (p.phase s.session.phaseIndex).key n new) :
    ∃ b, InHold E p base st (bounced ++ [b])
      ⟨begun E p (onward p (letGo s.session (p.phase s.session.phaseIndex).key n g)) now g,
        v, s.world.tape ++ (new ++ [⟨.down, (p.phase (p.phaseAfter s.session.phaseIndex)).key, true⟩])⟩ := by
  rw [h.key_eq] at hr
  obtain ⟨b, hn, hb⟩ := hr.holdCalls
  have hlen : (bounced ++ [b]).length = bounced.length + 1 := by simp
  have hnext : p.phaseAfter s.session.phaseIndex = (bounced ++ [b]).length % p.length := by
    rw [h.index, p.phaseAfter_mod, hlen]
  have hphase : p.phase (p.phaseAfter s.session.phaseIndex) = p.phase (bounced ++ [b]).length := by
    rw [hnext, p.phase_mod]
  refine ⟨b, ⟨h.holding.policy, rfl, rfl⟩, hnext, ?_, ?_, ?_⟩
  · rw [← hphase]
    exact begun_drawn E p _ now g
  · simp only [h.calls, ← hphase]
    rw [← List.append_assoc _ new, holds_closed hb, List.append_assoc]
  · simp [begun, onward, letGo, h.stats, List.count_append, hn, add_assoc]

/-- a tick leaves a session in its hold, or in the next one, or ends it -/
theorem InHold.tick (hg : E.config.glitchOneIn ≤ 0) (h : InHold E p base st bounced s) {now : ℤ} {new : Tape}
    (hmove : Move E s.session (.tick now) t.session new) (htape : t.world.tape = s.world.tape ++ new) :
    InHold E p base st bounced t ∨ ∃ b, InHold E p base st (bounced ++ [b]) t ∨ Ended p base st (bounced ++ [b]) t := by
  obtain ⟨y, v, tape⟩ := t
  obtain rfl : tape = s.world.tape ++ new := htape
  have hx : Holding p s.session := h.holding
  rcases hmove with he | ht
  · left
    rw [List.append_nil]
    exact ⟨h.holding, h.index, h.drawn, h.calls, h.stats⟩
  · right
    cases ht with
    | timedOut running late calls =>
      rw [hx.held] at calls
      cases calls with
      | key hr =>
        obtain ⟨b, hend⟩ := h.timedOut hr
        exact ⟨b, Or.inr hend⟩
    | parted holding inTime due armed =>
      rw [h.drawn.unarmed hg] at armed
      cases armed
    | advanced holding inTime due unarmed calls =>
      obtain rfl := Option.some.inj (holding.policy.symm.trans hx.policy)
      obtain ⟨b, hnext⟩ := h.advanced calls
      exact ⟨b, Or.inl hnext⟩
    | skipped waiting => exact absurd waiting hx.not_waiting
    | resumed waiting => exact absurd waiting hx.not_waiting

/-! ## Runs -/

/-- nothing comes of ticks once a session has ended -/
theorem Ended.ticks (h : Ended p base st bounced s) (times : List ℤ) :
    run E.taped (times.map fun now => .tick now) s = s :=
  run_early fun _ _ => Or.inl h.idle.policy

theorem InHold.ticks (hR : E.rig.Reliable) (hc : E.config.Accepted) (hN : E.SteadySamples modes)
    (hg : E.config.glitchOneIn ≤ 0) (hs : Smooth modes s) (h : InHold E p base st bounced s) (times : List ℤ) :
    ∃ bounced', InHold E p base st bounced' (run E.taped (times.map fun now => .tick now) s) ∨
      Ended p base st bounced' (run E.taped (times.map fun now => .tick now) s) := by
  induction times generalizing s bounced with
  | nil => exact ⟨bounced, Or.inl h⟩
  | cons now times ih =>
    obtain ⟨-, hsmooth, new, hmove, htape⟩ := step_moves hR hc hN hs (show Call.Of modes (.tick now) from trivial)
    rw [List.map_cons, run, List.foldl_cons]
    rcases h.tick hg hmove htape with hin | ⟨b, hin | hend⟩
    · exact ih hsmooth hin
    · exact ih hsmooth hin
    · exact ⟨bounced ++ [b], Or.inr (by rw [← run, hend.ticks]; exact hend)⟩

/-- a session that still runs is in the hold after as many as phases have begun since -/
theorem inHold_of_running {m : ℕ} (h : InHold E p base st bounced t ∨ Ended p base st bounced t)
    (hp : t.session.policy.isSome) (hm : t.session.stats.phases = st.phases + m) :
    bounced.length = m ∧ InHold E p base st bounced t := by
  rcases h with hin | hend
  · have hphases := hin.phases_eq
    exact ⟨by omega, hin⟩
  · rw [hend.idle.policy] at hp
    cases hp

/-- a start is in the hold of the first phase -/
theorem Move.inHold {now entropy : ℤ} {new : Tape} (hmove : Move E s.session (.start p now entropy) t.session new)
    (htape : t.world.tape = s.world.tape ++ new) :
    ∃ n calls, LetGo s.session.held n calls ∧ InHold E p (s.world.tape ++ calls) t.session.stats [] t := by
  obtain ⟨n, g, calls, hcalls, hbegun, rfl⟩ := hmove.started
  refine ⟨n, calls, hcalls, ?_, ?_, ?_, ?_, by simp⟩
  · rw [hbegun]
    exact (begun_atFirst n now g).holding
  · rw [hbegun]
    exact (Nat.zero_mod _).symm
  · rw [hbegun]
    exact begun_drawn E p (opened p s.session now n) now g
  · rw [htape]
    simp [holds]

/-- **The order of the phases.** Let a policy be started, after any calls, and then only be ticked, at any stamps, on a
rig whose key calls never fault, with finite samples and without glitches. Once what was held before is let go, the key
calls are those of the holds of its phases in turn, of which the one at `i` is that of the table at `i` modulo its
length; each hold ends with a bounce or without one. While the session runs, index and key are those of the phase that
the holds have come to, from which alone its hold was drawn. -/
theorem run_phaseOrder (hR : E.rig.Reliable) (hc : E.config.Accepted) (hN : E.SteadySamples modes)
    (hg : E.config.glitchOneIn ≤ 0) (g : Generator) (w : ω) (before : List Call) (hm : ∀ call ∈ before, call.Of modes)
    (p : Policy) (hp : p ∈ modes) (now entropy : ℤ) (times : List ℤ) :
    let s := run E.taped before (Scene.fresh g w)
    let first := step E.taped s (.start p now entropy)
    let t := run E.taped (times.map fun now => .tick now) first
    (∀ i : ℕ, p.phases[i % p.length]? = some (p.phase i)) ∧
      ∃ n calls bounced, LetGo s.session.held n calls ∧
        (InHold E p (s.world.tape ++ calls) first.session.stats bounced t ∨
          Ended p (s.world.tape ++ calls) first.session.stats bounced t) := by
  intro s first t
  have h : Smooth modes s := run_smooth hR hc hN (smooth_fresh g w) hm
  obtain ⟨-, hsmooth, new, hmove, htape⟩ := step_moves hR hc hN h (show Call.Of modes (.start p now entropy) from hp)
  obtain ⟨n, calls, hcalls, hfirst⟩ := hmove.inHold htape
  obtain ⟨bounced, ht⟩ := hfirst.ticks hR hc hN hg hsmooth times
  exact ⟨p.getElem?_phase, n, calls, bounced, hcalls, ht⟩

/-- a policy in whose table a key comes twice -/
def threePhases : Policy := { name := .str "m", phases := [⟨"a", 60, 0⟩, ⟨"b", 70, 0⟩, ⟨"a", 80, 0⟩] }

/-- a switch to three phases, and ticks through their table and into it again -/
theorem run_phaseOrder_again :
    let s := run (plain 0).taped [.start .og 0 1] (Scene.fresh .default ())
    let first := step (plain 0).taped s (.start threePhases 500 1)
    let t := run (plain 0).taped ([560, 630, 710, 770].map fun now => .tick now) first
    ∃ n calls bounced, LetGo s.session.held n calls ∧ bounced.length = 4 ∧
      InHold (plain 0) threePhases (s.world.tape ++ calls) first.session.stats bounced t := by
  have hN : (plain 0).SteadySamples (threePhases :: Policy.builtin) := plain_samples 0 _ (by decide +kernel)
  obtain ⟨-, n, calls, bounced, hcalls, ht⟩ := run_phaseOrder (E := plain 0) Rig.quiet_reliable (plain_accepted 0) hN
    le_rfl .default () [.start .og 0 1] (by simp [Call.Of, Policy.builtin]) threePhases (by simp) 500 1
    [560, 630, 710, 770]
  obtain ⟨hlength, hin⟩ := inHold_of_running ht (m := 4) (by decide +kernel) (by decide +kernel)
  exact ⟨n, calls, bounced, hcalls, hlength, hin⟩

end Session
end KeyHold
