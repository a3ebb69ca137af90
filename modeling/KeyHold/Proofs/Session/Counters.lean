/-
What the counters say of the key calls.

Five counters are raised in five places. A key goes down where a phase begins, where a hold is resumed after a gap, and
in a bounce; so the presses that were taken lie between two sums of counters, and the releases follow from the keys
held.

- `Accounted starts downs ups x`: the counters of `x`, after so many starts, presses and releases. A gap that is pending
  stands for a press that may still come, an armed hold for a gap that may, and a session that runs for a timeout.
- `Move.accounted`: **each move** keeps the account.
- `run_accounted`: **every run** does.
-/
import Mathlib.Tactic
import KeyHold.Proofs.Session.ScanRate

namespace KeyHold

variable {ω : Type}

namespace Tape

/-- the number of calls of a direction that were taken -/
def taken (d : Direction) (t : Tape) : ℕ := t.countP fun a => a.direction = d ∧ a.taken = true

theorem taken_append (d : Direction) (t new : Tape) : taken d (t ++ new) = taken d t + taken d new :=
  List.countP_append

/-- a press that was taken, and nothing else, is one more down -/
theorem taken_press (t : Tape) (k : String) :
    taken .down (t ++ [⟨.down, k, true⟩]) = taken .down t + 1 ∧ taken .up (t ++ [⟨.down, k, true⟩]) = taken .up t := by
  rw [taken_append, taken_append]
  exact ⟨rfl, rfl⟩

/-- each call that is taken has one direction or the other -/
theorem taken_add {tape : Tape} (h : AllTaken tape) : taken .down tape + taken .up tape = tape.length := by
  induction tape with
  | nil => rfl
  | cons a tape ih =>
    obtain ⟨hfirst, hrest⟩ := List.forall_mem_cons.1 h
    obtain ⟨d, k, b⟩ := a
    obtain rfl : b = true := hfirst
    have hlength := ih hrest
    unfold taken at hlength ⊢
    rw [List.countP_cons, List.countP_cons, List.length_cons, ← hlength]
    cases d <;> simp <;> omega

end Tape

namespace Session

open Act Tape

/-- how many starts a call counts as -/
def Call.starts : Call → ℕ
  | .start _ _ _ => 1
  | _ => 0

/-- a release is one call up more than bounces, of which there is one at most -/
theorem Released.taken {k : String} {n : ℕ} {new : Tape} (h : Released k n new) :
    Tape.taken .down new = n ∧ Tape.taken .up new = n + 1 ∧ n ≤ 1 := by
  cases h <;> exact ⟨rfl, rfl, by omega⟩

theorem LetGo.taken {held : List String} {n : ℕ} {new : Tape} (h : LetGo held n new) :
    Tape.taken .down new = n ∧ Tape.taken .up new = n + held.length ∧ n ≤ held.length := by
  cases h with
  | nothing => exact ⟨rfl, rfl, le_rfl⟩
  | key hr => exact hr.taken

/-- the counters of `x` after so many starts, presses and releases -/
structure Accounted (starts downs ups : ℕ) (x : Session) : Prop where
  held : downs = ups + x.held.length
  /-- a press begins a phase or a bounce, or resumes a hold after a gap; a pending gap may still lead to one -/
  most : downs + x.glitch.toList.length ≤ x.stats.phases + x.stats.bounces + x.stats.glitches
  least : x.stats.phases + x.stats.bounces ≤ downs
  /-- a bounce is the second of two releases -/
  bounced : 2 * x.stats.bounces ≤ ups
  /-- a phase leads to one gap at most, and an armed hold to the next -/
  split : x.stats.glitches + x.armed.toNat ≤ x.stats.phases
  sessions : x.stats.sessions = starts
  started : x.stats.sessions ≤ x.stats.phases
  /-- a session times out once at most, and one that runs has not yet -/
  ended : x.stats.timeouts + x.policy.toList.length ≤ x.stats.sessions

variable {E : Setup ω} {starts downs ups : ℕ} {x y : Session} {now : ℤ} {new : Tape}

theorem accounted_fresh (g : Generator) : Accounted 0 0 0 { generator := g } :=
  ⟨rfl, le_rfl, le_rfl, le_rfl, le_rfl, rfl, le_rfl, le_rfl⟩

/-- the account after a stop, where `m` timeouts have been counted by then -/
theorem Accounted.stopped (h : Accounted starts downs ups x) {n m : ℕ} (g : Generator) (hl : LetGo x.held n new)
    (hm : m ≤ x.stats.sessions) :
    Accounted starts (downs + Tape.taken .down new) (ups + Tape.taken .up new)
      (stopped { x with stats.timeouts := m } n g) := by
  obtain ⟨hdown, hup, hn⟩ := hl.taken
  obtain ⟨hheld, hmost, hleast, hbounced, hsplit, hsessions, hstarted, -⟩ := h
  rw [hdown, hup]
  constructor <;>
    simp only [Session.stopped, idled, List.length_nil, Option.toList_none, Bool.toNat_false] <;> omega

/-- the account after the release of the key that is held -/
theorem Accounted.letGo (h : Accounted starts downs ups x) {k : String} (hk : x.held = [k]) {n : ℕ} (g : Generator)
    (hr : Released k n new) :
    Accounted starts (downs + Tape.taken .down new) (ups + Tape.taken .up new) (letGo x k n g) := by
  obtain ⟨hdown, hup, hn⟩ := hr.taken
  obtain ⟨hheld, hmost, hleast, hbounced, hsplit, hsessions, hstarted, hended⟩ := h
  rw [hk, List.length_singleton] at hheld
  rw [hdown, hup]
  constructor <;> simp only [Session.letGo, hk, List.erase_cons_head, List.length_nil] <;> omega

/-- the account after the press that begins a phase, with nothing in hand and no gap to come -/
theorem Accounted.begun (h : Accounted starts downs ups x) (hh : x.held = []) (ha : x.armed = false) (p : Policy)
    (g : Generator) : Accounted starts (downs + 1) ups (begun E p x now g) := by
  obtain ⟨hheld, hmost, hleast, hbounced, hsplit, hsessions, hstarted, hended⟩ := h
  have harmed := Bool.toNat_le (Session.begun E p x now g).armed
  rw [hh, List.length_nil] at hheld
  rw [ha, Bool.toNat_false] at hsplit
  constructor
  case split =>
    show x.stats.glitches + (Session.begun E p x now g).armed.toNat ≤ x.stats.phases + 1
    omega
  all_goals
    simp only [Session.begun, List.length_singleton, Option.toList_none, List.length_nil]
    omega

theorem Accounted.onward (h : Accounted starts downs ups x) (p : Policy) : Accounted starts downs ups (onward p x) :=
  ⟨h.held, h.most, h.least, h.bounced, h.split, h.sessions, h.started, h.ended⟩

theorem letGo_held {k : String} (hk : x.held = [k]) (n : ℕ) (g : Generator) : (letGo x k n g).held = [] := by
  rw [letGo, hk, List.erase_cons_head]

theorem Transition.accounted (h : Transition E now x y new) (ha : Accounted starts downs ups x) :
    Accounted starts (downs + Tape.taken .down new) (ups + Tape.taken .up new) y := by
  cases h with
  | timedOut running late calls =>
    -- the session that runs is one of those that had not timed out
    have hended := ha.ended
    rw [running, Option.toList_some, List.length_singleton] at hended
    exact ha.stopped _ calls hended
  | @parted p n pct g new holding inTime due armed calls share =>
    -- the gap that was to come of the armed hold is pending
    have hnone : (letGo x (p.phase x.phaseIndex).key n g).glitch.toList.length = 0 := by
      rw [letGo, holding.glitch]
      rfl
    have harmed : (letGo x (p.phase x.phaseIndex).key n g).armed.toNat = 1 := by
      rw [letGo, armed]
      rfl
    obtain ⟨hheld, hmost, hleast, hbounced, hsplit, hsessions, hstarted, hended⟩ := ha.letGo holding.held g calls
    constructor <;>
      simp only [Session.parted, Option.toList_some, List.length_singleton, Bool.toNat_false] <;> omega
  | @advanced p n g new holding inTime due unarmed calls =>
    obtain ⟨hdown, hup⟩ := taken_press new (p.phase (p.phaseAfter x.phaseIndex)).key
    rw [hdown, hup, ← Nat.add_assoc]
    exact ((ha.letGo holding.held g calls).onward p).begun (letGo_held holding.held n g) unarmed p g
  | skipped waiting inTime pending due spent => exact (ha.onward _).begun waiting.held waiting.armed _ _
  | @resumed p gl key g waiting inTime pending due left mem =>
    -- the press is the one that was to come of the pending gap
    show Accounted starts (downs + 1) ups (Session.resumed p x gl key now g)
    obtain ⟨hheld, hmost, hleast, hbounced, hsplit, hsessions, hstarted, hended⟩ := ha
    rw [waiting.held, List.length_nil] at hheld
    rw [pending, Option.toList_some, List.length_singleton] at hmost
    constructor <;>
      simp only [Session.resumed, Option.toList_none, List.length_nil, List.length_singleton, Bool.toNat_false] <;> omega

/-- **Each move keeps the account.** -/
theorem Move.accounted {call : Call} (h : Move E x call y new) (ha : Accounted starts downs ups x) :
    Accounted (starts + call.starts) (downs + Tape.taken .down new) (ups + Tape.taken .up new) y := by
  cases h with
  | early hearly => exact ha
  | tick ht => exact ht.accounted ha
  | rest idle => exact ha
  | stop running calls =>
    have hm : x.stats.timeouts ≤ x.stats.sessions := le_trans (Nat.le_add_right _ _) ha.ended
    exact ha.stopped _ calls hm
  | @start p now entropy n g new calls =>
    obtain ⟨hdown, hup, hn⟩ := calls.taken
    obtain ⟨hpress, hrelease⟩ := taken_press new (p.phase 0).key
    have harmed := Bool.toNat_le (begun E p (opened p x now n) now g).armed
    obtain ⟨hheld, hmost, hleast, hbounced, hsplit, hsessions, hstarted, hended⟩ := ha
    rw [hpress, hrelease, hdown, hup]
    constructor
    case split =>
      show x.stats.glitches + (begun E p (opened p x now n) now g).armed.toNat ≤ x.stats.phases + 1
      omega
    all_goals
      simp only [begun, opened, Call.starts, Option.toList_some, Option.toList_none, List.length_singleton,
        List.length_nil]
      omega

/-- **Each run keeps the account**, of the starts among its calls and of the key calls by which the tape grows. -/
theorem run_accounts {modes : List Policy} (hR : E.rig.Reliable) (hc : E.config.Accepted) (hN : E.SteadySamples modes)
    {s : Scene (Taped ω)} (h : Smooth modes s)
    (ha : Accounted starts (Tape.taken .down s.world.tape) (Tape.taken .up s.world.tape) s.session) {calls : List Call}
    (hm : ∀ call ∈ calls, call.Of modes) :
    Accounted (starts + (calls.map Call.starts).sum) (Tape.taken .down (run E.taped calls s).world.tape)
      (Tape.taken .up (run E.taped calls s).world.tape) (run E.taped calls s).session := by
  induction calls generalizing s starts with
  | nil => exact ha
  | cons call calls ih =>
    obtain ⟨hcall, hcalls⟩ := List.forall_mem_cons.1 hm
    obtain ⟨-, hsmooth, new, hmove, htape⟩ := step_moves hR hc hN h hcall
    have hstep := hmove.accounted ha
    rw [← taken_append, ← taken_append, ← htape] at hstep
    rw [List.map_cons, List.sum_cons, ← Nat.add_assoc]
    exact ih hsmooth hstep hcalls

/-- **The counters account for the key calls.** Take any run of a fresh session on a rig whose key calls never fault,
with an accepted configuration and finite samples. With the presses and releases on the tape counted: what is held is
the difference, one key at most; the presses are no fewer than phases and bounces and no more than these and the
glitches; there are twice as many releases as bounces or more; the glitches, with the one an armed hold will be split
by, are no more than the phases; the sessions are the starts, no more than the phases; and no more than these have
timed out. -/
theorem run_accounted {modes : List Policy} (hR : E.rig.Reliable) (hc : E.config.Accepted)
    (hN : E.SteadySamples modes) (g : Generator) (w : ω) (calls : List Call) (hm : ∀ call ∈ calls, call.Of modes) :
    let s := run E.taped calls (Scene.fresh g w)
    let downs := Tape.taken .down s.world.tape
    let ups := Tape.taken .up s.world.tape
    let stats := s.session.stats
    downs = ups + s.session.held.length ∧ s.session.held.length ≤ 1 ∧
      stats.phases + stats.bounces ≤ downs ∧ downs ≤ stats.phases + stats.bounces + stats.glitches ∧
      2 * stats.bounces ≤ ups ∧ stats.glitches + (if s.session.armed then 1 else 0) ≤ stats.phases ∧
      stats.sessions = (calls.map Call.starts).sum ∧ stats.sessions ≤ stats.phases ∧
      stats.timeouts ≤ stats.sessions := by
  intro s downs ups stats
  have hsmooth : Smooth modes s := run_smooth hR hc hN (smooth_fresh g w) hm
  have h := run_accounts hR hc hN (smooth_fresh g w) (accounted_fresh g) hm
  rw [Nat.zero_add] at h
  have hsplit : stats.glitches + s.session.armed.toNat ≤ stats.phases := h.split
  refine ⟨h.held, hsmooth.grip.length_le, h.least, ?_, h.bounced, ?_, h.sessions, h.started, ?_⟩
  · exact le_trans (Nat.le_add_right _ _) h.most
  · cases harmed : s.session.armed <;> rw [harmed] at hsplit <;> exact hsplit
  · exact le_trans (Nat.le_add_right _ _) h.ended

/-- a session that is switched, whose hold of 900 ms is over at 1000 ms, and that is stopped -/
theorem run_accounted_og :
    let s := run (plain 20).taped [.start .og 0 1, .start .og 50 1, .tick 1000, .stop] (Scene.fresh .default ())
    Tape.taken .down s.world.tape = Tape.taken .up s.world.tape + s.session.held.length ∧
      s.session.held.length ≤ 1 ∧ s.session.stats.sessions = 2 := by
  obtain ⟨hheld, hone, -, -, -, -, hsessions, -⟩ := run_accounted (E := plain 20) Rig.quiet_reliable
    (plain_accepted 20) (plain_samples 20 Policy.builtin (by decide +kernel)) .default ()
    [.start .og 0 1, .start .og 50 1, .tick 1000, .stop] (by simp [Call.Of, Policy.builtin])
  exact ⟨hheld, hone, hsessions⟩

end Session
end KeyHold
