/-
The holds of a session.

A session presses with nothing in hand and lets go of what it holds. So each release that a bench records comes right
after the press of its key, whatever is called at which stamps, whatever the samples are and whichever key calls fail; a
fault between a press and its release drops the key for good. Each release ends a hold, and the next hold begins after
it.

- `Answered`: each release comes right after a press of its key.
- `InHand`: this, and what the session holds was pressed last. Each operation keeps it, returned or faulted
  (`call_inHand`).
- `Stamped`: actions are recorded in order, none of them before zero or after the present.
- `Turn`, `proceed`: the calls of a session whose clock may be moved forward between them
  (`VirtualClock.jumpTo_eq_pass`, `VirtualClock.advance_eq_pass`).
- `holds_told`: **what is told of the holds** of any history in order, and of a session's.
-/
import Mathlib.Tactic
import KeyHold.Proofs.Driver.Floor
import KeyHold.Proofs.Effector.Pairing
import KeyHold.Proofs.Session.Running
import KeyHold.Proofs.Session.Waits

namespace KeyHold

namespace Recorder

/-! ## Answered presses -/

/-- each release comes right after a press of its key -/
inductive Answered : List KeyAction → Prop
  | nil : Answered []
  | press {history : List KeyAction} (downUs : ℤ) (key : String) (h : Answered history) :
      Answered (history ++ [⟨downUs, .down, key⟩])
  | release {history : List KeyAction} {downUs : ℤ} {key : String} (upUs : ℤ)
      (h : Answered (history ++ [⟨downUs, .down, key⟩])) :
      Answered (history ++ [⟨downUs, .down, key⟩] ++ [⟨upUs, .up, key⟩])

/-- the number of releases -/
def releases (history : List KeyAction) : ℕ := history.countP (·.direction = .up)

variable {history : List KeyAction}

/-- a hold ends with an action -/
theorem exists_of_mem_spans {s : Span} (h : s ∈ spans history) : ∃ a ∈ history, a.timeUs = s.upUs := by
  obtain ⟨pre, mid, post, rfl, -⟩ := mem_spans_iff.1 h
  exact ⟨⟨s.upUs, .up, s.key⟩, by simp, rfl⟩

@[simp] theorem releases_press (history : List KeyAction) (downUs : ℤ) (key : String) :
    releases (history ++ [⟨downUs, .down, key⟩]) = releases history := by
  simp [releases]

@[simp] theorem releases_release (history : List KeyAction) (upUs : ℤ) (key : String) :
    releases (history ++ [⟨upUs, .up, key⟩]) = releases history + 1 := by
  simp [releases]

/-- **Each release ends a hold**, -/
theorem Answered.length_spans (h : Answered history) : (spans history).length = releases history := by
  induction h with
  | nil => rfl
  | press downUs key h ih => rw [spans_press, ih, releases_press]
  | release upUs h ih =>
    rw [spans_press] at ih
    rw [spans_release, List.length_append, ih, releases_release, List.length_singleton]

/-- and is over when the next one begins. -/
theorem Answered.apart (h : Answered history) (ho : InOrder history) :
    (spans history).Pairwise fun s t => s.upUs ≤ t.downUs := by
  induction h with
  | nil => exact .nil
  | press downUs key h ih =>
    rw [spans_press]
    exact ih (List.pairwise_append.1 ho).1
  | @release history downUs key upUs h ih =>
    have hbefore := (List.pairwise_append.1 ho).1
    have hapart := ih hbefore
    rw [spans_press] at hapart
    rw [spans_release]
    refine List.pairwise_append.2 ⟨hapart, List.pairwise_singleton _ _, fun s hs t ht => ?_⟩
    obtain rfl := List.mem_singleton.1 ht
    obtain ⟨a, ha, htime⟩ := exists_of_mem_spans hs
    rw [← htime]
    exact (List.pairwise_append.1 hbefore).2.2 a ha _ (List.mem_singleton_self _)

end Recorder

/-- what a bench has recorded -/
def Bench.history (b : Bench) : List KeyAction := b.recorder.history.toList

/-- **A key call** fails and is not recorded, or it is recorded at the present, and takes no time -/
theorem Bench.call_history (d : Direction) (k : String) (b : Bench) :
    (call d k b).2.clock = b.clock ∧
      ((call d k b).1 = .error linkDown ∧ (call d k b).2.history = b.history ∨
        (call d k b).1 = .ok () ∧ (call d k b).2.history = b.history ++ [⟨b.clock.nowUs, d, k⟩]) := by
  unfold call
  by_cases hfaulty : b.faulty d (b.calls d) = true
  · rw [if_pos hfaulty]
    exact ⟨by cases d <;> rfl, Or.inl ⟨rfl, by cases d <;> rfl⟩⟩
  · rw [if_neg hfaulty]
    refine ⟨by cases d <;> rfl, Or.inr ⟨rfl, ?_⟩⟩
    cases d <;> simp [history, record, count, Recorder.keyDown, Recorder.keyUp]

namespace Session

open Act Bench Recorder

/-! ## What a session has in hand -/

/-- a key was pressed last -/
def PressedLast (k : String) (history : List KeyAction) : Prop :=
  ∃ before downUs, history = before ++ [⟨downUs, .down, k⟩] ∧ Answered history

/-- each release answers a press, and nothing is held -/
structure Free (s : Scene Bench) : Prop where
  answered : Answered s.world.history
  held : s.session.held = []

/-- each release answers a press, and what is held was pressed last -/
inductive InHand (s : Scene Bench) : Prop
  | free (h : Free s)
  | holds {k : String} (held : s.session.held = [k]) (glitch : s.session.glitch = none)
      (pressed : PressedLast k s.world.history)

variable {E : Setup Bench} {s : Scene Bench} {Q : Unit → Scene Bench → Prop} {F : Fault → Scene Bench → Prop}
  {k : String} {p : Policy}

theorem PressedLast.answered {history : List KeyAction} (h : PressedLast k history) : Answered history :=
  h.choose_spec.choose_spec.2

theorem InHand.answered (h : InHand s) : Answered s.world.history := by
  cases h with
  | free h => exact h.answered
  | holds _ _ h => exact h.answered

/-- other parts of the session and of the world do not matter -/
theorem InHand.same {t : Scene Bench} (h : InHand s) (hheld : t.session.held = s.session.held)
    (hglitch : t.session.glitch = s.session.glitch) (hhistory : t.world.history = s.world.history) : InHand t := by
  cases h with
  | free h => exact .free ⟨hhistory ▸ h.answered, hheld.trans h.held⟩
  | holds held glitch pressed => exact .holds (hheld.trans held) (hglitch.trans glitch) (hhistory ▸ pressed)

/-- what leaves nothing in hand, however it ends -/
theorem ends_free {act : Act Bench Unit} (h : Ends act s (fun _ t => Free t) (fun _ t => Free t)) :
    Ends act s (fun _ t => InHand t) (fun _ t => InHand t) :=
  h.mono (fun _ _ ht => .free ht) (fun _ _ ht => .free ht)

theorem say_records (hE : E.rig = Bench.rig) {level : Level} {text : String}
    (hQ : ∀ w, w.history = s.world.history → Q () ⟨s.session, w⟩) : Ends (say E level text) s Q F := by
  rw [say, ends_outside, hE]
  exact hQ _ rfl

/-- a wait records nothing, also when it is cut -/
theorem humanDelay_records (hE : E.rig = Bench.rig) {mean stddev : Float}
    (hQ : ∀ g w, w.history = s.world.history → Q () ⟨{ s.session with generator := g }, w⟩)
    (hF : ∀ e g w, w.history = s.world.history → F e ⟨{ s.session with generator := g }, w⟩) :
    Ends (humanDelay E mean stddev) s Q F := by
  rw [humanDelay, ends_bind, ends_draw, ends_bind, ends_check]
  cases Normal.waitOf E.config.maxWaitUs (E.noise.normal mean stddev s.session.generator).1 with
  | error e => exact hF e _ _ rfl
  | ok us =>
    dsimp only
    rw [ends_outside, hE]
    exact hQ _ _ rfl

/-- a key call is recorded unless it fails -/
theorem call_records {d : Direction}
    (hQ : ∀ w timeUs, w.history = s.world.history ++ [⟨timeUs, d, k⟩] → Q () ⟨s.session, w⟩)
    (hF : ∀ e w, w.history = s.world.history → F e ⟨s.session, w⟩) : Ends (attempt (Bench.call d k)) s Q F := by
  rw [ends_attempt]
  obtain ⟨-, hcall⟩ := Bench.call_history d k s.world
  rcases hr : Bench.call d k s.world with ⟨r, w⟩
  rw [hr] at hcall
  rcases hcall with ⟨rfl, hw⟩ | ⟨rfl, hw⟩
  · exact hF _ w hw
  · exact hQ w _ hw

theorem press_records (hE : E.rig = Bench.rig) (ha : Answered s.world.history)
    (hQ : ∀ g w, PressedLast k w.history → Q () ⟨{ s.session with held := s.session.held ++ [k], generator := g }, w⟩)
    (hF : ∀ e g w, Answered w.history → F e ⟨{ s.session with generator := g }, w⟩) : Ends (press E k) s Q F := by
  rw [press, ends_bind]
  refine humanDelay_records hE (fun g v hv => ?_) (fun e g v hv => hF e g v (by rw [hv]; exact ha))
  rw [ends_bind, hE]
  refine call_records (fun w timeUs hw => ?_) (fun e w hw => ?_)
  · rw [ends_change]
    refine hQ g w ⟨_, timeUs, hw, ?_⟩
    rw [hw]
    exact .press _ _ (by rw [hv]; exact ha)
  · apply hF
    rw [hw, hv]
    exact ha

/-- what was pressed last is let go, and a bounce presses it again in between -/
theorem release_records (hE : E.rig = Bench.rig) (hk : PressedLast k s.world.history)
    (hQ : ∀ n g w, Answered w.history → Q () ⟨letGo s.session k n g, w⟩)
    (hF : ∀ e n g w, Answered w.history → F e ⟨letGo s.session k n g, w⟩) : Ends (release E k) s Q F := by
  have hup {w : Bench} {timeUs : ℤ} (hw : w.history = s.world.history ++ [⟨timeUs, .up, k⟩]) : Answered w.history := by
    obtain ⟨before, downUs, hbefore, ha⟩ := hk
    rw [hw, hbefore]
    rw [hbefore] at ha
    exact .release timeUs ha
  unfold release
  rw [ends_bind, ends_change, ends_bind, hE]
  refine call_records (fun v timeUs hv => ?_) (fun e v hv => hF e 0 _ v (hv ▸ hk.answered))
  have ha : Answered v.history := hup hv
  rw [ends_bind, ends_draw]
  split_ifs
  · unfold bounce
    rw [ends_bind, ends_change, ends_bind]
    refine say_records hE fun v₁ h₁ => ?_
    rw [ends_bind]
    refine humanDelay_records hE (fun g v₂ h₂ => ?_) (fun e g v₂ h₂ => hF e 1 g v₂ (h₂ ▸ h₁ ▸ ha))
    rw [ends_bind, hE]
    refine call_records (fun v₃ downUs h₃ => ?_) (fun e v₃ h₃ => hF e 1 g v₃ (h₃ ▸ h₂ ▸ h₁ ▸ ha))
    have hpress : Answered (v₂.history ++ [⟨downUs, .down, k⟩]) := .press downUs k (h₂ ▸ h₁ ▸ ha)
    rw [ends_bind]
    refine humanDelay_records hE (fun g v₄ h₄ => ?_) (fun e g v₄ h₄ => hF e 1 g v₄ (h₄ ▸ h₃ ▸ hpress))
    refine call_records (fun v₅ upUs h₅ => hQ 1 g v₅ ?_) (fun e v₅ h₅ => hF e 1 g v₅ (h₅ ▸ h₄ ▸ h₃ ▸ hpress))
    rw [h₅, h₄, h₃]
    exact .release upUs hpress
  · exact hQ 0 _ v ha

/-! ## Operations -/

/-- a phase begins with nothing in hand -/
theorem beginPhase_inHand (hE : E.rig = Bench.rig) (h : Free s) (p : Policy) (now : ℤ) :
    Ends (beginPhase E p now) s (fun _ t => InHand t) (fun _ t => InHand t) := by
  rw [beginPhase, ends_bind, ends_session, ends_bind]
  refine press_records hE h.answered (fun g w hw => ?_) (fun e g w hw => .free ⟨hw, h.held⟩)
  rw [ends_bind, ends_change, ends_bind]
  refine setNextHold_ends fun target armed g => ?_
  rw [ends_change]
  refine .holds ?_ rfl hw
  simp only [h.held, List.nil_append]

theorem nextPhase_inHand (hE : E.rig = Bench.rig) (h : Free s) (p : Policy) (now : ℤ) :
    Ends (nextPhase E p now) s (fun _ t => InHand t) (fun _ t => InHand t) := by
  rw [nextPhase, ends_bind, ends_change]
  apply beginPhase_inHand hE
  exact ⟨h.answered, h.held⟩

theorem enterGap_inHand (hE : E.rig = Bench.rig) (h : Free s) (now : ℤ) :
    Ends (enterGap E now) s (fun _ t => InHand t) (fun _ t => InHand t) := by
  apply ends_free
  rw [enterGap, ends_bind, ends_draw, ends_bind, ends_check]
  cases toDouble (Generator.range E.config.glitchSplitMinPct E.config.glitchSplitMaxPct s.session.generator).1 with
  | error e => exact ⟨h.answered, h.held⟩
  | ok x =>
    simp only [sampleAtLeast, ends_bind, ends_pure, ends_session, ends_draw, ends_change]
    exact say_records hE fun w hw => ⟨hw ▸ h.answered, h.held⟩

theorem endGap_inHand (hE : E.rig = Bench.rig) (h : Free s) (p : Policy) (glitch : Glitch) (now : ℤ) :
    Ends (endGap E p glitch now) s (fun _ t => InHand t) (fun _ t => InHand t) := by
  rw [endGap, ends_bind, ends_change]
  split_ifs
  · apply nextPhase_inHand hE
    exact ⟨h.answered, h.held⟩
  · rw [ends_bind, ends_draw, ends_bind]
    refine press_records hE h.answered (fun g w hw => ?_) (fun e g w hw => .free ⟨hw, h.held⟩)
    rw [ends_bind, ends_change]
    refine say_records hE fun v hv => .holds ?_ rfl (hv ▸ hw)
    simp only [h.held, List.nil_append]

theorem endHold_inHand (hE : E.rig = Bench.rig) (hheld : s.session.held = [k]) (hk : PressedLast k s.world.history)
    (p : Policy) (now : ℤ) : Ends (endHold E p k now) s (fun _ t => InHand t) (fun _ t => InHand t) := by
  have hfree : ∀ n g w, Answered w.history → Free ⟨letGo s.session k n g, w⟩ := by
    intro n g w hw
    refine ⟨hw, ?_⟩
    simp [letGo, hheld]
  rw [endHold, ends_bind]
  refine release_records hE hk (fun n g w hw => ?_) (fun e n g w hw => .free (hfree n g w hw))
  rw [ends_bind, ends_session]
  split_ifs
  · exact enterGap_inHand hE (hfree n g w hw) now
  · exact nextPhase_inHand hE (hfree n g w hw) p now

/-- a stop leaves nothing in hand, also when it is cut -/
theorem stop_free (hE : E.rig = Bench.rig) (h : InHand s) (hidle : s.session.policy = none → s.session.held = []) :
    Ends (stop E) s (fun _ t => Free t) (fun _ t => Free t) := by
  rw [stop, ends_bind, ends_session]
  cases hp : s.session.policy with
  | none => exact ⟨h.answered, hidle hp⟩
  | some p =>
    dsimp only
    rw [ends_bind, releaseAll, ends_afterwards, ends_bind, ends_session]
    cases h with
    | free h =>
      rw [h.held]
      apply ends_pure.2
      exact say_records hE fun w hw => ⟨hw ▸ h.answered, rfl⟩
    | @holds k hheld _ hk =>
      rw [hheld]
      show Ends (release E k >>= fun _ => [].forM (release E)) s _ _
      rw [ends_bind]
      refine release_records hE hk (fun n g w hw => ?_) (fun e n g w hw => ⟨hw, rfl⟩)
      apply ends_pure.2
      exact say_records hE fun v hv => ⟨hv ▸ hw, rfl⟩

theorem timeOut_inHand (hE : E.rig = Bench.rig) (h : InHand s) (hp : s.session.policy = some p) :
    Ends (timeOut E p) s (fun _ t => InHand t) (fun _ t => InHand t) := by
  rw [timeOut, ends_bind, ends_check]
  cases timeoutSeconds E.config with
  | error e => exact h
  | ok seconds =>
    dsimp only
    rw [ends_bind]
    refine say_records hE fun w hw => ?_
    rw [ends_bind, ends_change]
    apply ends_free
    apply stop_free hE
    · exact h.same rfl rfl hw
    · intro hnone
      rw [show s.session.policy = none from hnone] at hp
      cases hp

theorem tick_inHand (hE : E.rig = Bench.rig) (h : InHand s) (now : ℤ) :
    Ends (tick E now) s (fun _ t => InHand t) (fun _ t => InHand t) := by
  rw [tick, ends_bind, ends_session]
  cases hp : s.session.policy with
  | none => exact h
  | some p =>
    dsimp only
    split_ifs
    · exact timeOut_inHand hE h hp
    cases hg : s.session.glitch with
    | some g =>
      dsimp only
      rw [ends_bind, ends_check]
      cases wholePart g.gap with
      | error e => exact h
      | ok gap =>
        dsimp only
        split_ifs
        · cases h with
          | free hfree => exact endGap_inHand hE hfree p g now
          | holds _ hnone _ =>
            rw [hg] at hnone
            cases hnone
        · exact h
    | none =>
      cases h with
      | free hfree =>
        rw [hfree.held]
        exact nextPhase_inHand hE hfree p now
      | @holds k hheld hglitch hk =>
        rw [hheld]
        dsimp only
        rw [ends_bind, ends_check]
        cases wholePart s.session.target with
        | error e => exact .holds hheld hglitch hk
        | ok hold =>
          dsimp only
          split_ifs
          · exact endHold_inHand hE hheld hk p now
          · exact .holds hheld hglitch hk

theorem reseed_records (hE : E.rig = Bench.rig) {entropy : ℤ}
    (hQ : ∀ g w, w.history = s.world.history → Q () ⟨{ s.session with generator := g }, w⟩) :
    Ends (reseed E entropy) s Q F := by
  rw [reseed, ends_bind, ends_draw]
  split_ifs
  · rw [ends_outside, hE]
    exact hQ _ _ rfl
  · exact hQ _ _ rfl

theorem startIdle_inHand (hE : E.rig = Bench.rig) (h : Free s) (p : Policy) (now entropy : ℤ) :
    Ends (startIdle E p now entropy) s (fun _ t => InHand t) (fun _ t => InHand t) := by
  rw [startIdle, ends_bind]
  refine reseed_records hE fun g w hw => ?_
  rw [ends_bind, ends_change, ends_bind]
  refine (beginPhase_inHand hE ?_ p now).mono (fun _ t ht => ?_) (fun _ _ ht => ht)
  · exact ⟨hw ▸ h.answered, h.held⟩
  · rw [ends_bind, ends_session]
    exact say_records hE fun v hv => ht.same rfl rfl hv

theorem start_inHand (hE : E.rig = Bench.rig) (h : InHand s) (hidle : s.session.policy = none → s.session.held = [])
    (p : Policy) (now entropy : ℤ) : Ends (start E p now entropy) s (fun _ t => InHand t) (fun _ t => InHand t) := by
  rw [start_eq, ends_bind, ends_session]
  cases hp : s.session.policy with
  | none => exact startIdle_inHand hE ⟨h.answered, hidle hp⟩ p now entropy
  | some q =>
    dsimp only
    rw [ends_bind]
    refine say_records hE fun w hw => ?_
    rw [ends_bind]
    apply Ends.mono (stop_free hE ?_ ?_)
    · exact fun _ t ht => startIdle_inHand hE ht p now entropy
    · exact fun _ t ht => .free ht
    · exact h.same rfl rfl hw
    · exact hidle

/-- **A call keeps what is in hand** known, returned or faulted. -/
theorem call_inHand (hE : E.rig = Bench.rig) (h : InHand s) (hidle : s.session.policy = none → s.session.held = [])
    (call : Call) : InHand (step E s call) := by
  cases call with
  | start p now entropy => exact (start_inHand hE h hidle p now entropy).after
  | stop => exact (ends_free (stop_free hE h hidle)).after
  | tick now => exact (tick_inHand hE h now).after

/-! ## Stamps -/

/-- actions are recorded in order, none of them before zero or after the present -/
structure Stamped (b : Bench) : Prop where
  present : 0 ≤ b.clock.nowUs
  inOrder : InOrder b.history
  past : ∀ a ∈ b.history, 0 ≤ a.timeUs ∧ a.timeUs ≤ b.clock.nowUs

/-- time may pass -/
theorem Stamped.later {b c : Bench} (h : Stamped b) (hhistory : c.history = b.history)
    (hclock : b.clock.nowUs ≤ c.clock.nowUs) : Stamped c := by
  refine ⟨h.present.trans hclock, hhistory ▸ h.inOrder, fun a ha => ?_⟩
  obtain ⟨hlow, hhigh⟩ := h.past a (hhistory ▸ ha)
  exact ⟨hlow, hhigh.trans hclock⟩

/-- what is recorded now is recorded last -/
theorem Stamped.records {b c : Bench} {d : Direction} (h : Stamped b)
    (hhistory : c.history = b.history ++ [⟨b.clock.nowUs, d, k⟩]) (hclock : c.clock = b.clock) : Stamped c := by
  refine ⟨hclock ▸ h.present, ?_, ?_⟩
  · unfold InOrder
    rw [hhistory]
    refine List.pairwise_append.2 ⟨h.inOrder, List.pairwise_singleton _ _, fun a ha a' ha' => ?_⟩
    rw [List.mem_singleton.1 ha']
    exact (h.past a ha).2
  · rw [hhistory, hclock]
    exact List.forall_mem_append.2 ⟨h.past, List.forall_mem_singleton.2 ⟨h.present, le_rfl⟩⟩

theorem call_stamped {b : Bench} (h : Stamped b) (d : Direction) (k : String) : Stamped (Bench.call d k b).2 := by
  obtain ⟨hclock, ⟨-, hsame⟩ | ⟨-, hnew⟩⟩ := Bench.call_history d k b
  · apply h.later hsame
    rw [hclock]
  · exact h.records hnew hclock

theorem stamped_keeps : Bench.rig.Keeps Stamped where
  down k b h := call_stamped h .down k
  up k b h := call_stamped h .up k
  wait us b h := by
    apply h.later
    · rfl
    · show b.clock.nowUs ≤ if us > 0 then b.clock.nowUs + us else b.clock.nowUs
      split_ifs <;> omega
  note e b h := h.later rfl le_rfl

/-! ## Runs -/

/-- what happens to a session and to the clock of its bench -/
inductive Turn where
  | call (c : Call)
  | pass (us : ℕ)

def Turn.after (E : Setup Bench) (s : Scene Bench) : Turn → Scene Bench
  | .call c => step E s c
  | .pass us => { s with world := { s.world with clock := s.world.clock.pass us } }

/-- what turns leave, each keeping what a fault left -/
def proceed (E : Setup Bench) (turns : List Turn) (s : Scene Bench) : Scene Bench := turns.foldl (Turn.after E) s

/-- what is in hand is known, a session that runs nothing is idle, and what was recorded was recorded in order -/
structure Recording (s : Scene Bench) : Prop where
  hand : InHand s
  idle : Tidy s.session
  stamped : Stamped s.world

theorem Recording.turn (hE : E.rig = Bench.rig) (h : Recording s) (turn : Turn) : Recording (turn.after E s) := by
  cases turn with
  | call c =>
    have hkeeps : E.rig.Keeps Stamped := by
      rw [hE]
      exact stamped_keeps
    have hstamped : Stamped (run E [c] s).world := run_keeps hkeeps h.stamped [c]
    exact ⟨call_inHand hE h.hand (fun hp => (h.idle hp).held) c, call_tidy h.idle c, hstamped⟩
  | pass us =>
    refine ⟨h.hand.same rfl rfl rfl, h.idle, h.stamped.later rfl ?_⟩
    show s.world.clock.nowUs ≤ s.world.clock.nowUs + us
    omega

/-- **Every run keeps this**, whatever is called at which stamps, and whichever calls fault. -/
theorem proceed_recording (hE : E.rig = Bench.rig) (h : Recording s) (turns : List Turn) :
    Recording (proceed E turns s) := by
  induction turns generalizing s with
  | nil => exact h
  | cons turn turns ih => exact ih (h.turn hE turn)

theorem recording_fresh (g : Generator) {b : Bench} (hr : b.recorder = {}) (h0 : 0 ≤ b.clock.nowUs) :
    Recording ⟨{ generator := g }, b⟩ := by
  have hhistory : b.history = [] := by
    unfold Bench.history
    rw [hr]
  refine ⟨.free ⟨?_, rfl⟩, fun _ => ⟨rfl, rfl, rfl, rfl, rfl⟩, h0, ?_, ?_⟩
  · show Answered b.history
    rw [hhistory]
    exact .nil
  · rw [hhistory]
    exact List.Pairwise.nil
  · rw [hhistory]
    exact List.forall_mem_nil _

/-- a history of holds one after the other, each of which a release ends -/
structure OneByOne (r : Recorder) : Prop where
  stamped : ∀ a ∈ r.history.toList, 0 ≤ a.timeUs
  inOrder : InOrder r.history.toList
  forward : ∀ s ∈ spans r.history.toList, s.downUs ≤ s.upUs
  /-- each hold is over when the next one begins, of whichever keys they are -/
  apart : (spans r.history.toList).Pairwise fun s t => s.upUs ≤ t.downUs
  count : (spans r.history.toList).length = releases r.history.toList
  durations : (∀ s ∈ spans r.history.toList, ¬ s.TooLong) → ∃ holds, r.holdDurations 0.0 = .ok holds ∧
    (∀ hold ∈ holds, ∀ x ∈ hold.2, 0.0 ≤ x) ∧ holds.total = releases r.history.toList

theorem Recording.oneByOne (h : Recording s) : OneByOne s.world.recorder := by
  have ho : InOrder s.world.recorder.history.toList := h.stamped.inOrder
  have ha : Answered s.world.recorder.history.toList := h.hand.answered
  have hpast : ∀ a ∈ s.world.recorder.history.toList, 0 ≤ a.timeUs := fun a hmem => (h.stamped.past a hmem).1
  refine ⟨hpast, ho, fun _ => ho.span_le, ha.apart ho, ha.length_spans, fun hcount => ?_⟩
  obtain ⟨timed, htimed⟩ := mapM_timed_ok hcount
  obtain ⟨holds, hholds, hlists, htotal⟩ := ho.holdDurations_zero htimed
  refine ⟨holds, hholds, fun hold hmem x hx => ?_, ?_⟩
  · rw [((hlists.mem hold.1 hold.2).1 hmem).1] at hx
    exact (ho.timed_bounds htimed _ (mem_of_mem_timesOf hx)).1
  · calc holds.total = timed.length := htotal
      _ = (spans s.world.recorder.history.toList).length := (forall₂_of_mapM htimed).length_eq.symm
      _ = releases s.world.recorder.history.toList := ha.length_spans

/-- **What is told of the holds.** Of a history in order, whatever it is, the durations told with the bound zero are
those of the holds of each key, in their order, and of no key without a hold; with any other bound those below it are
left out. That is unless a hold is too long for a double to count its microseconds: then nothing is told at all. In what
a session records on a clock that is only moved forward, through any calls and failures from a fresh session on, holds
come one after the other, none of them lasts for less than nothing, and there are as many as releases. -/
theorem holds_told {r : Recorder} (h : InOrder r.history.toList) (hE : E.rig = Bench.rig) (g : Generator) {b : Bench}
    (hr : b.recorder = {}) (h0 : 0 ≤ b.clock.nowUs) (turns : List Turn) :
    Told r ∧ OneByOne (proceed E turns ⟨{ generator := g }, b⟩).world.recorder := by
  have hrecording : Recording (proceed E turns ⟨{ generator := g }, b⟩) :=
    proceed_recording hE (recording_fresh g hr h0) turns
  exact ⟨h.told, hrecording.oneByOne⟩

/-- two keys at once, one of them pressed again before it is released, and releases of a key that is not held -/
def mixed : Recorder where
  history := #[⟨0, .up, "a"⟩, ⟨1000, .down, "a"⟩, ⟨2000, .down, "b"⟩, ⟨3000, .down, "a"⟩, ⟨4500, .up, "a"⟩,
    ⟨5000, .up, "a"⟩, ⟨9000, .up, "b"⟩, ⟨9000, .down, "b"⟩, ⟨10000, .up, "b"⟩]

/-- three holds of two keys, of which one lasts for five milliseconds; and a session in which each release bounces -/
theorem holds_told_mixed :
    (Told mixed ∧ (mixed.holdDurations 0.0).toOption = some [("a", [1.5]), ("b", [7.0, 1.0])] ∧
      (mixed.holdDurations 5.0).toOption = some [("b", [7.0])]) ∧
    let s := proceed bouncing [.call (.start .og 0 1), .pass 2000000, .call (.tick 2000), .pass 7, .call .stop]
      ⟨{ generator := .default }, {}⟩
    OneByOne s.world.recorder ∧ releases s.world.recorder.history.toList = 4 := by
  have hin : InOrder mixed.history.toList := by
    unfold InOrder
    decide +kernel
  obtain ⟨htold, hone⟩ := holds_told (E := bouncing) hin rfl .default (b := {}) rfl le_rfl
    [.call (.start .og 0 1), .pass 2000000, .call (.tick 2000), .pass 7, .call .stop]
  refine ⟨⟨htold, ?_, ?_⟩, hone, ?_⟩
  · decide +kernel
  · decide +kernel
  · decide +kernel

/-- a key that is held for 2^1015 milliseconds -/
def boundless : Recorder where
  history := #[⟨1500, .down, "b"⟩, ⟨1500 + 2 ^ 1015 * 1000, .up, "b"⟩]

/-- **A hold whose microseconds no double counts** is in order like any other, and nothing is told of it. -/
theorem boundless_untold :
    InOrder boundless.history.toList ∧
      spansOf "b" boundless.history.toList = [⟨"b", 1500, 1500 + 2 ^ 1015 * 1000⟩] ∧
      boundless.holdDurations 0.0 = .error .beyondDoubles := by
  have hspans : spans boundless.history.toList = [⟨"b", 1500, 1500 + 2 ^ 1015 * 1000⟩] := by decide +kernel
  have hnone : Decimal.ofInt? (1500 + 2 ^ 1015 * 1000 - 1500) = none := by decide +kernel
  refine ⟨?_, ?_, holdDurations_error ?_ 0.0⟩
  · unfold InOrder
    decide +kernel
  · unfold spansOf
    rw [hspans]
    rfl
  · rw [hspans]
    exact ⟨_, List.mem_singleton_self _, hnone⟩

end Session
end KeyHold
