/-
The turns of the scan loop, and its end.

A turn takes the events that wait, the oldest first, and then ticks the driver once; the event of a mode that is not
registered is only noted. The loop ends when it is stopped or when its sleep faults, after any turn, and then it forces
a stop. On a host whose key calls never fault, nothing is held after it, however it ended, and what it ends with is what
ended it.

- `answered`: what an event does. `turned`: the loop after a turn, told by the events that waited at its start.
- `Course`: the turns of a run of the loop, each as `turned`, and how the last pause ended.
- `runForever_releases`: **whatever ends the loop**, whatever happens while it sleeps, and whatever was done with its
  driver before.

What comes while a turn is on is as good as come before it or after it: only the turn takes events, and only the loop's
head looks at `running`. So everything comes in the pauses.
-/
import Mathlib.Tactic
import KeyHold.Proofs.Driver.Toggle
import KeyHold.Proofs.Host.Loop

namespace KeyHold

variable {ω : Type}

namespace ScanLoop

open Session Tape

/-! ## Turns -/

/-- what an event does: a toggle, but that of an unknown mode is only noted -/
def answered (L : LoopSetup ω) (s : Scene ω) (e : ToggleEvent) : Scene ω :=
  if L.driver.registry.contains e.mode then L.driver.step s (.toggle e.mode none)
  else { s with world := L.driver.host.note ⟨.error, .host, (Fault.unknownMode e.mode).message⟩ s.world }

/-- the loop after a turn: the events that waited are answered in their order, and then there is one tick -/
def turned (L : LoopSetup ω) (l : ScanLoop ω) : ScanLoop ω :=
  { l with scene := L.driver.step (l.listener.events.foldl (answered L) l.scene) (.tick none)
           listener := { l.listener with events := [] }
           iterations := l.iterations + 1 }

/-- the turns of a loop from its head on, `n` of them, and how they ended -/
inductive Course (L : LoopSetup ω) : List (List Happening) → ScanLoop ω → ℕ → Ending → ScanLoop ω → Prop
  /-- the loop was stopped -/
  | stopped {pauses : List (List Happening)} {l : ScanLoop ω} (halted : l.running = false) :
      Course L pauses l 0 (.ended (.ok ())) l
  /-- nothing is given of what happens next -/
  | unfinished {l : ScanLoop ω} (running : l.running = true) : Course L [] l 0 .unfinished l
  /-- the pause after a turn faulted -/
  | raised {happenings : List Happening} {rest : List (List Happening)} {l m : ScanLoop ω} {e : Fault}
      (running : l.running = true) (turn : runOnce L l = (.ok (), turned L l))
      (fault : pause L happenings (turned L l) = (.error e, m)) :
      Course L (happenings :: rest) l 1 (.ended (.error e)) m
  /-- a turn, a pause, and the turns after it -/
  | turn {happenings : List Happening} {rest : List (List Happening)} {l m l' : ScanLoop ω} {n : ℕ} {ending : Ending}
      (running : l.running = true) (turn : runOnce L l = (.ok (), turned L l))
      (slept : pause L happenings (turned L l) = (.ok (), m)) (more : Course L rest m n ending l') :
      Course L (happenings :: rest) l (n + 1) ending l'

/-! ## Steady loops -/

/-- what is asked of a loop's host, configuration and samples -/
structure Steady (L : LoopSetup ω) : Prop where
  reliable : L.driver.host.toRig.Reliable
  accepted : L.driver.config.Accepted
  samples : L.driver.setup.SteadySamples L.driver.registry.policies

/-- the session is in order, all its key calls were taken, and its numbers are finite -/
abbrev InOrder (L : LoopSetup ω) (s : Scene (Taped ω)) : Prop := Smooth L.driver.registry.policies s

variable {L : LoopSetup ω} {l : ScanLoop (Taped ω)} {s : Scene (Taped ω)}

theorem Steady.act (hL : Steady L) (h : InOrder L s) {c : Driver.Call} {call : Session.Call} {w : Taped ω}
    (hcall : c.onSession L.driver.taped s = .ok (call, w)) :
    (c.act L.driver.taped s).1 = .ok () ∧ InOrder L (L.driver.taped.step s c) := by
  obtain ⟨hr, hsmooth, -⟩ := Driver.act_moves hL.reliable hL.accepted hL.samples h hcall
  exact ⟨hr, hsmooth⟩

/-- an event is answered -/
theorem Steady.handle (hL : Steady L) (h : InOrder L l.scene) (e : ToggleEvent) :
    handle L.taped e l = (.ok (), { l with scene := answered L.taped l.scene e }) ∧
      InOrder L (answered L.taped l.scene e) := by
  unfold ScanLoop.handle answered
  rw [drive_run]
  cases hm : L.taped.driver.registry.contains e.mode with
  | true =>
    obtain ⟨call, w, hcall⟩ := Driver.Call.onSession_known L.taped.driver l.scene hm none
    obtain ⟨hr, hsound⟩ := hL.act h hcall
    rw [show (L.taped.driver.toggle e.mode none l.scene).1 = .ok () from hr]
    exact ⟨rfl, hsound⟩
  | false =>
    rw [Driver.toggle_unknown L.taped.driver l.scene hm none]
    exact ⟨rfl, h.outside rfl⟩

/-- the events that wait are answered in their order -/
theorem Steady.drain (hL : Steady L) (h : InOrder L l.scene) :
    drain L.taped l.listener.events l = (.ok (), { l with scene := l.listener.events.foldl (answered L.taped) l.scene
                                                          listener := { l.listener with events := [] } }) ∧
      InOrder L (l.listener.events.foldl (answered L.taped) l.scene) := by
  obtain ⟨events, hevents⟩ : ∃ events, l.listener.events = events := ⟨_, rfl⟩
  rw [hevents]
  induction events generalizing l with
  | nil =>
    have hempty : { l with listener := { l.listener with events := [] } } = l := by rw [← hevents]
    refine ⟨?_, h⟩
    rw [List.foldl_nil, hempty]
    rfl
  | cons e rest ih =>
    obtain ⟨hhandle, hsound⟩ := hL.handle (l := { l with listener := { l.listener with events := rest } }) h e
    obtain ⟨hrest, hafter⟩ := ih (l := ⟨answered L.taped l.scene e, { l.listener with events := rest }, l.running,
      l.iterations, l.signals, l.exits⟩) hsound rfl
    refine ⟨?_, hafter⟩
    rw [drain_cons, bind_run, hhandle]
    exact hrest

/-- a turn is as it should be -/
theorem Steady.turn (hL : Steady L) (h : InOrder L l.scene) :
    runOnce L.taped l = (.ok (), turned L.taped l) ∧ InOrder L (turned L.taped l).scene := by
  obtain ⟨hdrain, hsound⟩ := hL.drain h
  obtain ⟨hr, hafter⟩ := hL.act hsound (c := .tick none) rfl
  refine ⟨?_, hafter⟩
  rw [runOnce_run, bind_run, hdrain]
  dsimp only
  rw [bind_run, drive_run]
  rw [show (L.taped.driver.tick none (l.listener.events.foldl (answered L.taped) l.scene)).1 = .ok () from hr]
  rfl

/-! ## Pauses -/

/-- the session is in order, and so many turns were counted -/
structure Paused (L : LoopSetup ω) (n : ℕ) (l : ScanLoop (Taped ω)) : Prop where
  sound : InOrder L l.scene
  count : l.iterations = n

/-- whatever happens in a pause, the session is in order after it, and turns are counted by turns only -/
theorem Steady.endures (hL : Steady L) (n : ℕ) : Endures L.taped (Paused L n) where
  note e l h := by
    have hm : Paused L n { l with scene := { l.scene with world := L.taped.driver.host.note e l.scene.world } } :=
      ⟨h.sound.outside rfl, h.count⟩
    exact hm
  forceStop l h := by
    obtain ⟨-, hsound⟩ := hL.act h.sound (c := .forceStop) rfl
    exact ⟨hsound, h.count⟩
  sleep l world hs h := by
    have htape : world.tape = l.scene.world.tape := by
      simp only [LoopSetup.taped] at hs
      cases hv : L.sleep (L.intervalMs / 1000.0) l.scene.world.world with
      | error e =>
        rw [hv] at hs
        cases hs
      | ok v =>
        rw [hv] at hs
        cases hs
        rfl
    exact ⟨h.sound.outside htape, h.count⟩
  stop _ h := ⟨h.sound, h.count⟩
  rest _ _ _ _ h := ⟨h.sound, h.count⟩

/-! ## The end -/

/-- the turns of a loop, whatever is given of its pauses -/
theorem Steady.course (hL : Steady L) (h : InOrder L l.scene) (pauses : List (List Happening)) :
    ∃ n ending m, turns L.taped pauses l = (ending, m) ∧ Course L.taped pauses l n ending m ∧
      Paused L (l.iterations + n) m := by
  induction pauses generalizing l with
  | nil =>
    cases hr : l.running with
    | false => exact ⟨0, _, l, turns_stopped _ hr _, .stopped hr, h, rfl⟩
    | true => exact ⟨0, _, l, by rw [turns, if_neg (by simp [hr])], .unfinished hr, h, rfl⟩
  | cons happenings rest ih =>
    cases hr : l.running with
    | false => exact ⟨0, _, l, turns_stopped _ hr _, .stopped hr, h, rfl⟩
    | true =>
      obtain ⟨hturn, hsound⟩ := hL.turn h
      have hpaused := (hL.endures (l.iterations + 1)).pause happenings _ ⟨hsound, rfl⟩
      rw [turns_running _ hr, bind_run, hturn]
      dsimp only
      rcases hp : pause L.taped happenings (turned L.taped l) with ⟨e | _, m⟩ <;> rw [hp] at hpaused
      · exact ⟨1, _, m, rfl, .raised hr hturn hp, hpaused⟩
      · obtain ⟨n, ending, m', hm', hcourse, hend⟩ := ih hpaused.sound
        refine ⟨n + 1, ending, m', hm', .turn hr hturn hp hcourse, hend.sound, ?_⟩
        rw [hend.count, hpaused.count]
        omega

/-- nothing runs, and nothing is down -/
structure AtRest (s : Scene (Taped ω)) : Prop where
  idle : Idle s.session
  silent : asserted s.world.tape = []

/-- after a forced stop nothing runs, and nothing is down -/
theorem Steady.atRest (hL : Steady L) (h : InOrder L s) : AtRest (L.driver.taped.step s .forceStop) := by
  obtain ⟨-, hsound, new, hmove, -⟩ :=
    Driver.act_moves (c := .forceStop) hL.reliable hL.accepted hL.samples h rfl
  have hnone : (L.driver.taped.step s .forceStop).session.policy = none := Option.map_eq_none_iff.1 hmove.shown.1
  have hidle : Idle (L.driver.taped.step s .forceStop).session := (Coherent.settled hsound.settled).idle hnone
  exact ⟨hidle, (hsound.grip.asserted_eq hsound.taken.not_faulted).trans hidle.held⟩

theorem Steady.wrappedUp (hL : Steady L) {n : ℕ} (h : Paused L n l) :
    ∃ m, wrapUp L.taped l = (.ok (), m) ∧ AtRest m.scene ∧ m.iterations = n := by
  obtain ⟨hr, -⟩ := hL.act h.sound (c := .forceStop) rfl
  have hrest := hL.atRest h.sound
  rw [wrapUp, bind_run, drive_run, show (L.taped.driver.forceStop l.scene).1 = .ok () from hr]
  exact ⟨_, rfl, ⟨hrest.idle, hrest.silent⟩, h.count⟩

theorem Steady.step (hL : Steady L) (h : InOrder L s) (c : Driver.Call) : InOrder L (L.driver.taped.step s c) := by
  cases hcall : c.onSession L.driver.taped s with
  | error e =>
    rw [Driver.step, Driver.act_error _ _ hcall]
    exact h
  | ok r => exact (hL.act h hcall).2

theorem Steady.run (hL : Steady L) (h : InOrder L s) (calls : List Driver.Call) :
    InOrder L (L.driver.taped.run calls s) := by
  induction calls generalizing s with
  | nil => exact h
  | cons c calls ih => exact ih (hL.step h c)

/-- **However the loop ends, it ends released.** Let a loop be entered with any queue, on a driver that any calls were made
of before, and let anything come in its pauses: events of modes that are known or not, keys, signals, stops, an interrupt,
or a fault of the sleep. Each of its turns answers the events that waited at its start in their order and then ticks once.
If the loop ends, then with what ended its turns, nothing runs after it and nothing is down, and as many iterations were
counted as there were turns. Without the tape it is the run of the loop itself. -/
theorem runForever_releases (hL : Steady L) (g : Generator) (w : ω) (before : List Driver.Call)
    (hl : l.scene = L.driver.taped.run before (Scene.fresh g w)) (pauses : List (List Happening)) :
    ∃ n ending m, turns L.taped pauses (entered L.taped l) = (ending, m) ∧
      Course L.taped pauses (entered L.taped l) n ending m ∧
      match ending with
      | .unfinished => runForever L.taped pauses l = (.unfinished, m)
      | .ended r => ∃ l', runForever L.taped pauses l = (.ended r, l') ∧
          runForever L pauses l.untaped = (.ended r, l'.untaped) ∧ AtRest l'.scene ∧
          l'.iterations = l.iterations + n := by
  have hstart : InOrder L l.scene := hl ▸ hL.run (smooth_fresh g w) before
  have hentered : InOrder L (entered L.taped l).scene := hstart.outside rfl
  obtain ⟨n, ending, m, hturns, hcourse, hpaused⟩ := hL.course hentered pauses
  have hrun := runForever_eq L.taped pauses l
  rw [hturns] at hrun
  refine ⟨n, ending, m, hturns, hcourse, ?_⟩
  cases ending with
  | unfinished => exact hrun
  | ended r =>
    obtain ⟨l', hwrap, hrest, hcount⟩ := hL.wrappedUp hpaused
    have htaped : runForever L.taped pauses l = (.ended r, l') := by
      rw [hrun]
      show endWith r (wrapUp L.taped) m = _
      rw [endWith, hwrap]
    refine ⟨l', htaped, ?_, hrest, hcount⟩
    rw [runForever_taped, htaped]

/-! ## An instance -/

/-- the built-in modes on a host on which nothing comes of anything, and a sleep that always returns -/
def still : LoopSetup Unit := ⟨Driver.still, 2.0, fun _ w => .ok w, fun _ => true⟩

theorem still_steady : Steady still where
  reliable := Rig.quiet_reliable
  accepted := EngineConfig.accepted_default
  samples := Driver.still_samples

/-- pauses with an event, with one of an unknown mode, and with an interrupt after an event -/
def stillPauses : List (List Happening) :=
  [[.event (.str "og")], [.event (.str "nope")], [.event (.str "extra"), .interrupt]]

def interrupted : Ending → Bool
  | .ended (.error .interrupted) => true
  | _ => false

/-- a loop that runs a mode is interrupted in its third pause -/
theorem runForever_releases_still :
    ∃ l', runForever still.taped stillPauses { scene := Scene.fresh .default () } = (.ended (.error .interrupted), l') ∧
      AtRest l'.scene ∧ l'.iterations = 3 := by
  obtain ⟨n, ending, m, hturns, -, hend⟩ := runForever_releases still_steady .default () [] (rfl :
    ({ scene := Scene.fresh .default () } : ScanLoop (Taped Unit)).scene = _) stillPauses
  have hinterrupted : interrupted (runForever still.taped stillPauses { scene := Scene.fresh .default () }).1 = true := by
    decide +kernel
  have hcount : (runForever still.taped stillPauses { scene := Scene.fresh .default () }).2.iterations = 3 := by
    decide +kernel
  cases ending with
  | unfinished =>
    rw [show runForever still.taped stillPauses _ = (.unfinished, m) from hend] at hinterrupted
    cases hinterrupted
  | ended r =>
    obtain ⟨l', hrun, -, hrest, -⟩ := hend
    rw [hrun] at hinterrupted hcount
    match r, hinterrupted, hrun with
    | .error .interrupted, _, hrun => exact ⟨l', hrun, hrest, hcount⟩

end ScanLoop
end KeyHold
