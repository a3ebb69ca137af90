/-
The toggle.

All that a driver's modes do is told by an automaton of a few lines: a toggle of the mode that is on turns it off, one
of another registered mode turns that one on, a tick turns off what has been on for as long as the timeout, and a forced
stop turns off whatever is on. Holds, gaps, bounces and the wait of a key call make no difference to it.

- `Toggled`: the automaton. It reads of each call what was called and the stamp in force (`timeline`).
- `Move.shown`: what each move of a session does to the mode that it shows.
- `Tracks`: a run and the automaton agree. `Tracks.next`: **every call** keeps this, and answers as it should.
- `run_toggles`: **whole runs**, with the draws of seed material in them.
-/
import Mathlib.Tactic
import KeyHold.Proofs.Driver.Entry
import KeyHold.Proofs.Session.ScanRate

namespace KeyHold

variable {ω : Type}

namespace Registry

/-- all names are texts -/
def Named (r : Registry) : Prop := ∀ p ∈ r.policies, ∃ name, p.name = .str name

variable {r : Registry} {mode : Value}

theorem Named.name_eq (h : r.Named) {p : Policy} (hf : r.find? mode = some p) : p.name = mode := by
  obtain ⟨name, hname⟩ := h p (List.mem_of_find?_eq_some hf)
  rw [find?] at hf
  have hsame := List.find?_some hf
  rw [hname] at hsame ⊢
  exact (Value.eq_of_str_same hsame).symm

end Registry

namespace Session

/-- the mode that runs, with the stamp of its start -/
def shown (x : Session) : Option (Value × ℤ) := x.policy.map fun p => (p.name, x.startedAt)

/-- a mode is on no longer than the timeout -/
def lapse (c : EngineConfig) (now : ℤ) (m : Option (Value × ℤ)) : Option (Value × ℤ) :=
  m.filter fun m => elapsed now m.2 < c.safetyTimeoutMs

variable {E : Setup ω} {x y : Session} {now : ℤ} {new : Tape}

theorem lapse_inTime (h : x.policy = none ∨ InTime E.config x now) : lapse E.config now x.shown = x.shown := by
  unfold lapse shown
  cases hp : x.policy with
  | none => rfl
  | some p =>
    have ht : InTime E.config x now := h.resolve_left (by simp [hp])
    exact Option.filter_some_pos (decide_eq_true ht)

theorem lapse_late (h : ¬ InTime E.config x now) : lapse E.config now x.shown = none := by
  unfold lapse shown
  cases x.policy with
  | none => rfl
  | some p => exact Option.filter_some_neg (by simpa [InTime] using h)

theorem Transition.shown (h : Transition E now x y new) :
    y.shown = lapse E.config now x.shown ∧ y.stats.sessions = x.stats.sessions := by
  cases h with
  | timedOut running late => exact ⟨(lapse_late late).symm, rfl⟩
  | parted holding inTime => exact ⟨(lapse_inTime (Or.inr inTime)).symm, rfl⟩
  | advanced holding inTime => exact ⟨(lapse_inTime (Or.inr inTime)).symm, rfl⟩
  | skipped waiting inTime => exact ⟨(lapse_inTime (Or.inr inTime)).symm, rfl⟩
  | resumed waiting inTime => exact ⟨(lapse_inTime (Or.inr inTime)).symm, rfl⟩

/-- what a call does to the mode that is shown, and whether it starts one -/
def Call.shows (c : EngineConfig) (m : Option (Value × ℤ)) : Call → Option (Value × ℤ) × ℕ
  | .start p now _ => (some (p.name, now), 1)
  | .stop => (none, 0)
  | .tick now => (lapse c now m, 0)

/-- **Every move** shows the mode that its call asks for. -/
theorem Move.shown {call : Call} (h : Move E x call y new) :
    y.shown = (call.shows E.config x.shown).1 ∧
      y.stats.sessions = x.stats.sessions + (call.shows E.config x.shown).2 := by
  cases h with
  | early hearly =>
    have ht : x.policy = none ∨ InTime E.config x _ := hearly.imp_right And.left
    exact ⟨(lapse_inTime ht).symm, rfl⟩
  | tick ht => exact ht.shown
  | rest idle => exact ⟨by rw [Session.shown, idle]; rfl, rfl⟩
  | stop running calls => exact ⟨rfl, rfl⟩
  | start calls => exact ⟨rfl, rfl⟩

end Session

namespace Driver

open Act Session

/-! ## The automaton -/

/-- the mode that is on with the stamp of its start, and how often one was turned on -/
structure Toggled where
  on : Option (Value × ℤ) := none
  starts : ℕ := 0

/-- the mode that is on, nothing if none is -/
def Toggled.mode (a : Toggled) : Value :=
  match a.on with
  | some (m, _) => m
  | none => .null

/-- the automaton after a call, at the stamp in force -/
def Toggled.next (D : Driver ω) (a : Toggled) : Call × ℤ → Toggled
  | (.toggle mode _, t) =>
    if !D.registry.contains mode then a
    else if a.mode.same mode then { a with on := none }
    else { on := some (mode, t), starts := a.starts + 1 }
  | (.tick _, t) => { a with on := lapse D.config t a.on }
  | (.forceStop, _) => { a with on := none }

/-- how a call answers: only the toggle of an unknown mode faults -/
def Call.answer (D : Driver ω) : Call → Except Fault Unit
  | .toggle mode _ => if D.registry.contains mode then .ok () else .error (.unknownMode mode)
  | _ => .ok ()

/-- the calls of a run, each with the stamp in force at it -/
def timeline (D : Driver ω) : List Call → Scene ω → List (Call × ℤ)
  | [], _ => []
  | c :: calls, s => (c, c.stamp D s) :: timeline D calls (D.step s c)

/-! ## Agreement -/

/-- a run and the automaton agree -/
structure Tracks (D : Driver ω) (s : Scene (Taped (Watched ω))) (a : Toggled) : Prop where
  smooth : Smooth D.registry.policies s
  shown : s.session.shown = a.on
  sessions : s.session.stats.sessions = a.starts
  draws : s.world.world.draws = a.starts

variable {D : Driver ω} {s : Scene (Taped (Watched ω))} {a : Toggled}

theorem Tracks.mode (h : Tracks D s a) : s.session.mode = a.mode := by
  rw [Toggled.mode, ← h.shown]
  unfold Session.mode Session.shown
  cases s.session.policy <;> rfl

theorem watched_samples (h : D.setup.SteadySamples D.registry.policies) :
    D.watched.setup.SteadySamples D.registry.policies :=
  ⟨⟨h.travel, h.bounceOff, h.bounceOn⟩, h.hold, h.gap⟩

/-- a call that comes to one on the session shows the mode that this one asks for, and draws what it drew before -/
theorem Tracks.call (hR : D.host.toRig.Reliable) (hc : D.config.Accepted)
    (hN : D.setup.SteadySamples D.registry.policies) (h : Tracks D s a) (c : Call) (call : Session.Call)
    {w : Taped (Watched ω)} (hcall : c.onSession D.watched.taped s = .ok (call, w))
    (hdraws : w.world.draws = s.world.world.draws + (call.shows D.config a.on).2) :
    (c.act D.watched.taped s).1 = .ok () ∧ Tracks D (D.watched.taped.step s c)
      ⟨(call.shows D.config a.on).1, a.starts + (call.shows D.config a.on).2⟩ := by
  obtain ⟨hr, hsmooth, new, hmove, -⟩ :=
    act_moves (D := D.watched) hR.watched hc (watched_samples hN) h.smooth hcall
  obtain ⟨hshown, hsessions⟩ := hmove.shown
  rw [h.shown] at hshown hsessions
  have hwritten : (D.watched.taped.step s c).world.world.draws = w.world.draws := by
    have huntaped : c.onSession D.watched s.untaped = .ok (call, w.world) := by
      rw [Call.onSession_taped, hcall]
      rfl
    have hstep := step_taped D.watched s c
    calc (D.watched.taped.step s c).world.world.draws
        = (D.watched.step s.untaped c).world.draws := congrArg (fun t => t.world.draws) hstep
      _ = w.world.draws := (written huntaped).1
  refine ⟨hr, hsmooth, hshown, ?_, ?_⟩
  · rw [← h.sessions]
    exact hsessions
  · rw [hwritten, hdraws, h.draws]

/-- **A call keeps the agreement** and answers as it should. -/
theorem Tracks.next (hnames : D.registry.Named) (hR : D.host.toRig.Reliable) (hc : D.config.Accepted)
    (hN : D.setup.SteadySamples D.registry.policies) (h : Tracks D s a) (c : Call) :
    (c.act D.watched.taped s).1 = c.answer D ∧
      Tracks D (D.watched.taped.step s c) (a.next D (c, c.stamp D.watched.taped s)) := by
  cases c with
  | toggle mode now =>
    cases hf : D.registry.find? mode with
    | none =>
      have hunknown : D.registry.contains mode = false := by rw [Registry.contains, hf]; rfl
      have hact : (Call.toggle mode now).act D.watched.taped s = (.error (.unknownMode mode), s) :=
        toggle_unknown D.watched.taped s hunknown now
      rw [step, hact, Call.answer, Toggled.next, hunknown]
      exact ⟨rfl, h⟩
    | some p =>
      have hknown : D.registry.contains mode = true := Option.isSome_iff_exists.2 ⟨p, hf⟩
      obtain rfl : p.name = mode := hnames.name_eq hf
      have hget : D.watched.taped.registry.get p.name = .ok p := by
        rw [Registry.get, show D.watched.taped.registry.find? p.name = some p from hf]
      rw [Call.answer, Toggled.next, hknown, ← h.mode]
      cases hsame : s.session.mode.same p.name with
      | true =>
        exact h.call hR hc hN _ .stop (w := s.world) (by rw [Call.onSession, hget]; simp only [hsame]; rfl) rfl
      | false =>
        exact h.call hR hc hN _ (.start p _ _) (by rw [Call.onSession, hget]; simp only [hsame]; rfl) rfl
  | tick now => exact h.call hR hc hN (.tick now) (.tick _) (w := s.world) rfl rfl
  | forceStop => exact h.call hR hc hN .forceStop .stop (w := s.world) rfl rfl

theorem Tracks.run (hnames : D.registry.Named) (hR : D.host.toRig.Reliable) (hc : D.config.Accepted)
    (hN : D.setup.SteadySamples D.registry.policies) (h : Tracks D s a) (calls : List Call) :
    Tracks D (D.watched.taped.run calls s) ((D.watched.taped.timeline calls s).foldl (Toggled.next D) a) := by
  induction calls generalizing s a with
  | nil => exact h
  | cons c calls ih => exact ih (h.next hnames hR hc hN c).2

/-! ## Runs -/

theorem timeline_taped (D : Driver ω) (calls : List Call) (s : Scene (Taped ω)) :
    D.taped.timeline calls s = D.timeline calls s.untaped := by
  induction calls generalizing s with
  | nil => rfl
  | cons c calls ih =>
    rw [timeline, timeline, ih, step_taped]
    cases c <;> rfl

/-- **The driver follows the toggle automaton.** Take any run of entry points, on a host whose key calls never fault, with
finite samples, an accepted configuration and modes named by texts. Watched or not it is the same run. The mode after it
is that of the automaton, and seed material was drawn as often as the automaton turned a mode on, which is as often as a
session was started. Any next call returns, unless it toggles a mode that is not registered: for every name that may be
a key this faults in every state of every host, and leaves session and world as they are. -/
theorem run_toggles (hnames : D.registry.Named) (hR : D.host.toRig.Reliable) (hc : D.config.Accepted)
    (hN : D.setup.SteadySamples D.registry.policies) (g : Generator) (w : ω) (calls : List Call) :
    let s := D.watched.run calls (startWatched g w)
    let a := (D.watched.timeline calls (startWatched g w)).foldl (Toggled.next D) {}
    s.unwatched = D.run calls ⟨{ generator := g }, w⟩ ∧
      s.session.mode = a.mode ∧ s.world.draws = a.starts ∧ s.session.stats.sessions = a.starts ∧
      (∀ c : Call, (c.act D.watched s).1 = c.answer D) ∧
      ∀ (t : Scene ω) (mode : Value) (now : Option ℤ), mode.hashable = true → D.registry.contains mode = false →
        D.toggle mode now t = (.error (.unknownMode mode), t) := by
  intro s a
  have hfresh : Tracks D (Scene.fresh g { world := w }) {} := ⟨smooth_fresh g _, rfl, rfl, rfl⟩
  have h := hfresh.run hnames hR hc hN calls
  rw [timeline_taped] at h
  have hs : (D.watched.taped.run calls (Scene.fresh g { world := w })).untaped = s := calls_taped D.watched calls _
  have hsession := congrArg Scene.session hs
  have hworld := congrArg Scene.world hs
  refine ⟨run_watched D calls _, ?_, ?_, ?_, fun c => ?_, fun t mode now _ hunknown => ?_⟩
  · rw [← hsession]
    exact h.mode
  · rw [← hworld]
    exact h.draws
  · rw [← hsession]
    exact h.sessions
  · obtain ⟨hanswer, -⟩ := h.next hnames hR hc hN c
    rw [← hanswer, ← hs]
    exact (operate_alike D.watched.host.taped_alike (.driver c) _ _ _ rfl).1.symm
  · exact toggle_unknown D t hunknown now

/-- the built-in modes on a host on which nothing comes of anything, with one value of seed material -/
def still : Driver Unit := ⟨.builtin, {}, .mean, { Rig.quiet with stamp _ := 0, entropy _ := (7, ()), changed _ _ := () }⟩

theorem still_policies : still.registry.policies = [.og, .extra] := by
  simp [still, Registry.builtin, Registry.ofList, Registry.register, Registry.put, Policy.builtin, Policy.og, Policy.extra]

theorem still_named : still.registry.Named := by
  intro p hp
  rw [still_policies] at hp
  rcases List.mem_pair.1 hp with rfl | rfl
  · exact ⟨"og", rfl⟩
  · exact ⟨"extra", rfl⟩

theorem still_samples : still.setup.SteadySamples still.registry.policies := by
  rw [still_policies]
  exact plain_samples 20 Policy.builtin (by decide +kernel)

/-- a toggle, a switch, an unknown mode, the timeout, and a toggle after it -/
def stillCalls : List Call :=
  [.toggle (.str "og") (some 0), .tick (some 900), .toggle (.str "extra") (some 1000), .toggle (.str "nope") (some 1001),
    .tick (some 151000), .toggle (.str "og") (some 151001)]

theorem run_toggles_still :
    let s := still.watched.run stillCalls (startWatched .default ())
    s.session.mode = .str "og" ∧ s.world.draws = 3 ∧ s.session.stats.sessions = 3 := by
  have hog : still.registry.contains (.str "og") = true := by decide +kernel
  have hextra : still.registry.contains (.str "extra") = true := by decide +kernel
  have hnope : still.registry.contains (.str "nope") = false := by decide +kernel
  have hkept : lapse still.config 900 (some (.str "og", 0)) = some (.str "og", 0) := rfl
  have hlapsed : lapse still.config 151000 (some (.str "extra", 1000)) = none := rfl
  have hnull : ∀ name, Value.null.same (.str name) = false := by simp [Value.same, Value.quotient?]
  have hautomaton : (still.watched.timeline stillCalls (startWatched .default ())).foldl (Toggled.next still) {} =
      ⟨some (.str "og", 151001), 3⟩ := by
    simp [stillCalls, timeline, Call.stamp, Toggled.next, Toggled.mode, hog, hextra, hnope, hkept, hlapsed, hnull]
  obtain ⟨-, hmode, hdraws, hsessions, -⟩ := run_toggles (D := still) still_named Rig.quiet_reliable
    EngineConfig.accepted_default still_samples .default () stillCalls
  rw [hautomaton] at hmode hdraws hsessions
  exact ⟨hmode, hdraws, hsessions⟩

end Driver
end KeyHold
