/-
The entry points as calls on the session.

Each entry point of a driver comes to one call on its session and a report of the mode after it, unless the mode that is
toggled is not registered: then nothing at all is done (`act_eq`). So a run of entry points is told by what the calls do
to the session.

- `Call.onSession`: the call on the session that an entry point comes to, and the world in which it is made.
- `Watched`: a world with the draws of seed material and the reports of changes that were made in it. Watching changes
  nothing (`step_watched`); only a start draws, once, and only the end of an entry point reports.
- `act_moves`: **every entry point** of a smooth run: a call of a mode that is registered returns and makes one move.
-/
import Mathlib.Tactic
import KeyHold.Proofs.Driver.Operation
import KeyHold.Proofs.Session.Transition
import KeyHold.Proofs.Value

namespace KeyHold

variable {ω : Type}

namespace Driver

open Act

/-! ## One call -/

/-- the stamp in force at a call: the given one, or the clock's -/
def Call.stamp (D : Driver ω) (s : Scene ω) : Call → ℤ
  | .toggle _ now => now.getD (D.host.stamp s.world)
  | .tick now => now.getD (D.host.stamp s.world)
  | .forceStop => D.host.stamp s.world

/-- the call on the session that an entry point comes to, with the world in which it is made -/
def Call.onSession (D : Driver ω) (s : Scene ω) (c : Call) : Except Fault (Session.Call × ω) :=
  match c with
  | .toggle mode _ =>
    match D.registry.get mode with
    | .error e => .error e
    | .ok p =>
      if s.session.mode.same p.name then .ok (.stop, s.world)
      else .ok (.start p (c.stamp D s) (D.host.entropy s.world).1, (D.host.entropy s.world).2)
  | .tick _ => .ok (.tick (c.stamp D s), s.world)
  | .forceStop => .ok (.stop, s.world)

/-- only a start draws seed material before its call on the session, and what is started is a policy that is registered and
not the one that runs -/
theorem Call.onSession_cases {D : Driver ω} {s : Scene ω} {c : Call} {call : Session.Call} {w : ω}
    (h : c.onSession D s = .ok (call, w)) :
    (w = s.world ∧ ∀ modes, call.Of modes) ∨ ∃ p ∈ D.registry.policies,
      s.session.mode.same p.name = false ∧ call = .start p (c.stamp D s) (D.host.entropy s.world).1 ∧
        w = (D.host.entropy s.world).2 := by
  cases c with
  | toggle mode now =>
    rw [onSession, Registry.get] at h
    cases hf : D.registry.find? mode with
    | none =>
      rw [hf] at h
      cases h
    | some p =>
      rw [hf] at h
      dsimp only at h
      split_ifs at h with hsame
      · cases h
        exact Or.inl ⟨rfl, fun _ => trivial⟩
      · cases h
        exact Or.inr ⟨p, List.mem_of_find?_eq_some hf, by simpa using hsame, rfl, rfl⟩
  | tick now =>
    cases h
    exact Or.inl ⟨rfl, fun _ => trivial⟩
  | forceStop =>
    cases h
    exact Or.inl ⟨rfl, fun _ => trivial⟩

theorem Call.onSession_taped (D : Driver ω) (s : Scene (Taped ω)) (c : Call) :
    c.onSession D s.untaped = (c.onSession D.taped s).map fun r => (r.1, r.2.world) := by
  cases c with
  | toggle mode now =>
    rw [onSession, onSession, show D.taped.registry = D.registry from rfl]
    cases D.registry.get mode with
    | error e => rfl
    | ok p =>
      dsimp only
      cases hsame : s.session.mode.same p.name <;> simp only [Scene.untaped, hsame] <;> rfl
  | tick now => rfl
  | forceStop => rfl

variable (D : Driver ω) (s : Scene ω)

/-- the world after a report, which is made only of a mode that is not the one before -/
theorem notify_eq (before : Value) :
    notify D before s = (.ok (), ⟨s.session, if s.session.mode.same before then s.world
      else D.host.changed s.session.mode s.world⟩) := by
  rw [notify, session_bind]
  cases s.session.mode.same before <;> rfl

theorem stampOr_eq (now : Option ℤ) : stampOr D now s = (.ok (now.getD (D.host.stamp s.world)), s) := by
  cases now <;> rfl

theorem check_ok {α β : Type} (a : α) (f : α → Act ω β) : (check (.ok a) >>= f) s = f a s := rfl

theorem toggle_eq (mode : Value) (now : Option ℤ) :
    toggle D mode now s = match (Call.toggle mode now).onSession D s with
      | .error e => (.error e, s)
      | .ok (call, w) => (call.act D.setup >>= fun _ => notify D s.session.mode) ⟨s.session, w⟩ := by
  rw [toggle, Call.onSession]
  cases D.registry.get mode with
  | error e => rfl
  | ok p =>
    rw [check_ok, session_bind]
    dsimp only
    cases s.session.mode.same p.name with
    | true => rfl
    | false =>
      rw [if_neg Bool.false_ne_true, if_neg Bool.false_ne_true, bind_run, stampOr_eq]
      rfl

theorem tick_eq (now : Option ℤ) :
    tick D now s =
      ((Session.Call.tick (now.getD (D.host.stamp s.world))).act D.setup >>= fun _ => notify D s.session.mode) s := by
  rw [tick, session_bind]
  cases hp : s.session.policy with
  | none =>
    -- nothing runs, so nothing is done and nothing reported
    have hmode : s.session.mode = .null := by rw [Session.mode, hp]
    have htick : (Session.Call.tick (now.getD (D.host.stamp s.world))).act D.setup s = (.ok (), s) :=
      Session.tick_early (Or.inl hp)
    rw [if_neg (by rw [Session.active, hp]; exact Bool.false_ne_true), bind_run, htick]
    dsimp only
    rw [notify_eq, hmode, Value.same_null]
    rfl
  | some p =>
    rw [if_pos (by rw [Session.active, hp]; rfl), bind_run, stampOr_eq]
    rfl

/-- **What an entry point does**: a call on the session and a report, or nothing at all. -/
theorem act_eq (c : Call) :
    c.act D s = match c.onSession D s with
      | .error e => (.error e, s)
      | .ok (call, w) => (call.act D.setup >>= fun _ => notify D s.session.mode) ⟨s.session, w⟩ := by
  cases c with
  | toggle mode now => exact toggle_eq D s mode now
  | tick now => exact tick_eq D s now
  | forceStop => rfl

theorem act_error {c : Call} {e : Fault} (h : c.onSession D s = .error e) : c.act D s = (.error e, s) := by
  rw [act_eq, h]

/-- the call on the session, and if it returns the report -/
theorem act_ok {c : Call} {call : Session.Call} {w : ω} (h : c.onSession D s = .ok (call, w)) :
    c.act D s = match call.act D.setup ⟨s.session, w⟩ with
      | (.error e, t) => (.error e, t)
      | (.ok _, t) => (.ok (), ⟨t.session, if t.session.mode.same s.session.mode then t.world
          else D.host.changed t.session.mode t.world⟩) := by
  rw [act_eq, h]
  dsimp only
  rw [bind_run]
  rcases call.act D.setup ⟨s.session, w⟩ with ⟨e | _, t⟩
  · rfl
  · exact notify_eq D t _

/-- a report leaves the session as it is -/
theorem step_session {c : Call} {call : Session.Call} {w : ω} (h : c.onSession D s = .ok (call, w)) :
    (D.step s c).session = (call.act D.setup ⟨s.session, w⟩).2.session := by
  unfold step
  rw [act_ok D s h]
  rcases call.act D.setup ⟨s.session, w⟩ with ⟨e | _, t⟩ <;> rfl

/-- the toggle of an unknown mode faults, and does nothing else -/
theorem toggle_unknown {mode : Value} (h : D.registry.contains mode = false) (now : Option ℤ) :
    toggle D mode now s = (.error (.unknownMode mode), s) := by
  have hnone : D.registry.find? mode = none := by simpa [Registry.contains] using h
  have hget : D.registry.get mode = .error (.unknownMode mode) := by rw [Registry.get, hnone]
  exact act_error D s (c := .toggle mode now) (by rw [Call.onSession, hget])

/-- the toggle of a known mode comes to a call on the session -/
theorem Call.onSession_known {mode : Value} (h : D.registry.contains mode = true) (now : Option ℤ) :
    ∃ call w, (Call.toggle mode now).onSession D s = .ok (call, w) := by
  obtain ⟨p, hf⟩ := Option.isSome_iff_exists.1 h
  have hget : D.registry.get mode = .ok p := by rw [Registry.get, hf]
  rw [onSession, hget]
  dsimp only
  split_ifs
  · exact ⟨_, _, rfl⟩
  · exact ⟨_, _, rfl⟩

end Driver

/-! ## Watched hosts -/

/-- a world, how often seed material was drawn in it, and the modes that were reported -/
structure Watched (ω : Type) where
  world : ω
  draws : ℕ := 0
  reports : List Value := []

/-- a rig in a watched world -/
def Rig.watched (R : Rig ω) : Rig (Watched ω) where
  keyDown k w := ((R.keyDown k w.world).1, { w with world := (R.keyDown k w.world).2 })
  keyUp k w := ((R.keyUp k w.world).1, { w with world := (R.keyUp k w.world).2 })
  waitUs us w := { w with world := R.waitUs us w.world }
  note e w := { w with world := R.note e w.world }

/-- a host that writes down draws and reports -/
def HostRig.watched (H : HostRig ω) : HostRig (Watched ω) where
  toRig := H.toRig.watched
  stamp w := H.stamp w.world
  entropy w := ((H.entropy w.world).1, { w with world := (H.entropy w.world).2, draws := w.draws + 1 })
  changed mode w := { w with world := H.changed mode w.world, reports := w.reports ++ [mode] }

/-- what a watched scene is without what was written down -/
def Scene.unwatched (s : Scene (Watched ω)) : Scene ω := ⟨s.session, s.world.world⟩

theorem Rig.watched_alike (R : Rig ω) : R.watched.Alike (fun v w => v.world = w) R where
  down := by rintro k v _ rfl; exact ⟨rfl, rfl⟩
  up := by rintro k v _ rfl; exact ⟨rfl, rfl⟩
  wait := by rintro us v _ rfl; rfl
  note := by rintro e v _ rfl; rfl

theorem HostRig.watched_alike (H : HostRig ω) : H.watched.Alike (fun v w => v.world = w) H where
  rig := H.toRig.watched_alike
  stamp := by rintro v _ rfl; rfl
  entropy := by rintro v _ rfl; exact ⟨rfl, rfl⟩
  changed := by rintro mode v _ rfl; rfl

/-- a session neither draws seed material nor reports -/
theorem Rig.watched_keeps (R : Rig ω) (n : ℕ) (reports : List Value) :
    R.watched.Keeps fun w => w.draws = n ∧ w.reports = reports :=
  ⟨fun _ _ h => h, fun _ _ h => h, fun _ _ h => h, fun _ _ h => h⟩

theorem Rig.Reliable.watched {R : Rig ω} (h : R.Reliable) : R.watched.Reliable := fun k w => h k w.world

namespace Driver

open Act

/-- the driver with its host watched -/
def watched (D : Driver ω) : Driver (Watched ω) := ⟨D.registry, D.config, D.noise, D.host.watched⟩

theorem run_eq_operations (D : Driver ω) (calls : List Call) (s : Scene ω) :
    D.run calls s = D.operations (calls.map .driver) s := by
  induction calls generalizing s with
  | nil => rfl
  | cons c calls ih => exact ih (D.step s c)

/-- **Watching changes nothing**: without what was written down a run is the run on the host itself. -/
theorem run_watched (D : Driver ω) (calls : List Call) (s : Scene (Watched ω)) :
    (D.watched.run calls s).unwatched = D.run calls s.unwatched := by
  rw [run_eq_operations, run_eq_operations]
  obtain ⟨h1, h2⟩ := run_alike (r := D.registry) (c := D.config) (N := D.noise) (t := s.unwatched)
    D.host.watched_alike rfl rfl (calls.map .driver)
  exact congrArg₂ Scene.mk h1 h2

/-- the start of a process on a world that is watched -/
def startWatched (g : Generator) (w : ω) : Scene (Watched ω) := ⟨{ generator := g }, { world := w }⟩

/-- taping changes nothing of a step either -/
theorem step_taped (D : Driver ω) (s : Scene (Taped ω)) (c : Call) : (D.taped.step s c).untaped = D.step s.untaped c :=
  run_taped D [.driver c] s

theorem calls_taped (D : Driver ω) (calls : List Call) (s : Scene (Taped ω)) :
    (D.taped.run calls s).untaped = D.run calls s.untaped := by
  rw [run_eq_operations, run_eq_operations]
  exact run_taped D _ s

/-- what an entry point writes down: a draw if it starts something, and a report at its end if the mode is another -/
theorem written {D : Driver ω} {s : Scene (Watched ω)} {call : Session.Call} {w : Watched ω} {c : Call}
    (h : c.onSession D.watched s = .ok (call, w)) :
    (D.watched.step s c).world.draws = w.draws ∧ (D.watched.step s c).world.reports =
      s.world.reports ++ if (c.act D.watched s).1.isOk && !(D.watched.step s c).session.mode.same s.session.mode
        then [(D.watched.step s c).session.mode] else [] := by
  have hkeep : (call.act D.watched.setup ⟨s.session, w⟩).2.world.draws = w.draws ∧
      (call.act D.watched.setup ⟨s.session, w⟩).2.world.reports = w.reports :=
    Session.run_keeps (E := D.watched.setup) (D.host.toRig.watched_keeps w.draws w.reports) (s := ⟨s.session, w⟩)
      ⟨rfl, rfl⟩ [call]
  have hreports : w.reports = s.world.reports := by
    rcases Call.onSession_cases h with ⟨rfl, -⟩ | ⟨p, -, -, -, rfl⟩ <;> rfl
  rw [hreports] at hkeep
  have hact := act_ok D.watched s h
  rcases hs : call.act D.watched.setup ⟨s.session, w⟩ with ⟨e | _, t⟩ <;> rw [hs] at hkeep hact
  · simp only [step, hact]
    exact ⟨hkeep.1, hkeep.2.trans (List.append_nil _).symm⟩
  · cases hsame : t.session.mode.same s.session.mode <;> simp only [hsame] at hact <;> simp only [step, hact, hsame]
    · exact ⟨hkeep.1, congrArg (· ++ [t.session.mode]) hkeep.2⟩
    · exact ⟨hkeep.1, hkeep.2.trans (List.append_nil _).symm⟩

/-! ## Moves -/

section Moves

open Session Tape

variable {D : Driver ω} {s : Scene (Taped ω)} {call : Session.Call} {w : Taped ω} {c : Call}

/-- **An entry point of a smooth run** that comes to a call on the session returns, and makes the move of that call. -/
theorem act_moves (hR : D.host.toRig.Reliable) (hc : D.config.Accepted)
    (hN : D.setup.SteadySamples D.registry.policies) (h : Smooth D.registry.policies s)
    (hcall : c.onSession D.taped s = .ok (call, w)) :
    (c.act D.taped s).1 = .ok () ∧ Smooth D.registry.policies (D.taped.step s c) ∧
      ∃ new, Move D.setup s.session call (D.taped.step s c).session new ∧
        (D.taped.step s c).world.tape = s.world.tape ++ new := by
  have htape : w.tape = s.world.tape := by
    rcases Call.onSession_cases hcall with ⟨rfl, -⟩ | ⟨p, -, -, -, rfl⟩ <;> rfl
  have hof : call.Of D.registry.policies := by
    rcases Call.onSession_cases hcall with ⟨-, hof⟩ | ⟨p, hp, -, rfl, -⟩
    · exact hof _
    · exact hp
  obtain ⟨hr, hafter, new, hmove, hnew⟩ := step_moves (E := D.setup) hR hc hN (h.outside htape) hof
  unfold Session.step at hafter hmove hnew
  have hact := act_ok D.taped s hcall
  unfold step
  rcases hs : call.act D.taped.setup ⟨s.session, w⟩ with ⟨e | _, t⟩ <;> rw [hs] at hact
  · rw [show call.act D.setup.taped ⟨s.session, w⟩ = (.error e, t) from hs] at hr
    cases hr
  · rw [show call.act D.setup.taped ⟨s.session, w⟩ = (.ok (), t) from hs] at hafter hmove hnew
    rw [hact]
    -- a report leaves the session and the tape as they are
    have hreport : (if t.session.mode.same s.session.mode then t.world
        else D.taped.host.changed t.session.mode t.world).tape = t.world.tape := by
      split_ifs <;> rfl
    refine ⟨rfl, hafter.outside hreport, new, hmove, ?_⟩
    rw [hreport, hnew, htape]

end Moves

end Driver
end KeyHold
