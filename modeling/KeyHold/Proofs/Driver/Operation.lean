/-
Sessions with and without their driver.

An `Operation` is a call made on a session directly or an entry point of the driver that owns it, so a run of
operations mixes the two in any order. What the rules for sessions say carries over:

- `Driver.run_alike`: on hosts that do the same as far as a relation of their worlds tells, runs go the same way.
- `Driver.run_keeps`, `Driver.run_taped`: what the host keeps every run keeps; taping a host changes nothing else.
- `Driver.run_inv`: every run keeps the invariant of the session.
-/
import Mathlib.Tactic
import KeyHold.Proofs.Session.Grip

namespace KeyHold

variable {ω ω' : Type}

/-- a host that keeps its key calls on tape -/
def HostRig.taped (H : HostRig ω) : HostRig (Taped ω) where
  toRig := H.toRig.taped
  stamp w := H.stamp w.world
  entropy w := ((H.entropy w.world).1, { w with world := (H.entropy w.world).2 })
  changed mode w := { w with world := H.changed mode w.world }

/-- the functions of two hosts do the same as far as `S` tells -/
structure HostRig.Alike (S : ω → ω' → Prop) (H : HostRig ω) (H' : HostRig ω') : Prop where
  rig : H.toRig.Alike S H'.toRig
  stamp : ∀ v w, S v w → H.stamp v = H'.stamp w
  entropy : ∀ v w, S v w → (H.entropy v).1 = (H'.entropy w).1 ∧ S (H.entropy v).2 (H'.entropy w).2
  changed : ∀ mode v w, S v w → S (H.changed mode v) (H'.changed mode w)

/-- `P` outlives whatever is done through the host -/
structure HostRig.Keeps (H : HostRig ω) (P : ω → Prop) : Prop where
  rig : H.toRig.Keeps P
  entropy : ∀ w, P w → P (H.entropy w).2
  changed : ∀ mode w, P w → P (H.changed mode w)

theorem HostRig.Keeps.alike {H : HostRig ω} {P : ω → Prop} (h : H.Keeps P) : H.Alike (fun v w => v = w ∧ P w) H where
  rig := h.rig.alike
  stamp := by rintro v _ ⟨rfl, -⟩; rfl
  entropy := by rintro v _ ⟨rfl, hv⟩; exact ⟨rfl, rfl, h.entropy v hv⟩
  changed := by rintro mode v _ ⟨rfl, hv⟩; exact ⟨rfl, h.changed mode v hv⟩

theorem HostRig.taped_alike (H : HostRig ω) : H.taped.Alike (fun v w => v.world = w) H where
  rig := H.toRig.taped_alike
  stamp := by rintro v _ rfl; rfl
  entropy := by rintro v _ rfl; exact ⟨rfl, rfl⟩
  changed := by rintro mode v _ rfl; rfl

/-- a call on a session, or of the driver that owns it -/
inductive Operation where
  | session (call : Session.Call)
  | driver (call : Driver.Call)

namespace Driver

open Act Tape

/-- the driver with its host taped -/
def taped (D : Driver ω) : Driver (Taped ω) := ⟨D.registry, D.config, D.noise, D.host.taped⟩

def operate (D : Driver ω) : Operation → Act ω Unit
  | .session call => call.act D.setup
  | .driver call => call.act D

/-- what operations leave, each keeping what a fault left -/
def operations (D : Driver ω) (ops : List Operation) (s : Scene ω) : Scene ω :=
  ops.foldl (fun s op => (D.operate op s).2) s

/-! ## Two worlds -/

section Alike

variable {S : ω → ω' → Prop} {r : Registry} {c : EngineConfig} {N : Noise} {H : HostRig ω} {H' : HostRig ω'}

theorem stampOr_alike (hS : H.Alike S H') (now : Option ℤ) :
    Alike S (stampOr ⟨r, c, N, H⟩ now) (stampOr ⟨r, c, N, H'⟩ now) := by
  cases now with
  | some t => exact alike_pure
  | none => exact fun x v w h => ⟨congrArg Except.ok (hS.stamp v w h), rfl, h⟩

theorem drawEntropy_alike (hS : H.Alike S H') : Alike S (drawEntropy ⟨r, c, N, H⟩) (drawEntropy ⟨r, c, N, H'⟩) :=
  fun _ v w h => ⟨congrArg Except.ok (hS.entropy v w h).1, rfl, (hS.entropy v w h).2⟩

theorem notify_alike (hS : H.Alike S H') (before : Value) :
    Alike S (notify ⟨r, c, N, H⟩ before) (notify ⟨r, c, N, H'⟩ before) := by
  refine alike_session.bind fun s => ?_
  dsimp only
  split_ifs
  · exact alike_outside (hS.changed _)
  · exact alike_pure

theorem toggle_alike (hS : H.Alike S H') (mode : Value) (now : Option ℤ) :
    Alike S (toggle ⟨r, c, N, H⟩ mode now) (toggle ⟨r, c, N, H'⟩ mode now) := by
  refine alike_check.bind fun p => alike_session.bind fun s => ?_
  dsimp only
  split_ifs
  · exact (Session.stop_alike hS.rig).bind fun _ => notify_alike hS _
  · refine (stampOr_alike hS now).bind fun t => (drawEntropy_alike hS).bind fun n => ?_
    exact (Session.start_alike hS.rig p t n).bind fun _ => notify_alike hS _

theorem tick_alike (hS : H.Alike S H') (now : Option ℤ) :
    Alike S (tick ⟨r, c, N, H⟩ now) (tick ⟨r, c, N, H'⟩ now) := by
  refine alike_session.bind fun s => ?_
  split_ifs
  · refine (stampOr_alike hS now).bind fun t => alike_session.bind fun _ => ?_
    exact (Session.tick_alike hS.rig t).bind fun _ => notify_alike hS _
  · exact alike_pure

theorem forceStop_alike (hS : H.Alike S H') : Alike S (forceStop ⟨r, c, N, H⟩) (forceStop ⟨r, c, N, H'⟩) :=
  alike_session.bind fun _ => (Session.stop_alike hS.rig).bind fun _ => notify_alike hS _

theorem operate_alike (hS : H.Alike S H') (op : Operation) :
    Alike S (operate ⟨r, c, N, H⟩ op) (operate ⟨r, c, N, H'⟩ op) := by
  rcases op with call | (⟨mode, now⟩ | now | _)
  · exact Session.call_alike hS.rig call
  · exact toggle_alike hS mode now
  · exact tick_alike hS now
  · exact forceStop_alike hS

/-- **Runs on hosts that do the same** go the same way. -/
theorem run_alike (hS : H.Alike S H') {s : Scene ω} {t : Scene ω'} (hs : s.session = t.session)
    (hw : S s.world t.world) (ops : List Operation) :
    (operations ⟨r, c, N, H⟩ ops s).session = (operations ⟨r, c, N, H'⟩ ops t).session ∧
      S (operations ⟨r, c, N, H⟩ ops s).world (operations ⟨r, c, N, H'⟩ ops t).world := by
  induction ops generalizing s t with
  | nil => exact ⟨hs, hw⟩
  | cons op ops ih =>
    obtain ⟨x, v⟩ := s
    obtain ⟨y, w⟩ := t
    obtain rfl : x = y := hs
    obtain ⟨-, h2, h3⟩ := operate_alike hS op x v w hw
    exact ih h2 h3

end Alike

/-- what the host keeps every run keeps -/
theorem run_keeps {D : Driver ω} {P : ω → Prop} (hP : D.host.Keeps P) {s : Scene ω} (h : P s.world)
    (ops : List Operation) : P (D.operations ops s).world :=
  (run_alike hP.alike rfl ⟨rfl, h⟩ ops).2.2

/-- without the tape a run is the run on the host itself -/
theorem run_taped (D : Driver ω) (ops : List Operation) (s : Scene (Taped ω)) :
    (D.taped.operations ops s).untaped = D.operations ops s.untaped := by
  obtain ⟨h1, h2⟩ := run_alike (r := D.registry) (c := D.config) (N := D.noise) (t := s.untaped) D.host.taped_alike
    rfl rfl ops
  exact congrArg₂ Scene.mk h1 h2

/-! ## The invariant -/

section Invariant

open Session

variable {D : Driver ω} {s : Scene (Taped ω)}

theorem notify_ends {before : Value} {Q : Unit → Scene (Taped ω) → Prop} {F : Fault → Scene (Taped ω) → Prop}
    (hQ : ∀ v, Q () { s with world := ⟨v, s.world.tape⟩ }) : Ends (notify D.taped before) s Q F := by
  rw [notify, ends_bind, ends_session]
  dsimp only
  split_ifs
  · exact hQ _
  · exact hQ s.world.world

/-- an operation of the session that is followed by a report -/
theorem reported_ends {act : Act (Taped ω) Unit} {before : Value}
    (h : Ends act s (fun _ t => Fine t) (fun _ t => Inv D.config t)) :
    Ends (act >>= fun _ => notify D.taped before) s (fun _ t => Fine t) (fun _ t => Inv D.config t) := by
  rw [ends_bind]
  refine h.mono (fun _ t ht => notify_ends fun v => ?_) (fun _ _ ht => ht)
  exact ⟨ht.settled, ht.grip⟩

theorem stampOr_ends {now : Option ℤ} {Q : ℤ → Scene (Taped ω) → Prop} {F : Fault → Scene (Taped ω) → Prop}
    (hQ : ∀ t, Q t s) : Ends (stampOr D.taped now) s Q F := by
  cases now with
  | some t => exact hQ t
  | none => exact hQ _

theorem toggle_ends (hN : D.setup.SteadyWaits) (h : Inv D.config s) (mode : Value) (now : Option ℤ) :
    Ends (toggle D.taped mode now) s (fun _ t => Fine t) (fun _ t => Inv D.config t) := by
  rw [toggle, ends_bind, ends_check]
  cases D.taped.registry.get mode with
  | error e => exact h
  | ok p =>
    dsimp only
    rw [ends_bind, ends_session]
    split_ifs
    · exact reported_ends (call_ends (E := D.setup) hN h .stop)
    · rw [ends_bind]
      refine stampOr_ends fun t => ?_
      rw [ends_bind]
      show Ends (start D.setup.taped p t _ >>= fun _ => notify D.taped _) _ _ _
      apply reported_ends
      apply call_ends (E := D.setup) hN _ (.start p t _)
      exact ⟨h.coherent, h.grip, h.settled⟩

theorem tick_ends (hN : D.setup.SteadyWaits) (h : Inv D.config s) (now : Option ℤ) :
    Ends (tick D.taped now) s (fun _ t => Fine t) (fun _ t => Inv D.config t) := by
  rw [tick, ends_bind, ends_session]
  split_ifs with ha
  · rw [ends_bind]
    refine stampOr_ends fun t => ?_
    rw [ends_bind, ends_session]
    exact reported_ends (call_ends (E := D.setup) hN h (.tick t))
  · refine ⟨.idle (h.coherent.idle ?_), h.grip⟩
    simpa [Session.active] using ha

theorem forceStop_ends (hN : D.setup.SteadyWaits) (h : Inv D.config s) :
    Ends (forceStop D.taped) s (fun _ t => Fine t) (fun _ t => Inv D.config t) := by
  rw [forceStop, ends_bind, ends_session]
  exact reported_ends (call_ends (E := D.setup) hN h .stop)

/-- an operation keeps the invariant, and leaves a settled session if it returns -/
theorem operate_ends (hN : D.setup.SteadyWaits) (h : Inv D.config s) (op : Operation) :
    Ends (D.taped.operate op) s (fun _ t => Fine t) (fun _ t => Inv D.config t) := by
  rcases op with call | (⟨mode, now⟩ | now | _)
  · exact call_ends (E := D.setup) hN h call
  · exact toggle_ends hN h mode now
  · exact tick_ends hN h now
  · exact forceStop_ends hN h

/-- **Every run of operations keeps the invariant.** -/
theorem run_inv (hN : D.setup.SteadyWaits) (h : Inv D.config s) (ops : List Operation) :
    Inv D.config (D.taped.operations ops s) := by
  induction ops generalizing s with
  | nil => exact h
  | cons op ops ih =>
    exact ih (Ends.after ((operate_ends hN h op).mono (fun _ _ ht => ht.inv) (fun _ _ ht => ht)))

end Invariant

end Driver
end KeyHold
