/-
Hosts on film.

What holds at all times of a run holds not only of the state that it leaves. A filmed host keeps the worlds that were
there, one after each thing done through it.

- `HostRig.Keeps.filmed`: what the host keeps holds of every frame.
- `HostRig.taped_filmed_keeps`: the tape of a frame is a beginning of the present one.
- `run_filmed`: without the film a run is the run on the host itself.
-/
import Mathlib.Tactic
import KeyHold.Proofs.Driver.Operation

namespace KeyHold

/-- a world and those before it, the oldest first -/
structure Filmed (ω : Type) where
  world : ω
  film : List ω := []

variable {ω : Type}

/-- what a filmed scene is without its film -/
def Scene.unfilmed (s : Scene (Filmed ω)) : Scene ω := ⟨s.session, s.world.world⟩

/-- the next frame -/
def Filmed.next (w : Filmed ω) (v : ω) : Filmed ω := ⟨v, w.film ++ [v]⟩

/-- a host that keeps the world after each thing done through it -/
def HostRig.filmed (H : HostRig ω) : HostRig (Filmed ω) where
  keyDown k w := ((H.keyDown k w.world).1, w.next (H.keyDown k w.world).2)
  keyUp k w := ((H.keyUp k w.world).1, w.next (H.keyUp k w.world).2)
  waitUs us w := w.next (H.waitUs us w.world)
  note e w := w.next (H.note e w.world)
  stamp w := H.stamp w.world
  entropy w := ((H.entropy w.world).1, w.next (H.entropy w.world).2)
  changed mode w := w.next (H.changed mode w.world)

theorem HostRig.filmed_alike (H : HostRig ω) : H.filmed.Alike (fun v w => v.world = w) H where
  rig :=
    { down := by rintro k v _ rfl; exact ⟨rfl, rfl⟩
      up := by rintro k v _ rfl; exact ⟨rfl, rfl⟩
      wait := by rintro us v _ rfl; rfl
      note := by rintro e v _ rfl; rfl }
  stamp := by rintro v _ rfl; rfl
  entropy := by rintro v _ rfl; exact ⟨rfl, rfl⟩
  changed := by rintro mode v _ rfl; rfl

theorem HostRig.Keeps.filmed {H : HostRig ω} {P : ω → Prop} (h : H.Keeps P) :
    H.filmed.Keeps fun w => P w.world ∧ ∀ v ∈ w.film, P v := by
  have next : ∀ (w : Filmed ω) v, P v → (∀ u ∈ w.film, P u) → P (w.next v).world ∧ ∀ u ∈ (w.next v).film, P u := by
    intro w v hv hw
    refine ⟨hv, fun u hu => ?_⟩
    rcases List.mem_append.1 hu with hu | hu
    · exact hw u hu
    · exact List.mem_singleton.1 hu ▸ hv
  refine ⟨⟨?_, ?_, ?_, ?_⟩, ?_, ?_⟩
  · exact fun k w hw => next w _ (h.rig.down k w.world hw.1) hw.2
  · exact fun k w hw => next w _ (h.rig.up k w.world hw.1) hw.2
  · exact fun us w hw => next w _ (h.rig.wait us w.world hw.1) hw.2
  · exact fun e w hw => next w _ (h.rig.note e w.world hw.1) hw.2
  · exact fun w hw => next w _ (h.entropy w.world hw.1) hw.2
  · exact fun mode w hw => next w _ (h.changed mode w.world hw.1) hw.2

/-- the tape of a frame is a beginning of the present one -/
theorem HostRig.taped_filmed_keeps (H : HostRig ω) :
    H.taped.filmed.Keeps fun w => ∀ v ∈ w.film, v.tape <+: w.world.tape := by
  have next : ∀ (w : Filmed (Taped ω)) (v : Taped ω), w.world.tape <+: v.tape →
      (∀ u ∈ w.film, u.tape <+: w.world.tape) → ∀ u ∈ (w.next v).film, u.tape <+: v.tape := by
    intro w v hv hw u hu
    rcases List.mem_append.1 hu with hu | hu
    · exact (hw u hu).trans hv
    · exact List.mem_singleton.1 hu ▸ List.prefix_refl _
  refine ⟨⟨?_, ?_, ?_, ?_⟩, ?_, ?_⟩
  · exact fun k w hw => next w _ (List.prefix_append _ _) hw
  · exact fun k w hw => next w _ (List.prefix_append _ _) hw
  · exact fun us w hw => next w _ (List.prefix_refl _) hw
  · exact fun e w hw => next w _ (List.prefix_refl _) hw
  · exact fun w hw => next w _ (List.prefix_refl _) hw
  · exact fun mode w hw => next w _ (List.prefix_refl _) hw

namespace Driver

/-- the driver with its host filmed -/
def filmed (D : Driver ω) : Driver (Filmed ω) := ⟨D.registry, D.config, D.noise, D.host.filmed⟩

/-- without the film a run is the run on the host itself -/
theorem run_filmed (D : Driver ω) (ops : List Operation) (s : Scene (Filmed ω)) :
    (D.filmed.operations ops s).unfilmed = D.operations ops s.unfilmed := by
  obtain ⟨h1, h2⟩ := run_alike (r := D.registry) (c := D.config) (N := D.noise) (t := s.unfilmed)
    D.host.filmed_alike rfl rfl ops
  exact congrArg₂ Scene.mk h1 h2

end Driver
end KeyHold
