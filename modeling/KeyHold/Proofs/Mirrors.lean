/-
Operations at two stamps.

A session is put on other stamps by `Session.restamp`. What an operation does on it is compared with what it, or the
same at another time, does on the session itself.

- `Blind act`: stamps are neither read nor written, so `act` does the same on any stamps and leaves them; and nothing
  new runs, is held or pends after it (`Quiet`).
- `Mirrors act' act s a b Q F`: on the stamps `a` and `b`, `act'` does what `act` does from `s`: it ends in the same
  way, in the same world, with a session that is the same up to the stamps, and these are in `Q` if it returns and in
  `F` if it faults. There is one rule for each way in which operations are built, as for `Ends`.
-/
import Mathlib.Tactic
import KeyHold.Proofs.Ends

namespace KeyHold

variable {ω α β : Type}

/-- the session with other stamps -/
def Session.restamp (x : Session) (a b : ℤ) : Session := { x with startedAt := a, phaseAt := b }

def Scene.restamp (s : Scene ω) (a b : ℤ) : Scene ω := { s with session := s.session.restamp a b }

namespace Session

/-- the stamps are the same, and what runs, is held or pends was there before -/
structure Quiet (x y : Session) : Prop where
  started : y.startedAt = x.startedAt
  phase : y.phaseAt = x.phaseAt
  phases : y.stats.phases = x.stats.phases
  policy : x.policy = none → y.policy = none
  held : x.held = [] → y.held = []
  glitch : x.glitch = none → y.glitch = none

theorem Quiet.refl (x : Session) : Quiet x x := ⟨rfl, rfl, rfl, id, id, id⟩

theorem Quiet.trans {x y z : Session} (h : Quiet x y) (h' : Quiet y z) : Quiet x z :=
  ⟨h'.started.trans h.started, h'.phase.trans h.phase, h'.phases.trans h.phases, h'.policy ∘ h.policy,
    h'.held ∘ h.held, h'.glitch ∘ h.glitch⟩

end Session

namespace Act

open Session

/-! ## Blind operations -/

/-- the stamps are neither read nor written, and nothing new runs, is held or pends -/
structure Blind (act : Act ω α) : Prop where
  same : ∀ s a b, act (s.restamp a b) = ((act s).1, (act s).2.restamp a b)
  quiet : ∀ s, Quiet s.session (act s).2.session

theorem Blind.bind {act : Act ω α} {f : α → Act ω β} (ha : Blind act) (hf : ∀ v, Blind (f v)) : Blind (act >>= f) := by
  constructor
  · intro s a b
    rw [bind_run, bind_run, ha.same]
    rcases act s with ⟨_ | v, t⟩
    · rfl
    · exact (hf v).same t a b
  · intro s
    have h := ha.quiet s
    rw [bind_run]
    rcases hr : act s with ⟨_ | v, t⟩ <;> rw [hr] at h
    · exact h
    · exact h.trans ((hf v).quiet t)

theorem blind_pure {v : α} : Blind (pure v : Act ω α) := ⟨fun _ _ _ => rfl, fun _ => Quiet.refl _⟩

theorem blind_draw {f : Generator → α × Generator} : Blind (draw f : Act ω α) :=
  ⟨fun _ _ _ => rfl, fun _ => ⟨rfl, rfl, rfl, id, id, id⟩⟩

theorem blind_check {r : Except Fault α} : Blind (check r : Act ω α) := ⟨fun _ _ _ => rfl, fun _ => Quiet.refl _⟩

theorem blind_outside {f : ω → ω} : Blind (outside f) := ⟨fun _ _ _ => rfl, fun _ => Quiet.refl _⟩

theorem blind_attempt {f : ω → Except Fault α × ω} : Blind (attempt f) := ⟨fun _ _ _ => rfl, fun _ => Quiet.refl _⟩

theorem blind_change {f : Session → Session} (hf : ∀ x a b, f (x.restamp a b) = (f x).restamp a b)
    (hq : ∀ x, Quiet x (f x)) : Blind (change f : Act ω Unit) := by
  constructor
  · intro s a b
    show ((.ok (), ⟨f (s.session.restamp a b), s.world⟩) : Except Fault Unit × Scene ω) = _
    rw [hf]
    rfl
  · exact fun s => hq s.session

/-- what is read of a session to go on with is not a stamp -/
theorem blind_session {f : Session → Act ω α} (hs : ∀ x a b, f (x.restamp a b) = f x) (hf : ∀ x, Blind (f x)) :
    Blind (session >>= f) := by
  constructor
  · intro s a b
    rw [session_bind, session_bind]
    show f (s.session.restamp a b) (s.restamp a b) = _
    rw [hs]
    exact (hf s.session).same s a b
  · intro s
    exact (hf s.session).quiet s

theorem Blind.afterwards {act : Act ω α} {f : Session → Session} (ha : Blind act)
    (hf : ∀ x a b, f (x.restamp a b) = (f x).restamp a b) (hq : ∀ x, Quiet x (f x)) : Blind (afterwards f act) := by
  constructor
  · intro s a b
    unfold Act.afterwards
    rw [ha.same]
    show (_, (⟨f ((act s).2.session.restamp a b), _⟩ : Scene ω)) = _
    rw [hf]
    rfl
  · exact fun s => (ha.quiet s).trans (hq _)

theorem blind_forM {f : α → Act ω Unit} (hf : ∀ v, Blind (f v)) (l : List α) : Blind (l.forM f) := by
  induction l with
  | nil => exact blind_pure
  | cons v l ih => exact (hf v).bind fun _ => ih

/-! ## Two runs -/

/-- from the session of `s` with the stamps `a` and `b`, `act'` does what `act` does from `s`, up to the stamps; these
are then in `Q` if it returns and in `F` if it faults -/
def Mirrors (act' act : Act ω α) (s : Scene ω) (a b : ℤ) (Q F : Session → ℤ → ℤ → Prop) : Prop :=
  ∃ a' b', act' (s.restamp a b) = ((act s).1, (act s).2.restamp a' b') ∧
    Ends act s (fun _ t => Q t.session a' b') (fun _ t => F t.session a' b')

variable {act act' : Act ω α} {s : Scene ω} {a b : ℤ} {Q F : Session → ℤ → ℤ → Prop}

theorem Mirrors.bind {f f' : α → Act ω β} {R : Session → ℤ → ℤ → Prop} (h : Mirrors act' act s a b Q F)
    (hf : ∀ v t a b, Q t.session a b → Mirrors (f' v) (f v) t a b R F) :
    Mirrors (act' >>= f') (act >>= f) s a b R F := by
  obtain ⟨a', b', hsame, hends⟩ := h
  unfold Ends at hends
  unfold Mirrors Ends
  rw [bind_run, bind_run, hsame]
  rcases hr : act s with ⟨e | v, t⟩ <;> rw [hr] at hends
  · exact ⟨a', b', rfl, hends⟩
  · exact hf v t a' b' hends

theorem Mirrors.mono {Q' F' : Session → ℤ → ℤ → Prop} (h : Mirrors act' act s a b Q F)
    (hQ : ∀ x a b, Q x a b → Q' x a b) (hF : ∀ x a b, F x a b → F' x a b) : Mirrors act' act s a b Q' F' := by
  obtain ⟨a', b', hsame, hends⟩ := h
  exact ⟨a', b', hsame, hends.mono (fun _ _ ht => hQ _ _ _ ht) (fun _ _ ht => hF _ _ _ ht)⟩

/-- what holds of the session after `act` -/
theorem Mirrors.after {P : Session → Prop} (h : Mirrors act' act s a b Q F) (hP : P (act s).2.session) :
    Mirrors act' act s a b (fun x a b => Q x a b ∧ P x) (fun x a b => F x a b ∧ P x) := by
  obtain ⟨a', b', hsame, hends⟩ := h
  refine ⟨a', b', hsame, ?_⟩
  unfold Ends at *
  rcases hr : act s with ⟨e | v, t⟩ <;> rw [hr] at hends hP <;> exact ⟨hends, hP⟩

theorem mirrors_pure {v : α} (h : Q s.session a b) : Mirrors (pure v) (pure v) s a b Q F := ⟨a, b, rfl, h⟩

theorem mirrors_session {f f' : Session → Act ω α}
    (h : Mirrors (f' (s.session.restamp a b)) (f s.session) s a b Q F) :
    Mirrors (session >>= f') (session >>= f) s a b Q F := h

/-- a change of the session, which may set stamps -/
theorem mirrors_change {f f' : Session → Session} (a' b' : ℤ)
    (hf : f' (s.session.restamp a b) = (f s.session).restamp a' b') (h : Q (f s.session) a' b') :
    Mirrors (change f') (change f) s a b Q F := by
  refine ⟨a', b', ?_, h⟩
  show ((.ok (), ⟨f' (s.session.restamp a b), s.world⟩) : Except Fault Unit × Scene ω) = _
  rw [hf]
  rfl

theorem Blind.mirrors (ha : Blind act) (hQ : ∀ y, Quiet s.session y → Q y a b)
    (hF : ∀ y, Quiet s.session y → F y a b) : Mirrors act act s a b Q F := by
  refine ⟨a, b, ha.same s a b, ?_⟩
  have hq := ha.quiet s
  unfold Ends
  rcases hr : act s with ⟨e | v, t⟩ <;> rw [hr] at hq
  · exact hF _ hq
  · exact hQ _ hq

end Act

end KeyHold
