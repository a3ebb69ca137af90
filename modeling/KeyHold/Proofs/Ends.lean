/-
How an operation ends.

An operation over states either returns or faults, and keeps what it did in both cases. `Ends act s Q F` says of its
run from `s` that it ends in `Q` if it returns and in `F` if it faults. There is one rule for each way in which
operations are built, so the end of a whole operation unfolds into what is asked of its parts, fault by fault.

- `ends_bind`, `Ends.mono`: sequencing and weakening; the other `ends_` rules are those of the single actions.
- `Alike S act act'`: from worlds related by `S` two operations end in the same way, with the same session, in worlds
  related by `S`. It is asked of the four functions of two rigs (`Rig.Alike`) and then holds of what is done through
  them. That an operation keeps a property of the world is the case of one rig, and of `S` within equality.
-/
import Mathlib.Tactic
import KeyHold.Session.Basic

namespace KeyHold

variable {σ α β : Type}

theorem Session.active_iff {x : Session} : x.active = true ↔ x.policy ≠ none := Option.isSome_iff_ne_none

/-- from `s`, `act` ends in `Q` if it returns and in `F` if it faults -/
def Ends (act : ExceptT Fault (StateM σ) α) (s : σ) (Q : α → σ → Prop) (F : Fault → σ → Prop) : Prop :=
  match act s with
  | (.ok a, t) => Q a t
  | (.error e, t) => F e t

section Rules

variable {act : ExceptT Fault (StateM σ) α} {s : σ} {Q : α → σ → Prop} {F : Fault → σ → Prop}

theorem bind_run (act : ExceptT Fault (StateM σ) α) (f : α → ExceptT Fault (StateM σ) β) (s : σ) :
    (act >>= f) s = match act s with
      | (.ok a, t) => f a t
      | (.error e, t) => (.error e, t) := by
  show (StateT.bind act (ExceptT.bindCont f)) s = _
  unfold StateT.bind
  rcases act s with ⟨_ | a, t⟩ <;> rfl

theorem ends_bind {f : α → ExceptT Fault (StateM σ) β} {Q : β → σ → Prop} :
    Ends (act >>= f) s Q F ↔ Ends act s (fun a t => Ends (f a) t Q F) F := by
  unfold Ends
  rw [bind_run]
  rcases act s with ⟨_ | a, t⟩ <;> rfl

theorem ends_pure {a : α} : Ends (pure a) s Q F ↔ Q a s := Iff.rfl

theorem ends_get {Q : σ → σ → Prop} : Ends get s Q F ↔ Q s s := Iff.rfl

theorem ends_modify {f : σ → σ} {Q : Unit → σ → Prop} : Ends (modify f) s Q F ↔ Q () (f s) := Iff.rfl

theorem Ends.mono {Q' : α → σ → Prop} {F' : Fault → σ → Prop} (h : Ends act s Q F) (hQ : ∀ a t, Q a t → Q' a t)
    (hF : ∀ e t, F e t → F' e t) : Ends act s Q' F' := by
  unfold Ends at *
  rcases hr : act s with ⟨e | a, t⟩
  · rw [hr] at h; exact hF e t h
  · rw [hr] at h; exact hQ a t h

/-- what holds of either end is what holds of the state after the run -/
theorem ends_iff_after {P : σ → Prop} : Ends act s (fun _ t => P t) (fun _ t => P t) ↔ P (act s).2 := by
  unfold Ends
  rcases act s with ⟨e | a, t⟩ <;> exact Iff.rfl

theorem Ends.after {P : σ → Prop} (h : Ends act s (fun _ t => P t) (fun _ t => P t)) : P (act s).2 := ends_iff_after.1 h

/-- an operation that cannot fault returns -/
theorem Ends.returns {Q : α → σ → Prop} (h : Ends act s Q fun _ _ => False) :
    ∃ a, (act s).1 = .ok a ∧ Q a (act s).2 := by
  unfold Ends at h
  rcases hr : act s with ⟨e | a, t⟩
  · rw [hr] at h; exact h.elim
  · rw [hr] at h; exact ⟨a, rfl, h⟩

end Rules

namespace Act

variable {ω : Type} {act : Act ω α} {s : Scene ω} {Q : α → Scene ω → Prop} {F : Fault → Scene ω → Prop}

theorem session_bind {f : Session → Act ω α} (s : Scene ω) : (session >>= f) s = f s.session s := rfl

theorem ends_session {Q : Session → Scene ω → Prop} : Ends session s Q F ↔ Q s.session s := Iff.rfl

theorem ends_change {f : Session → Session} {Q : Unit → Scene ω → Prop} :
    Ends (change f) s Q F ↔ Q () { s with session := f s.session } := Iff.rfl

theorem ends_outside {f : ω → ω} {Q : Unit → Scene ω → Prop} :
    Ends (outside f) s Q F ↔ Q () { s with world := f s.world } := Iff.rfl

theorem ends_draw {f : Generator → α × Generator} :
    Ends (draw f) s Q F ↔
      Q (f s.session.generator).1 { s with session.generator := (f s.session.generator).2 } := Iff.rfl

theorem ends_check {r : Except Fault α} :
    Ends (check r) s Q F ↔ match r with
      | .ok a => Q a s
      | .error e => F e s := by
  cases r <;> rfl

theorem ends_attempt {f : ω → Except Fault α × ω} :
    Ends (attempt f) s Q F ↔ match f s.world with
      | (.ok a, w) => Q a { s with world := w }
      | (.error e, w) => F e { s with world := w } := by
  unfold Ends attempt
  rcases f s.world with ⟨_ | a, w⟩ <;> rfl

theorem ends_afterwards {f : Session → Session} :
    Ends (afterwards f act) s Q F ↔ Ends act s (fun a t => Q a { t with session := f t.session })
      (fun e t => F e { t with session := f t.session }) := by
  unfold Ends afterwards
  rcases act s with ⟨_ | a, t⟩ <;> rfl

/-! ## Two worlds -/

variable {ω' : Type} {S : ω → ω' → Prop} {act' : Act ω' α}

/-- from worlds related by `S` the two end in the same way, with the same session, in worlds related by `S` -/
def Alike (S : ω → ω' → Prop) (act : Act ω α) (act' : Act ω' α) : Prop :=
  ∀ x v w, S v w → (act ⟨x, v⟩).1 = (act' ⟨x, w⟩).1 ∧ (act ⟨x, v⟩).2.session = (act' ⟨x, w⟩).2.session ∧
    S (act ⟨x, v⟩).2.world (act' ⟨x, w⟩).2.world

theorem Alike.bind {f : α → Act ω β} {f' : α → Act ω' β} (ha : Alike S act act') (hf : ∀ a, Alike S (f a) (f' a)) :
    Alike S (act >>= f) (act' >>= f') := by
  intro x v w h
  obtain ⟨h1, h2, h3⟩ := ha x v w h
  rw [bind_run, bind_run]
  rcases hr : act ⟨x, v⟩ with ⟨_ | a, ⟨y, v'⟩⟩
  · rcases hr' : act' ⟨x, w⟩ with ⟨_ | a', ⟨y', w'⟩⟩ <;> rw [hr, hr'] at h1 h2 h3 <;> cases h1
    exact ⟨rfl, h2, h3⟩
  · rcases hr' : act' ⟨x, w⟩ with ⟨_ | a', ⟨y', w'⟩⟩ <;> rw [hr, hr'] at h1 h2 h3 <;> cases h1
    obtain rfl : y = y' := h2
    exact hf a y v' w' h3

theorem alike_pure {a : α} : Alike S (pure a : Act ω α) (pure a) := fun _ _ _ h => ⟨rfl, rfl, h⟩

theorem alike_session : Alike S (session : Act ω Session) session := fun _ _ _ h => ⟨rfl, rfl, h⟩

theorem alike_change {f : Session → Session} : Alike S (change f) (change f) := fun _ _ _ h => ⟨rfl, rfl, h⟩

theorem alike_draw {f : Generator → α × Generator} : Alike S (draw f) (draw f) := fun _ _ _ h => ⟨rfl, rfl, h⟩

theorem alike_check {r : Except Fault α} : Alike S (check r) (check r) := fun _ _ _ h => ⟨rfl, rfl, h⟩

theorem alike_outside {f : ω → ω} {f' : ω' → ω'} (hf : ∀ v w, S v w → S (f v) (f' w)) :
    Alike S (outside f) (outside f') := fun _ v w h => ⟨rfl, rfl, hf v w h⟩

theorem alike_attempt {f : ω → Except Fault α × ω} {f' : ω' → Except Fault α × ω'}
    (hf : ∀ v w, S v w → (f v).1 = (f' w).1 ∧ S (f v).2 (f' w).2) : Alike S (attempt f) (attempt f') :=
  fun _ v w h => ⟨(hf v w h).1, rfl, (hf v w h).2⟩

theorem Alike.afterwards {f : Session → Session} (ha : Alike S act act') :
    Alike S (Act.afterwards f act) (Act.afterwards f act') := by
  intro x v w h
  obtain ⟨h1, h2, h3⟩ := ha x v w h
  exact ⟨h1, congrArg f h2, h3⟩

theorem alike_forM {f : α → Act ω Unit} {f' : α → Act ω' Unit} (hf : ∀ a, Alike S (f a) (f' a)) (l : List α) :
    Alike S (l.forM f) (l.forM f') := by
  induction l with
  | nil => exact alike_pure
  | cons a l ih => exact (hf a).bind fun _ => ih

end Act

/-- the functions of two rigs do the same as far as `S` tells -/
structure Rig.Alike {ω ω' : Type} (S : ω → ω' → Prop) (R : Rig ω) (R' : Rig ω') : Prop where
  down : ∀ k v w, S v w → (R.keyDown k v).1 = (R'.keyDown k w).1 ∧ S (R.keyDown k v).2 (R'.keyDown k w).2
  up : ∀ k v w, S v w → (R.keyUp k v).1 = (R'.keyUp k w).1 ∧ S (R.keyUp k v).2 (R'.keyUp k w).2
  wait : ∀ us v w, S v w → S (R.waitUs us v) (R'.waitUs us w)
  note : ∀ e v w, S v w → S (R.note e v) (R'.note e w)

/-- `P` outlives whatever is done through the rig -/
structure Rig.Keeps {ω : Type} (R : Rig ω) (P : ω → Prop) : Prop where
  down : ∀ k w, P w → P (R.keyDown k w).2
  up : ∀ k w, P w → P (R.keyUp k w).2
  wait : ∀ us w, P w → P (R.waitUs us w)
  note : ∀ e w, P w → P (R.note e w)

/-- a rig that keeps `P` is like itself on equal worlds with `P` -/
theorem Rig.Keeps.alike {ω : Type} {R : Rig ω} {P : ω → Prop} (h : R.Keeps P) :
    R.Alike (fun v w => v = w ∧ P w) R where
  down := by rintro k v _ ⟨rfl, hv⟩; exact ⟨rfl, rfl, h.down k v hv⟩
  up := by rintro k v _ ⟨rfl, hv⟩; exact ⟨rfl, rfl, h.up k v hv⟩
  wait := by rintro us v _ ⟨rfl, hv⟩; exact ⟨rfl, h.wait us v hv⟩
  note := by rintro e v _ ⟨rfl, hv⟩; exact ⟨rfl, h.note e v hv⟩

end KeyHold
