/-
Key calls on tape.

A taped rig keeps the key calls made through it, in order, each with whether the effector took it. A call that is not
taken leaves the key as it was.

- `asserted t`: the keys that are down after the calls of `t`.
- `Grip t held`: the calls of one hand. It presses only with nothing in hand and lets go only of what it holds; a
  press that is not taken leaves it empty, a release empties it whether it is taken or not. `held` is what it then
  holds.
- `Stuck k t`: a release of `k` was not taken, and none was since.

Results about a hand:
- `Grip.tried`: a key that was pressed and is no longer held has had a release tried since.
- `Grip.mem_asserted`: the keys that are down are those in hand and those that are stuck.
- `Grip.asserted_eq`, `Grip.word`: if every call was taken, the keys that are down are those in hand, and the calls
  are presses each followed by its release, then the press of the key in hand.
-/
import Mathlib.Tactic
import KeyHold.Driver
import KeyHold.Effector.Recorder
import KeyHold.Proofs.Ends
import KeyHold.Proofs.Sequence

namespace KeyHold

/-- a key call as it was made -/
structure Attempt where
  direction : Direction
  key : String
  /-- the effector did not fault -/
  taken : Bool
deriving DecidableEq, Repr

abbrev Tape := List Attempt

namespace Tape

/-- what a call does to the keys that are down -/
def effect (keys : List String) (a : Attempt) : List String :=
  match a with
  | ⟨.down, k, true⟩ => if k ∈ keys then keys else keys ++ [k]
  | ⟨.up, k, true⟩ => keys.erase k
  | _ => keys

/-- the keys that are down after the calls of a tape -/
def asserted (t : Tape) : List String := t.foldl effect []

/-- a call without its outcome -/
def move (a : Attempt) : Direction × String := (a.direction, a.key)

/-- the calls of one hand, which then holds the given keys -/
inductive Grip : Tape → List String → Prop
  | empty : Grip [] []
  | missed {t : Tape} (k : String) (h : Grip t []) : Grip (t ++ [⟨.down, k, false⟩]) []
  | pressed {t : Tape} (k : String) (h : Grip t []) : Grip (t ++ [⟨.down, k, true⟩]) [k]
  | released {t : Tape} (k : String) (b : Bool) (h : Grip t [k]) : Grip (t ++ [⟨.up, k, b⟩]) []

/-- a release of `k` was not taken, and none was since -/
def Stuck (k : String) (t : Tape) : Prop :=
  ∃ pre post, t = pre ++ ⟨.up, k, false⟩ :: post ∧ ⟨.up, k, true⟩ ∉ post

/-- some call was not taken -/
def Faulted (t : Tape) : Prop := ∃ a ∈ t, a.taken = false

def AllTaken (t : Tape) : Prop := ∀ a ∈ t, a.taken = true

instance (t : Tape) : Decidable (AllTaken t) := inferInstanceAs (Decidable (∀ a ∈ t, a.taken = true))

/-! ## The last call -/

theorem mem_effect_down {keys : List String} {k x : String} :
    x ∈ effect keys ⟨.down, k, true⟩ ↔ x = k ∨ x ∈ keys := by
  simp only [effect]
  split_ifs with hk
  · exact ⟨Or.inr, fun h => h.elim (fun e => e ▸ hk) id⟩
  · simp [or_comm]

theorem mem_effect_up {keys : List String} (hn : keys.Nodup) {k x : String} :
    x ∈ effect keys ⟨.up, k, true⟩ ↔ x ≠ k ∧ x ∈ keys :=
  hn.mem_erase_iff

theorem effect_nodup {keys : List String} (hn : keys.Nodup) (a : Attempt) : (effect keys a).Nodup := by
  unfold effect
  split
  · split_ifs with hk
    · exact hn
    · rw [← List.concat_eq_append]
      exact hn.concat hk
  · exact hn.erase _
  · exact hn

theorem asserted_snoc (t : Tape) (a : Attempt) : asserted (t ++ [a]) = effect (asserted t) a := by
  simp [asserted, List.foldl_append]

theorem asserted_nodup (t : Tape) : (asserted t).Nodup := by
  induction t using List.reverseRecOn with
  | nil => exact List.nodup_nil
  | append_singleton t a ih =>
    rw [asserted_snoc]
    exact effect_nodup ih a

theorem stuck_snoc (k : String) (t : Tape) (a : Attempt) :
    Stuck k (t ++ [a]) ↔ a = ⟨.up, k, false⟩ ∨ (Stuck k t ∧ a ≠ ⟨.up, k, true⟩) := by
  constructor
  · rintro ⟨pre, post, h, hpost⟩
    rcases snoc_eq_mid h with ⟨-, -, rfl⟩ | ⟨mid, rfl, rfl⟩
    · exact Or.inl rfl
    · simp only [List.mem_append, List.mem_singleton, not_or] at hpost
      exact Or.inr ⟨⟨pre, mid, rfl, hpost.1⟩, fun e => hpost.2 e.symm⟩
  · rintro (rfl | ⟨⟨pre, post, rfl, hpost⟩, ha⟩)
    · exact ⟨t, [], rfl, by simp⟩
    · refine ⟨pre, post ++ [a], by simp, ?_⟩
      simp only [List.mem_append, List.mem_singleton, not_or]
      exact ⟨hpost, fun e => ha e.symm⟩

theorem not_stuck_nil (k : String) : ¬ Stuck k [] := by
  rintro ⟨pre, post, h, -⟩
  simp at h

theorem Faulted.snoc {t : Tape} (a : Attempt) (h : Faulted t) : Faulted (t ++ [a]) := by
  obtain ⟨x, hx, hf⟩ := h
  exact ⟨x, List.mem_append_left _ hx, hf⟩

theorem faulted_snoc_false (t : Tape) (d : Direction) (k : String) : Faulted (t ++ [⟨d, k, false⟩]) :=
  ⟨_, List.mem_append_right _ (List.mem_singleton_self _), rfl⟩

theorem AllTaken.not_faulted {t : Tape} (h : AllTaken t) : ¬ Faulted t := by
  rintro ⟨a, ha, hf⟩
  rw [h a ha] at hf
  cases hf

theorem AllTaken.of_prefix {t pre : Tape} (h : AllTaken t) (hp : pre <+: t) : AllTaken pre :=
  fun a ha => h a (hp.subset ha)

theorem allTaken_nil : AllTaken [] := fun a ha => by cases ha

theorem AllTaken.snoc {t : Tape} (h : AllTaken t) (d : Direction) (k : String) : AllTaken (t ++ [⟨d, k, true⟩]) := by
  intro a ha
  rcases List.mem_append.1 ha with ha | ha
  · exact h a ha
  · rw [List.mem_singleton.1 ha]

/-! ## One hand -/

variable {t : Tape} {held : List String}

theorem Grip.length_le (h : Grip t held) : held.length ≤ 1 := by
  cases h <;> simp

/-- what a hand held before a call in the middle of its tape -/
theorem Grip.before {pre post : Tape} {a : Attempt} (h : Grip t held) (ht : t = pre ++ a :: post) :
    (a.direction = .down ∧ Grip pre []) ∨ (a.direction = .up ∧ Grip pre [a.key]) := by
  induction h generalizing post with
  | empty => simp at ht
  | missed k h ih =>
    rcases snoc_eq_mid ht with ⟨-, rfl, rfl⟩ | ⟨mid, -, rfl⟩
    · exact Or.inl ⟨rfl, h⟩
    · exact ih rfl
  | pressed k h ih =>
    rcases snoc_eq_mid ht with ⟨-, rfl, rfl⟩ | ⟨mid, -, rfl⟩
    · exact Or.inl ⟨rfl, h⟩
    · exact ih rfl
  | released k b h ih =>
    rcases snoc_eq_mid ht with ⟨-, rfl, rfl⟩ | ⟨mid, -, rfl⟩
    · exact Or.inr ⟨rfl, h⟩
    · exact ih rfl

/-- every beginning of a hand's tape is one -/
theorem Grip.beginning {pre post : Tape} (h : Grip t held) (ht : t = pre ++ post) : ∃ held', Grip pre held' := by
  cases post with
  | nil => rw [List.append_nil] at ht; exact ⟨held, ht ▸ h⟩
  | cons a post =>
    rcases h.before ht with ⟨-, h'⟩ | ⟨-, h'⟩
    · exact ⟨[], h'⟩
    · exact ⟨[a.key], h'⟩

/-- **A key that is no longer held has had a release tried** since each of its presses. -/
theorem Grip.tried {pre post : Tape} {k : String} (h : Grip t held) (ht : t = pre ++ ⟨.down, k, true⟩ :: post)
    (hk : k ∉ held) : ∃ b, ⟨.up, k, b⟩ ∈ post := by
  induction h generalizing post with
  | empty => simp at ht
  | missed j h ih =>
    rcases snoc_eq_mid ht with ⟨-, -, e⟩ | ⟨mid, rfl, rfl⟩
    · simp at e
    · obtain ⟨b, hb⟩ := ih rfl hk
      exact ⟨b, List.mem_append_left _ hb⟩
  | pressed j h ih =>
    rcases snoc_eq_mid ht with ⟨-, -, e⟩ | ⟨mid, rfl, rfl⟩
    · obtain rfl : j = k := by simpa using e
      simp at hk
    · obtain ⟨b, hb⟩ := ih rfl (by simp)
      exact ⟨b, List.mem_append_left _ hb⟩
  | released j b h ih =>
    rcases snoc_eq_mid ht with ⟨-, -, e⟩ | ⟨mid, rfl, rfl⟩
    · simp at e
    · by_cases hj : k = j
      · exact ⟨b, List.mem_append_right _ (by simp [hj])⟩
      · obtain ⟨b', hb'⟩ := ih rfl (by simpa using hj)
        exact ⟨b', List.mem_append_left _ hb'⟩

/-- **The keys that are down** are those in hand and those that are stuck. -/
theorem Grip.mem_asserted (h : Grip t held) (k : String) : k ∈ asserted t ↔ k ∈ held ∨ Stuck k t := by
  induction h with
  | empty => simp [asserted, not_stuck_nil]
  | @missed t j h ih =>
    rw [asserted_snoc, stuck_snoc]
    simpa [effect] using ih
  | @pressed t j h ih =>
    rw [asserted_snoc, stuck_snoc]
    rw [mem_effect_down, ih]
    simp
  | @released t j b h ih =>
    rw [asserted_snoc, stuck_snoc]
    cases b with
    | true =>
      rw [mem_effect_up (asserted_nodup t), ih]
      by_cases hj : k = j
      · simp [hj]
      · simp [hj, Ne.symm hj]
    | false =>
      have hd : effect (asserted t) ⟨.up, j, false⟩ = asserted t := rfl
      rw [hd, ih]
      by_cases hj : k = j
      · simp [hj]
      · simp [hj, Ne.symm hj]

/-- if every call was taken, what is down is what is in hand -/
theorem Grip.asserted_eq (h : Grip t held) (ht : ¬ Faulted t) : asserted t = held := by
  induction h with
  | empty => rfl
  | missed k h ih => exact absurd (faulted_snoc_false _ _ _) ht
  | pressed k h ih => rw [asserted_snoc, ih fun hf => ht (hf.snoc _)]; rfl
  | released k b h ih =>
    cases b with
    | true => rw [asserted_snoc, ih fun hf => ht (hf.snoc _)]; simp [effect]
    | false => exact absurd (faulted_snoc_false _ _ _) ht

/-- if every call was taken, the calls are presses each followed by its release, then the press of what is in hand -/
theorem Grip.word (h : Grip t held) (ht : ¬ Faulted t) :
    ∃ ks : List String, t.map move = ks.flatMap (fun k => [(.down, k), (.up, k)]) ++ held.map (.down, ·) := by
  induction h with
  | empty => exact ⟨[], rfl⟩
  | missed k h ih => exact absurd (faulted_snoc_false _ _ _) ht
  | pressed k h ih =>
    obtain ⟨ks, hks⟩ := ih fun hf => ht (hf.snoc _)
    exact ⟨ks, by simp [hks, move]⟩
  | released k b h ih =>
    obtain ⟨ks, hks⟩ := ih fun hf => ht (hf.snoc _)
    exact ⟨ks ++ [k], by simp [hks, move]⟩

end Tape

/-! ## Taped rigs -/

/-- a world and the key calls made on it -/
structure Taped (ω : Type) where
  world : ω
  tape : Tape := []

variable {ω : Type}

/-- a rig that keeps its key calls on tape -/
def Rig.taped (R : Rig ω) : Rig (Taped ω) where
  keyDown k w :=
    ((R.keyDown k w.world).1, ⟨(R.keyDown k w.world).2, w.tape ++ [⟨.down, k, (R.keyDown k w.world).1.isOk⟩]⟩)
  keyUp k w := ((R.keyUp k w.world).1, ⟨(R.keyUp k w.world).2, w.tape ++ [⟨.up, k, (R.keyUp k w.world).1.isOk⟩]⟩)
  waitUs us w := { w with world := R.waitUs us w.world }
  note e w := { w with world := R.note e w.world }

/-- no key call on it ever faults -/
def Rig.Reliable (R : Rig ω) : Prop := ∀ k w, (R.keyDown k w).1 = .ok () ∧ (R.keyUp k w).1 = .ok ()

/-- a rig on which nothing comes of anything -/
def Rig.quiet : Rig ω where
  keyDown _ w := (.ok (), w)
  keyUp _ w := (.ok (), w)
  waitUs _ w := w
  note _ w := w

theorem Rig.quiet_reliable : (Rig.quiet : Rig ω).Reliable := fun _ _ => ⟨rfl, rfl⟩

/-- a reliable rig takes every call -/
theorem Rig.Reliable.keeps {R : Rig ω} (hR : R.Reliable) : R.taped.Keeps fun w => w.tape.AllTaken := by
  refine ⟨fun k w hw => ?_, fun k w hw => ?_, fun us w hw => hw, fun e w hw => hw⟩
  · simp only [Rig.taped, (hR k w.world).1]
    exact hw.snoc _ _
  · simp only [Rig.taped, (hR k w.world).2]
    exact hw.snoc _ _

/-- the start of a process on a world -/
def Scene.fresh (g : Generator) (w : ω) : Scene (Taped ω) := ⟨{ generator := g }, ⟨w, []⟩⟩

end KeyHold
