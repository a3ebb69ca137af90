/-
Entropy in the state.

Entropy enters the state twice: through a step and, shifted by 17, directly; what the step shifts by 17 alone cancels
against it. What is left of the entropy's word in the newer word of the state is `spread`: the word itself, and copies
of it that are shifted to the left on the whole. So its bits can be read off from the lowest upward.

- `spread_injective`: what is left of a word determines the word.
- `seedMix_eq_iff`: **no two values of 32 bits lead a state to the same state**, healed or not.
-/
import Mathlib.Tactic
import KeyHold.Proofs.Random.Step

namespace KeyHold.Generator

/-- what mixing adds to the newer word -/
def spread (w : UInt64) : UInt64 := w ^^^ (w <<< 23) ^^^ ((w <<< 23) >>> 17)

theorem bit_spread (w : UInt64) {i : ℕ} (h : i < 64) :
    bit (spread w) i =
      (bit w i ^^ (decide (23 ≤ i) && bit w (i - 23)) ^^ (decide (6 ≤ i ∧ i < 47) && bit w (i - 6))) := by
  have hshift : 17 + i - 23 = i - 6 := by omega
  unfold spread
  rw [bit_xor, bit_xor, bit_shiftRight _ (by decide), bit_shiftLeft _ (by decide), bit_shiftLeft _ (by decide)]
  simp only [UInt64.reduceToNat, hshift]
  grind

/-- a bit of `spread w` is that of `w`, changed by lower ones -/
theorem spread_injective : Function.Injective spread := by
  intro v w h
  refine bit_ext fun i => ?_
  induction i using Nat.strong_induction_on with
  | _ i ih =>
    intro hi
    have hbit : bit (spread v) i = bit (spread w) i := by rw [h]
    rw [bit_spread v hi, bit_spread w hi] at hbit
    have hfar : 23 ≤ i → bit v (i - 23) = bit w (i - 23) := fun _ => ih (i - 23) (by omega) (by omega)
    have hnear : 6 ≤ i → bit v (i - 6) = bit w (i - 6) := fun _ => ih (i - 6) (by omega) (by omega)
    grind

theorem folded_eq (w : UInt64) : folded w = w ^^^ (w <<< 23) ^^^ ((w <<< 23) >>> 17) ^^^ (w >>> 17) := by
  show (w ^^^ (w <<< 23)) ^^^ ((w ^^^ (w <<< 23)) >>> 17) = _
  rw [UInt64.shiftRight_xor, UInt64.xor_comm (w >>> 17), ← UInt64.xor_assoc]

theorem folded_xor (v w : UInt64) : folded (v ^^^ w) = folded v ^^^ folded w := by
  simp only [folded_eq, UInt64.shiftLeft_xor, UInt64.shiftRight_xor]
  generalize (v <<< 23) >>> 17 = v₁, (w <<< 23) >>> 17 = w₁, v <<< 23 = v₂, w <<< 23 = w₂, v >>> 17 = v₃,
    w >>> 17 = w₃
  ac_rfl

theorem folded_spread (w : UInt64) : folded w ^^^ (w >>> 17) = spread w := by
  rw [folded_eq, UInt64.xor_assoc _ (w >>> 17), UInt64.xor_self, UInt64.xor_zero]
  rfl

/-- **Mixing** is a step to which the spread word is added. -/
theorem unhealed_spread (entropy : ℤ) (g : Generator) :
    unhealed entropy g = ⟨g.s1, g.step.s1 ^^^ spread (mixWord entropy)⟩ := by
  rw [unhealed_eq, step_s1, folded_xor, ← folded_spread]
  congr 1
  ac_rfl

theorem wide_mixWord_div (entropy : ℤ) : Wide.mixWord entropy / 2 ^ 32 = (entropy % 2 ^ 32).toNat := by
  obtain ⟨s, hs⟩ : ∃ s, (entropy % 2 ^ 32).toNat = s := ⟨_, rfl⟩
  have hlow : s ^^^ 0xA5A5A5A5 < 2 ^ 32 := Nat.xor_lt_two_pow (by omega) (by norm_num)
  unfold Wide.mixWord
  rw [hs]
  dsimp only
  rw [← Nat.shiftLeft_add_eq_or_of_lt hlow, Nat.shiftLeft_eq]
  omega

theorem mixWord_eq_iff (e e' : ℤ) : mixWord e = mixWord e' ↔ e ≡ e' [ZMOD 2 ^ 32] := by
  have hhalf (n : ℤ) : (mixWord n).toNat / 2 ^ 32 = (n % 2 ^ 32).toNat := by
    rw [toNat_mixWord, wide_mixWord_div]
  constructor
  · intro h
    have hsame := hhalf e
    rw [h, hhalf e'] at hsame
    show e % 2 ^ 32 = e' % 2 ^ 32
    omega
  · intro h
    have hsame : e % 2 ^ 32 = e' % 2 ^ 32 := h
    rw [← UInt64.toNat_inj, toNat_mixWord, toNat_mixWord]
    unfold Wide.mixWord
    rw [hsame]

theorem unhealed_eq_iff (e e' : ℤ) (g : Generator) : unhealed e g = unhealed e' g ↔ e ≡ e' [ZMOD 2 ^ 32] := by
  rw [← mixWord_eq_iff, unhealed_spread, unhealed_spread, Generator.mk.injEq, UInt64.xor_right_inj]
  exact ⟨fun h => spread_injective h.2, fun h => ⟨rfl, congrArg spread h⟩⟩

/-- a state that mixing collapses has no newer word, so no mixing leads it to the fixed pair -/
theorem unhealed_ne_fallback {e : ℤ} {g : Generator} (h : unhealed e g = zero) (e' : ℤ) : unhealed e' g ≠ fallback := by
  have hnewer : g.s1 = 0 := by
    rw [unhealed_spread] at h
    exact congrArg Generator.s0 h
  have hapart : (0 : UInt64) ≠ fallback.s0 := by decide
  rw [unhealed_spread, hnewer]
  exact fun hfallback => hapart (congrArg Generator.s0 hfallback)

/-- **Seeding loses no entropy.** Two values lead a state to the same state exactly if their low 32 bits are the same,
whether the states are healed or not. -/
theorem seedMix_eq_iff (e e' : ℤ) (g : Generator) : (seedMix e g).1 = (seedMix e' g).1 ↔ e ≡ e' [ZMOD 2 ^ 32] := by
  rw [seedMix_eq, seedMix_eq, ← unhealed_eq_iff e e' g]
  split_ifs with h h' h'
  · exact iff_of_true rfl (h.trans h'.symm)
  · exact iff_of_false (unhealed_ne_fallback h e').symm fun heq => h' (heq ▸ h)
  · exact iff_of_false (unhealed_ne_fallback h' e) fun heq => h (heq.trans h')
  · exact Iff.rfl

end KeyHold.Generator
