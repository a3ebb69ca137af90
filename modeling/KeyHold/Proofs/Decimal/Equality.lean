/-
Doubles that are equal.

Two doubles are equal if they stand for one number, or for one infinity; the two zeros stand for one number. Of
numbers other than zero only one pair of digits and exponent is a double's, since the exponent is the least there is or
the digits are all there.

- `digits_unique`: digits and exponent are those of their product.
- `beq_iff_extent`: **doubles are equal** exactly if they stand for the same.
-/
import Mathlib.Tactic
import KeyHold.Proofs.Decimal.Finite

namespace KeyHold.Decimal

/-- what a double stands for: a number, or an infinity by its sign; "not a number" stands for nothing -/
def extent (x : Float) : Option (ℚ ⊕ Bool) :=
  match parts x with
  | .finite neg m q => some (.inl (signed neg m * 2 ^ q))
  | .infinite neg => some (.inr neg)
  | .nan => none

/-! ## Digits -/

/-- digits below `2^53` whose exponent is not the lower of the two -/
theorem exponent_le {m n : ℕ} {e f : ℤ} (hm : m < 2 ^ 53) (he : -1074 ≤ e) (hn : 2 ^ 52 ≤ n ∨ f = -1074)
    (h : (m : ℚ) * 2 ^ e = n * 2 ^ f) : f ≤ e := by
  by_contra hlt
  obtain ⟨k, hk⟩ : ∃ k : ℕ, f = e + (k + 1) := ⟨(f - e - 1).toNat, by omega⟩
  have hn : 2 ^ 52 ≤ n := hn.resolve_right (by omega)
  have hprod : m = n * 2 ^ (k + 1) := by
    have h2 : (2 : ℚ) ^ e ≠ 0 := by positivity
    have hq : (m : ℚ) = n * 2 ^ (k + 1) := by
      apply mul_right_cancel₀ h2
      rw [h, hk, zpow_add₀ (by norm_num), ← Nat.cast_add_one, zpow_natCast]
      ring
    exact_mod_cast hq
  have hpow : 2 ≤ 2 ^ (k + 1) := by
    rw [pow_succ]
    have := Nat.one_le_two_pow (n := k)
    omega
  have := Nat.mul_le_mul hn hpow
  omega

/-- **Digits and exponent** of a double that is not zero are those of its number. -/
theorem digits_unique {m n : ℕ} {e f : ℤ} (hm : m < 2 ^ 53) (hn : n < 2 ^ 53) (he : -1074 ≤ e) (hf : -1074 ≤ f)
    (hme : 2 ^ 52 ≤ m ∨ e = -1074) (hnf : 2 ^ 52 ≤ n ∨ f = -1074) (h : (m : ℚ) * 2 ^ e = n * 2 ^ f) :
    e = f ∧ m = n := by
  obtain rfl : e = f := le_antisymm (exponent_le hn hf hme h.symm) (exponent_le hm he hnf h)
  have h2 : (2 : ℚ) ^ e ≠ 0 := by positivity
  exact ⟨rfl, by exact_mod_cast mul_right_cancel₀ h2 h⟩

/-! ## Equality -/

open Float.Model Float.Model.UnpackedFloat

theorem beq_iff_compare (x y : Float) :
    (x == y) = true ↔ UnpackedFloat.compare x.toModel.unpack y.toModel.unpack = some .eq := by
  show (UnpackedFloat.compare x.toModel.unpack y.toModel.unpack == some .eq) = true ↔ _
  exact beq_iff_eq

theorem extent_eq (x : Float) : extent x = match x.toModel.unpack with
    | .notANumber => none
    | .infinity s => some (.inr (s == .negative))
    | .zero _ => some (.inl 0)
    | .finite s m e _ => some (.inl (signed (s == .negative) m * 2 ^ e)) := by
  unfold extent
  rw [parts_eq]
  rcases x.toModel.unpack with ⟨_ | _⟩ | _ | ⟨_ | _⟩ | ⟨_ | _, m, e, _⟩ <;> simp [partsOf, signed]

/-- doubles of one sign that are not zero have one exponent and one row of digits exactly if their numbers are one -/
theorem digits_eq_iff {x y : Float} {s t : Sign} {m n : ℕ} {e f : ℤ} {hm : 0 < m} {hn : 0 < n}
    (hx : x.toModel.unpack = .finite s m e hm) (hy : y.toModel.unpack = .finite t n f hn) :
    e = f ∧ m = n ↔ (n : ℚ) * 2 ^ f = m * 2 ^ e := by
  obtain ⟨hm, he, -, hme⟩ := unpack_finite hx
  obtain ⟨hn, hf, -, hnf⟩ := unpack_finite hy
  constructor
  · rintro ⟨rfl, rfl⟩
    rfl
  · intro h
    exact digits_unique hm hn he hf hme hnf h.symm

theorem number_pos {m : ℕ} (e : ℤ) (hm : 0 < m) : (0 : ℚ) < m * 2 ^ e := by positivity

/-- **Doubles are equal** exactly if they stand for the same number, or for the same infinity. -/
theorem beq_iff_extent (x y : Float) : (x == y) = true ↔ ∃ v, extent x = some v ∧ extent y = some v := by
  rw [beq_iff_compare, extent_eq, extent_eq]
  rcases hx : x.toModel.unpack with ⟨_ | _⟩ | _ | ⟨_ | _⟩ | ⟨_ | _, m, e, hm⟩ <;>
    rcases hy : y.toModel.unpack with ⟨_ | _⟩ | _ | ⟨_ | _⟩ | ⟨_ | _, n, f, hn⟩ <;>
    simp [UnpackedFloat.compare, signed, -mul_eq_zero, -zero_eq_mul]
  case infinity.negative.infinity.negative => rfl
  case infinity.positive.infinity.positive => rfl
  case finite.negative.finite.negative => exact digits_eq_iff hx hy
  case finite.positive.finite.positive => exact digits_eq_iff hx hy
  -- a number that is not zero is not the opposite of one of its sign
  case finite.negative.finite.positive =>
    have := number_pos e hm
    have := number_pos f hn
    linarith
  case finite.positive.finite.negative =>
    have := number_pos e hm
    have := number_pos f hn
    linarith
  case zero.negative.finite.negative | zero.negative.finite.positive | zero.positive.finite.negative |
      zero.positive.finite.positive => exact (number_pos f hn).ne'
  case finite.negative.zero.negative | finite.negative.zero.positive => exact (number_pos e hm).ne'
  case finite.positive.zero.negative | finite.positive.zero.positive => exact (number_pos e hm).ne

end KeyHold.Decimal
