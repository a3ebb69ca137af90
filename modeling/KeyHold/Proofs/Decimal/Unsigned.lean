/-
Doubles without a minus sign.

Signs outlive rounding and packing, so a quotient of doubles without a minus sign has none either. Nor has the double
nearest to an integer that is not negative, and so nor has the time between two stamps in order.

- `Unsigned u`: a number without a minus sign.
- `unsigned_pack`, `unsigned_round`, `unsigned_div`: signs outlive packing, rounding and division.
- `zero_le_thousandth`: **a thousandth** of the double of an integer that is not negative is at least zero.
- `not_lt_iff_le`: what is not below something is at least that, but for "not a number".
-/
import Mathlib.Tactic
import KeyHold.Proofs.Decimal.Order
import KeyHold.Proofs.Value

namespace KeyHold.Decimal

open Float.Model Float.Model.UnpackedFloat

/-- a number without a minus sign -/
def Unsigned : UnpackedFloat → Prop
  | .zero s => s = .positive
  | .infinity s => s = .positive
  | .finite s _ _ _ => s = .positive
  | .notANumber => False

theorem unsigned_round (m : ℕ) (e : ℤ) (a : Accuracy) :
    Unsigned (roundWithAccuracy Format.binary64 .positive m e a) := by
  unfold roundWithAccuracy
  dsimp only
  split_ifs
  · rfl
  · rfl

theorem unsigned_normalize (n : ℕ) : Unsigned (UnpackedFloat.normalize Format.binary64 n 0 .positive) := by
  unfold UnpackedFloat.normalize
  split
  · rename_i h
    rw [Int.compare_eq_lt] at h
    omega
  · rfl
  · exact unsigned_round _ _ _

theorem unsigned_mul {m m' : ℕ} {e e' : ℤ} {hm : 0 < m} {hm' : 0 < m'} :
    Unsigned (UnpackedFloat.mul Format.binary64 (.finite .positive m e hm) (.finite .positive m' e' hm')) :=
  unsigned_round _ _ _

theorem unsigned_div {u v : UnpackedFloat} (hu : Unsigned u) (hf : u.isFinite = true) {m : ℕ} {e : ℤ} {hm : 0 < m}
    (hv : v = .finite .positive m e hm) : Unsigned (UnpackedFloat.div Format.binary64 u v) := by
  subst hv
  rcases u with s | _ | s | ⟨s, m', e', hm'⟩
  · cases hf
  · cases hf
  · obtain rfl : s = .positive := hu
    rfl
  · obtain rfl : s = .positive := hu
    exact unsigned_round _ _ _

/-- the parts that components unpack to have the sign of the components -/
theorem unsigned_components {e : BitVec Format.binary64.exponentBits}
    {m : BitVec Format.binary64.mantissaBitsWithoutImplicit} (h : e = -1 → m = 0) :
    Unsigned (UnpackedFloat.unpack Format.binary64 (packComponents Format.binary64 .positive e m)) := by
  unfold UnpackedFloat.unpack
  simp only [unpackExponent_packComponents, unpackMantissa_packComponents, unpackSign_packComponents,
    Sign.ofBitVec_toBitVec]
  split_ifs with h1 h2 h3 h4
  · rfl
  · exact absurd (h h1) h2
  · rfl
  · rfl
  · rfl

/-- **Signs outlive packing.** -/
theorem unsigned_pack {u : UnpackedFloat} (h : Unsigned u) : Unsigned (Float.ofModel (.pack u)).toModel.unpack := by
  show Unsigned (UnpackedFloat.unpack Format.binary64 (UnpackedFloat.pack Format.binary64 u))
  cases u with
  | notANumber => exact h.elim
  | zero s =>
    obtain rfl : s = .positive := h
    exact unsigned_components fun _ => rfl
  | infinity s =>
    obtain rfl : s = .positive := h
    exact unsigned_components fun _ => rfl
  | finite s m e hm =>
    obtain rfl : s = .positive := h
    unfold UnpackedFloat.pack
    dsimp only
    split_ifs with hbig
    · exact unsigned_components fun _ => rfl
    · refine unsigned_components fun hall => ?_
      rw [← BitVec.toNat_inj, BitVec.toNat_ofNat] at hall
      have hneg : (-1 : BitVec Format.binary64.exponentBits).toNat = 2047 := rfl
      rw [hneg] at hall
      have h11 : (2 : ℕ) ^ Format.binary64.exponentBits = 2048 := rfl
      rw [h11] at hall hbig
      omega
    · refine unsigned_components fun hall => ?_
      have hne : (0 : BitVec Format.binary64.exponentBits) ≠ -1 := by decide
      exact absurd hall hne

/-! ## Quotients -/

/-- a thousandth has the sign of the whole -/
theorem unsigned_thousandth {x : Float} (hx : Unsigned x.toModel.unpack) (hf : Finite x) :
    Unsigned (x / 1000.0).toModel.unpack := by
  rw [finite_iff_unpack] at hf
  exact unsigned_pack (unsigned_div hx hf unpack_thousand)

theorem unsigned_scientific (n : ℕ) : Unsigned (UnpackedFloat.ofScientific Format.binary64 n (Int.negOfNat 0)) := by
  have hzero : Int.negOfNat 0 = 0 := rfl
  have hpow : (0 : ℤ) < 2 ^ Format.binary64.exponentBits := by positivity
  have hbig : ¬ (0 : ℤ) > 2 ^ Format.binary64.exponentBits := not_lt.2 hpow.le
  have hsmall : ¬ (0 : ℤ) < -(2 ^ Format.binary64.exponentBits + (n.log2 : ℤ)) := by omega
  unfold UnpackedFloat.ofScientific
  by_cases h0 : n = 0
  · rw [dif_pos h0]
    rfl
  · rw [hzero, dif_neg h0, if_neg hbig, if_neg hsmall, if_pos le_rfl]
    exact unsigned_mul

/-- a whole number that is read as a double has no minus sign -/
theorem unsigned_ofScientific (n : ℕ) : Unsigned (Float.ofScientific n true 0).toModel.unpack := by
  unfold Float.ofScientific
  by_cases hsmall : n < 2 ^ 53 ∧ 0 ≤ 22
  · have hone : Float.exactlyRepresentablePowersOfTen[0] = (1.0 : Float) := by decide +kernel
    have hunpack : (1.0 : Float).toModel.unpack = .finite .positive (2 ^ 52) (-52) (by norm_num) := rfl
    have hn : Unsigned n.toUInt64.toFloat.toModel.unpack := unsigned_pack (unsigned_normalize _)
    rw [dif_pos hsmall]
    simp only [hone, if_true]
    exact unsigned_pack (unsigned_div hn ((finite_iff_unpack _).1 (finite_ofUInt64 _)) hunpack)
  · rw [dif_neg hsmall]
    exact unsigned_pack (unsigned_scientific n)

/-- a number without a minus sign is at least zero -/
theorem zero_le_of_unsigned {x : Float} (h : Unsigned x.toModel.unpack) : 0.0 ≤ x := by
  rw [le_iff_compare, show (0.0 : Float).toModel.unpack = .zero .positive from rfl]
  rcases hx : x.toModel.unpack with s | _ | s | ⟨s, m, e, hm⟩ <;> rw [hx] at h
  case notANumber => exact h.elim
  all_goals
    obtain rfl : s = .positive := h
    exact ⟨_, rfl, rfl⟩

/-- the double of an integer is finite -/
theorem finite_ofInt? {n : ℤ} {x : Float} (hx : ofInt? n = some x) : Finite x := by
  unfold ofInt? ofIntScaled? at hx
  dsimp only at hx
  split_ifs at hx with _ hf hf
  · obtain rfl := Option.some.inj hx
    exact (isFinite_iff _).1 hf
  · obtain rfl := Option.some.inj hx
    exact (isFinite_iff _).1 hf

/-- **A thousandth** of the double of an integer that is not negative is at least zero. -/
theorem zero_le_thousandth {n : ℤ} {x : Float} (h0 : 0 ≤ n) (hx : ofInt? n = some x) : 0.0 ≤ x / 1000.0 := by
  have hn : ¬ n < 0 := not_lt.2 h0
  unfold ofInt? ofIntScaled? at hx
  simp only [hn, if_false] at hx
  split_ifs at hx with hf
  obtain rfl := Option.some.inj hx
  exact zero_le_of_unsigned (unsigned_thousandth (unsigned_ofScientific _) ((isFinite_iff _).1 hf))

/-- what is not below a bound is at least that bound, as long as neither of them is "not a number" -/
theorem not_lt_iff_le {x y : Float} (hx : Finite x) (hy : y.isNaN = false) : ¬ x < y ↔ y ≤ x := by
  rw [finite_iff_unpack] at hx
  have hy : y.toModel.unpack.isNaN = false := hy
  have hsome : UnpackedFloat.compare x.toModel.unpack y.toModel.unpack ≠ none := by
    generalize x.toModel.unpack = u at hx
    generalize y.toModel.unpack = v at hy
    rcases u with (_ | _) | _ | (_ | _) | ⟨_ | _, m, e, _⟩ <;>
      rcases v with (_ | _) | _ | (_ | _) | ⟨_ | _, n, f, _⟩ <;>
      first | cases hx; done | cases hy; done | exact Option.some_ne_none _
  rw [lt_iff_compare, le_iff_compare, compare_swap x.toModel.unpack]
  rcases hc : UnpackedFloat.compare x.toModel.unpack y.toModel.unpack with _ | _ | _ | _
  · exact absurd hc hsome
  · simp
  · simp
  · simp

end KeyHold.Decimal
