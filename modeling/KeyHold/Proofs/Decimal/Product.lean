/-
A thousand times a double.

The product of two doubles with all their digits keeps all its digits when it is rounded, and is not rounded below its
leading digit. So a product that is at least one is a double with a whole part of at least one.

- `round_digits`: what is left of digits when they are rounded to 53.
- `unpack_pack`: a double with all its digits unpacks to what was packed.
- `truncate_thousandfold`: a double that is not below a thousandth has a whole part of at least one once it is taken a
  thousand times, if that is finite.
-/
import Mathlib.Tactic
import KeyHold.Proofs.Decimal.Order

namespace KeyHold.Decimal

open Float.Model Float.Model.UnpackedFloat

/-! ## Rounding from below -/

theorem le_rounded (em : ExtendedMantissa) : em.mantissa ≤ em.roundedMantissa := by
  obtain ⟨m, r, s⟩ := em
  cases r <;> cases s <;>
    simp only [ExtendedMantissa.roundedMantissa, ExtendedMantissa.accuracy, Accuracy.roundToNearestEven] <;> omega

/-- 53 digits are left of digits that are as many or more, with the place of the leading one at least -/
theorem round_digits {m : ℕ} {e : ℤ} (s : Sign) (h : 52 ≤ m.log2) (he : -1074 ≤ (m.log2 : ℤ) + e - 52) :
    ∃ k n hk, roundWithAccuracy Format.binary64 s m e .exact = .finite s k n hk ∧ 2 ^ 52 ≤ k ∧ k < 2 ^ 53 ∧
      (m.log2 : ℤ) + e - 52 ≤ n := by
  have hm : m ≠ 0 := by
    rintro rfl
    simp at h
  have hcut : cutExponent m e = (m.log2 : ℤ) + e - 52 := by unfold cutExponent; omega
  have hshift : (cutExponent m e - e).toNat = m.log2 - 52 := by omega
  obtain ⟨r, hr⟩ : ∃ r, r = (ExtendedMantissa.ofMantissaAndAccuracy m .exact >>> (m.log2 - 52)).roundedMantissa :=
    ⟨_, rfl⟩
  have hhigh : r ≤ 2 ^ 53 := by
    have hlt := cut_digits_lt m e
    have hround := rounded_le (ExtendedMantissa.ofMantissaAndAccuracy m .exact >>> (m.log2 - 52))
    rw [shift_mantissa, mantissa_ofAccuracy] at hround
    rw [hshift] at hlt
    omega
  have hlow : 2 ^ 52 ≤ r := by
    have hround := le_rounded (ExtendedMantissa.ofMantissaAndAccuracy m .exact >>> (m.log2 - 52))
    rw [shift_mantissa, mantissa_ofAccuracy, ← hr] at hround
    refine le_trans ?_ hround
    rw [Nat.le_div_iff_mul_le (Nat.two_pow_pos _), ← pow_add, Nat.add_sub_cancel' h]
    exact Nat.log2_self_le hm
  have hlog : r.log2 = 52 ∨ (r = 2 ^ 53 ∧ r.log2 = 53) := by
    rcases hhigh.lt_or_eq with hlt | rfl
    · exact Or.inl (le_antisymm (log2_le_of_lt hlt) ((Nat.le_log2 (by omega)).2 hlow))
    · exact Or.inr ⟨rfl, Nat.log2_two_pow⟩
  -- a carry past the leading digit is cut again, and leaves nothing to round
  have hagain : ∃ j, (cutExponent r (cutExponent m e) - cutExponent m e).toNat = j ∧
      2 ^ 52 ≤ r / 2 ^ j ∧ r / 2 ^ j < 2 ^ 53 := by
    rcases hlog with hr52 | ⟨rfl, hr53⟩
    · refine ⟨0, ?_, by simpa using hlow, ?_⟩
      · unfold cutExponent at hcut ⊢
        omega
      · have hlt := (Nat.log2_lt (by omega : r ≠ 0)).1 (by omega : r.log2 < 53)
        simpa using hlt
    · refine ⟨1, ?_, by norm_num, by norm_num⟩
      unfold cutExponent at hcut ⊢
      omega
  obtain ⟨j, hj, hfull, hfit⟩ := hagain
  have hmantissa : (ExtendedMantissa.ofMantissaAndAccuracy r .exact >>> j).mantissa = r / 2 ^ j := by
    rw [shift_mantissa, mantissa_ofAccuracy]
  refine ⟨r / 2 ^ j, cutExponent r (cutExponent m e), by omega, ?_, hfull, hfit, ?_⟩
  · unfold roundWithAccuracy
    rw [shiftToTarget_eq, hshift]
    dsimp only
    rw [← hr, shiftToTarget_eq, hj]
    dsimp only
    have hne : (ExtendedMantissa.ofMantissaAndAccuracy r .exact >>> j).mantissa ≠ 0 := by omega
    rw [dif_neg hne]
    congr 1
  · rw [← hcut]
    exact le_max_left _ _

/-! ## Doubles with all their digits -/

/-- a number of 53 digits is packed with the place of its digits, if that makes a double -/
theorem pack_full {s : Sign} {m : ℕ} {e : ℤ} {hm : 0 < m} (hlow : 2 ^ 52 ≤ m) (hhigh : m < 2 ^ 53)
    (hf : Finite (.ofModel (.pack (.finite s m e hm)))) :
    (e + 1075).toNat < 2047 ∧ UnpackedFloat.pack Format.binary64 (.finite s m e hm) =
      packComponents Format.binary64 s (BitVec.ofNat 11 (e + 1075).toNat) (BitVec.ofNat 52 m) := by
  rw [finite_iff_exponentField] at hf
  have hlog : m.log2 = 52 := (Nat.log2_eq_iff (by omega)).2 ⟨hlow, hhigh⟩
  have hbias : (e + Format.binary64.exponentBias + Format.binary64.mantissaBitsWithoutImplicit).toNat =
      (e + 1075).toNat := by
    simp only [Format.exponentBias]
    norm_num
    omega
  have hunfold : UnpackedFloat.pack Format.binary64 (.finite s m e hm) =
      if 2 ^ 11 ≤ (e + 1075).toNat + 1 then packedInfinity Format.binary64 s
      else packComponents Format.binary64 s (BitVec.ofNat 11 (e + 1075).toNat) (BitVec.ofNat 52 m) := by
    simp only [UnpackedFloat.pack, hbias, hlog]
    rfl
  by_cases hbig : 2 ^ 11 ≤ (e + 1075).toNat + 1
  · -- what is too large would be packed as an infinity
    rw [if_pos hbig] at hunfold
    refine absurd ?_ hf
    show @unpackExponent Format.binary64 (UnpackedFloat.pack Format.binary64 (.finite s m e hm)) = _
    rw [hunfold, packedInfinity, unpackExponent_packComponents]
  · rw [if_neg hbig] at hunfold
    exact ⟨by omega, hunfold⟩

/-- a double with all its digits unpacks to what was packed -/
theorem unpack_pack {s : Sign} {m : ℕ} {e : ℤ} {hm : 0 < m} (hlow : 2 ^ 52 ≤ m) (hhigh : m < 2 ^ 53) (he : -1074 ≤ e)
    (hf : Finite (.ofModel (.pack (.finite s m e hm)))) :
    (Float.ofModel (.pack (.finite s m e hm))).toModel.unpack = .finite s m e hm := by
  obtain ⟨hfit, hpack⟩ := pack_full hlow hhigh hf
  have hexponent : (BitVec.ofNat 11 (e + 1075).toNat).toNat = (e + 1075).toNat := by
    rw [BitVec.toNat_ofNat]
    omega
  have hdigits : (1#1 ++ BitVec.ofNat 52 m).toNat = m := by
    rw [one_append_toNat, BitVec.toNat_ofNat]
    omega
  have hnone : BitVec.ofNat 11 (e + 1075).toNat ≠ 0#11 := by
    rw [Ne, ← BitVec.toNat_inj, hexponent, BitVec.toNat_ofNat]
    omega
  have hall : BitVec.ofNat 11 (e + 1075).toNat ≠ -1#11 := by
    rw [Ne, ← BitVec.toNat_inj, hexponent]
    have hneg : (-1#11).toNat = 2047 := rfl
    omega
  show UnpackedFloat.unpack Format.binary64 (UnpackedFloat.pack Format.binary64 (.finite s m e hm)) = _
  rw [hpack]
  unfold UnpackedFloat.unpack
  simp only [unpackExponent_packComponents, unpackMantissa_packComponents, unpackSign_packComponents,
    Sign.ofBitVec_toBitVec]
  rw [if_neg hall, if_neg hnone]
  congr 1
  · rw [hexponent]
    simp only [Format.exponentBias]
    norm_num
    omega

/-! ## A thousandth -/

/-- a finite double that is not below a thousandth is `m * 2^e` with all its digits, and at least a thousandth -/
theorem unpack_thousandth {x : Float} (hf : Finite x) (h : ¬ x < 0.001) :
    ∃ m e hm, x.toModel.unpack = .finite .positive m e hm ∧ 2 ^ 52 ≤ m ∧ -62 ≤ e ∧
      4611686018427388 ≤ m * 2 ^ (e + 62).toNat := by
  have hthousandth : (0.001 : Float).toModel.unpack = .finite .positive 4611686018427388 (-62) (by norm_num) := by
    rfl
  rw [finite_iff_unpack] at hf
  rw [lt_iff_compare, hthousandth] at h
  rcases hx : x.toModel.unpack with s | _ | s | ⟨_ | _, m, e, hm⟩ <;> rw [hx] at hf h
  case infinity => cases hf
  case notANumber => cases hf
  case zero => exact absurd rfl h
  case finite.negative => exact absurd rfl h
  refine ⟨m, e, hm, rfl, ?_⟩
  obtain ⟨-, -, -, hfull⟩ := unpack_finite hx
  have hnot : ¬ (compare e (-62)).then (compare m 4611686018427388) = .lt := fun hc => h (congrArg some hc)
  rw [Ordering.then_eq_lt, not_or, Int.compare_eq_lt, Int.compare_eq_eq, Nat.compare_eq_lt] at hnot
  obtain ⟨he, hm'⟩ := hnot
  have hdigits : 2 ^ 52 ≤ m := hfull.resolve_right (by omega)
  refine ⟨hdigits, by omega, ?_⟩
  rcases (not_lt.1 he).eq_or_lt with heq | hlt
  · have := not_lt.1 fun hc => hm' ⟨heq.symm, hc⟩
    rw [← heq]
    simpa using this
  · calc 4611686018427388 ≤ 2 ^ 52 * 2 ^ 1 := by norm_num
      _ ≤ m * 2 ^ (e + 62).toNat := Nat.mul_le_mul hdigits (Nat.pow_le_pow_right (by norm_num) (by omega))

/-- a thousand thousandths have their leading digit at the place of one or above -/
theorem log2_thousandfold {m : ℕ} {e : ℤ} (hdigits : 2 ^ 52 ≤ m) (hleast : 4611686018427388 ≤ m * 2 ^ (e + 62).toNat)
    (he : -62 ≤ e) :
    52 ≤ (m * (1000 * 2 ^ 43)).log2 ∧ 0 ≤ ((m * (1000 * 2 ^ 43)).log2 : ℤ) + (e + -43) := by
  have hne : m * (1000 * 2 ^ 43) ≠ 0 := by positivity
  constructor
  · rw [Nat.le_log2 hne]
    exact le_trans hdigits (Nat.le_mul_of_pos_right _ (by norm_num))
  · by_contra hneg
    have hj : (e + 62).toNat ≤ 105 := by omega
    have hlt : m * (1000 * 2 ^ 43) < 2 ^ (105 - (e + 62).toNat) := by
      rw [← Nat.log2_lt hne]
      omega
    have hprod : m * (1000 * 2 ^ 43) * 2 ^ (e + 62).toNat < 2 ^ 105 := by
      calc m * (1000 * 2 ^ 43) * 2 ^ (e + 62).toNat
          < 2 ^ (105 - (e + 62).toNat) * 2 ^ (e + 62).toNat := Nat.mul_lt_mul_of_pos_right hlt (Nat.two_pow_pos _)
        _ = 2 ^ 105 := by rw [← pow_add, Nat.sub_add_cancel hj]
    have hthousand := Nat.mul_le_mul_right (1000 * 2 ^ 43) hleast
    rw [Nat.mul_right_comm] at hthousand
    omega

/-- **A thousand times** a double that is not below a thousandth is at least one. -/
theorem truncate_thousandfold {x : Float} (hx : Finite x) (h : ¬ x < 0.001) (hf : Finite (x * 1000.0)) :
    ∃ n, truncate (x * 1000.0) = .ok n ∧ 1 ≤ n := by
  obtain ⟨m, e, hm, hunpack, hdigits, he, hleast⟩ := unpack_thousandth hx h
  obtain ⟨hlog52, hplace⟩ := log2_thousandfold hdigits hleast he
  obtain ⟨k, n, hk, hround, hlow, hhigh, hn⟩ := round_digits (e := e + -43) (.positive * .positive) hlog52 (by omega)
  have hproduct : x * 1000.0 = .ofModel (.pack (.finite (.positive * .positive) k n hk)) := by
    show Float.ofModel (.pack (UnpackedFloat.mul Format.binary64 x.toModel.unpack (1000.0 : Float).toModel.unpack)) = _
    rw [hunpack, unpack_thousand, ← hround]
    rfl
  rw [hproduct] at hf ⊢
  refine ⟨wholeOf k n, ?_, ?_⟩
  · rw [truncate_eq, unpack_pack hlow hhigh (by omega) hf]
    rfl
  · have : wholeOf (2 ^ 52) (-52) ≤ wholeOf k n := by
      apply wholeOf_mono (by norm_num) (by omega)
      exact le_trans hlow (Nat.le_mul_of_pos_right _ (Nat.two_pow_pos _))
    have hone : wholeOf (2 ^ 52) (-52) = 1 := by decide +kernel
    omega

end KeyHold.Decimal
