/-
Uniform doubles.

A uniform double is made of the 24 high bits of an output: a whole number below 2^24, divided by 2^24. Neither the
conversion nor the division has anything to round.

- `value_unitOf`: **the double is exactly** the quotient by 2^24.
- `unitOf_tooSmall_iff`: it is too small for the logarithm exactly if the whole number is 0 or 1.
-/
import Mathlib.Tactic
import KeyHold.Proofs.Decimal.Product

namespace KeyHold

namespace Decimal

/-- the number that a finite double is -/
def value (x : Float) : Option ℚ :=
  match parts x with
  | .finite neg m q => some (signed neg m * 2 ^ q)
  | _ => none

open Float.Model Float.Model.UnpackedFloat

theorem value_of_unpack {x : Float} {m : ℕ} {e : ℤ} {hm : 0 < m} (h : x.toModel.unpack = .finite .positive m e hm) :
    value x = some ((m : ℚ) * 2 ^ e) := by
  unfold value
  rw [parts_eq, h]
  rfl

/-- 53 digits with zeros behind them leave nothing to round -/
theorem round_full {s : Sign} {k j : ℕ} {e : ℤ} (hk : 0 < k) (hlow : 2 ^ 52 ≤ k) (hhigh : k < 2 ^ 53)
    (he : -1074 ≤ e + j) :
    roundWithAccuracy Format.binary64 s (k * 2 ^ j) e .exact = .finite s k (e + j) hk := by
  have hlog : k.log2 = 52 := (Nat.log2_eq_iff (by omega)).2 ⟨hlow, hhigh⟩
  have hlog' : (k * 2 ^ j).log2 = 52 + j := by
    rw [Nat.log2_eq_iff (by positivity), pow_add, show 52 + j + 1 = 53 + j by omega, pow_add]
    exact ⟨Nat.mul_le_mul_right _ hlow, Nat.mul_lt_mul_of_pos_right hhigh (Nat.two_pow_pos j)⟩
  have hcut : cutExponent (k * 2 ^ j) e = e + j := by unfold cutExponent; omega
  have hcut' : cutExponent k (e + j) = e + j := by unfold cutExponent; omega
  have hshift : (e + j - e).toNat = j := by omega
  have hkept : (ExtendedMantissa.ofMantissaAndAccuracy k .exact >>> (e + j - (e + j)).toNat).mantissa = k := by
    rw [sub_self, shift_mantissa, mantissa_ofAccuracy, Int.toNat_zero, pow_zero, Nat.div_one]
  have hrounded : (ExtendedMantissa.mk k false false).roundedMantissa = k := rfl
  unfold roundWithAccuracy
  rw [shiftToTarget_eq, hcut, hshift, shift_exact]
  dsimp only
  rw [hrounded, shiftToTarget_eq, hcut']
  dsimp only
  rw [dif_neg (by rw [hkept]; omega)]
  congr 1

/-- a double with 53 digits unpacks to what was packed -/
theorem unpack_full {s : Sign} {k : ℕ} {e : ℤ} (hk : 0 < k) (hlow : 2 ^ 52 ≤ k) (hhigh : k < 2 ^ 53) (he : -1074 ≤ e)
    (he' : e ≤ 971) : (Float.ofModel (.pack (.finite s k e hk))).toModel.unpack = .finite s k e hk :=
  unpack_pack hlow hhigh he (finite_pack he')

/-- **A whole number of 53 digits at most** is a double. -/
theorem unpack_toFloat {n : UInt64} {j : ℕ} (hlow : 2 ^ 52 ≤ n.toNat * 2 ^ j) (hhigh : n.toNat * 2 ^ j < 2 ^ 53)
    (hpos : 0 < n.toNat * 2 ^ j) : n.toFloat.toModel.unpack = .finite .positive (n.toNat * 2 ^ j) (-j) hpos := by
  have hn : 0 < n.toNat := Nat.pos_of_mul_pos_right hpos
  have hj : j ≤ 52 := by
    by_contra hlt
    have : 2 ^ 53 ≤ n.toNat * 2 ^ j :=
      le_trans (Nat.pow_le_pow_right (by norm_num) (by omega)) (Nat.le_mul_of_pos_left _ hn)
    omega
  have hlog : n.toNat.log2 = 52 - j := by
    rw [Nat.log2_eq_iff hn.ne']
    constructor
    · refine Nat.le_of_mul_le_mul_right ?_ (Nat.two_pow_pos j)
      rw [← pow_add, Nat.sub_add_cancel hj]
      exact hlow
    · refine Nat.lt_of_mul_lt_mul_right (a := 2 ^ j) ?_
      rw [← pow_add, show 52 - j + 1 + j = 53 by omega]
      exact hhigh
  have hnormal : UnpackedFloat.normalize Format.binary64 (n.toNat : ℤ) 0 .positive =
      .finite .positive (n.toNat * 2 ^ j) (-j) hpos := by
    have htarget : Format.binary64.targetExponent (totalExponent n.toNat 0) = -j := by
      simp only [Format.targetExponent, totalExponent, Format.mantissaBits, Format.minExponent, hlog]
      norm_num
      omega
    unfold UnpackedFloat.normalize
    have hgt : compare (n.toNat : ℤ) 0 = .gt := by
      rw [Int.compare_eq_gt]
      omega
    rw [hgt]
    unfold UnpackedFloat.round decreaseExponent
    dsimp only
    rw [Int.toNat_natCast, htarget, Nat.shiftLeft_eq, show (0 - -(j : ℤ)).toNat = j by omega]
    have hround := round_full (s := .positive) (j := 0) (e := 0 - (j : ℤ)) hpos hlow hhigh (by omega)
    rw [pow_zero, mul_one] at hround
    rw [hround]
    congr 1
    omega
  show (Float.ofModel (.pack (UnpackedFloat.normalize Format.binary64 (n.toNat : ℤ) 0 .positive))).toModel.unpack = _
  rw [hnormal]
  exact unpack_full hpos hlow hhigh (by omega) (by omega)

/-- **Divided by 2^24**, 53 digits are kept. -/
theorem unpack_div {x : Float} {k : ℕ} {e : ℤ} {hk : 0 < k} (hx : x.toModel.unpack = .finite .positive k e hk)
    (hlow : 2 ^ 52 ≤ k) (hhigh : k < 2 ^ 53) (he : -1000 ≤ e) (he' : e ≤ 971) :
    (x / 16777216.0).toModel.unpack = .finite .positive k (e - 24) hk := by
  have hv : (16777216.0 : Float).toModel.unpack = .finite .positive (2 ^ 52) (-28) (by norm_num) := by
    rfl
  have hlog : k.log2 = 52 := (Nat.log2_eq_iff (by omega)).2 ⟨hlow, hhigh⟩
  have htarget : Format.binary64.targetExponent (totalExponent k e - totalExponent (2 ^ 52) (-28)) = e - 25 := by
    simp only [Format.targetExponent, totalExponent, Format.mantissaBits, Format.minExponent, hlog, Nat.log2_two_pow]
    norm_num
    omega
  have hquotient : divCore Format.binary64 k e (2 ^ 52) (-28) = (k * 2 ^ 1, e - 25, .exact) := by
    unfold divCore
    dsimp only
    rw [htarget, min_eq_right (by omega), show (e - -28 - (e - 25)).toNat = 53 by omega, Nat.shiftLeft_eq,
      show k * 2 ^ 53 = k * 2 ^ 1 * 2 ^ 52 by ring, Nat.mul_div_cancel _ (by norm_num), Nat.mul_mod_left]
    rfl
  show (Float.ofModel (.pack (UnpackedFloat.div Format.binary64 x.toModel.unpack
    (16777216.0 : Float).toModel.unpack))).toModel.unpack = _
  rw [hx, hv]
  unfold UnpackedFloat.div
  dsimp only
  rw [hquotient]
  dsimp only
  rw [round_full hk hlow hhigh (by omega)]
  rw [show e - 25 + ((1 : ℕ) : ℤ) = e - 24 by omega]
  exact unpack_full hk hlow hhigh (by omega) (by omega)

end Decimal

namespace Generator

open Float.Model Float.Model.UnpackedFloat

/-- the whole number that a uniform double is made of -/
def numerator (w : UInt64) : ℕ := w.toNat >>> 40

theorem toNat_numerator (w : UInt64) : (w >>> 40).toNat = numerator w := UInt64.toNat_shiftRight _ _

theorem numerator_lt (w : UInt64) : numerator w < 2 ^ 24 := by
  have hw := w.toNat_lt
  unfold numerator
  rw [Nat.shiftRight_eq_div_pow]
  omega

/-- the whole number with 53 digits -/
theorem unpack_unitOf {w : UInt64} (h : 0 < numerator w) : ∃ (j : ℕ) (hpos : 0 < numerator w * 2 ^ j),
    2 ^ 52 ≤ numerator w * 2 ^ j ∧ numerator w * 2 ^ j < 2 ^ 53 ∧ j ≤ 52 ∧
      (unitOf w).toModel.unpack = .finite .positive (numerator w * 2 ^ j) (-j - 24) hpos := by
  have hlog : (numerator w).log2 ≤ 23 := Decimal.log2_le_of_lt (numerator_lt w)
  have hself := Nat.log2_self_le h.ne'
  have hnext : numerator w < 2 ^ ((numerator w).log2 + 1) := Nat.lt_log2_self
  obtain ⟨j, hj⟩ : ∃ j, j + (numerator w).log2 = 52 := ⟨52 - (numerator w).log2, by omega⟩
  have hlow : 2 ^ 52 ≤ numerator w * 2 ^ j := by
    rw [← hj, pow_add, mul_comm]
    exact Nat.mul_le_mul_right _ hself
  have hhigh : numerator w * 2 ^ j < 2 ^ 53 := by
    rw [show 53 = (numerator w).log2 + 1 + j by omega, pow_add]
    exact Nat.mul_lt_mul_of_pos_right hnext (Nat.two_pow_pos j)
  have hpos : 0 < numerator w * 2 ^ j := by positivity
  refine ⟨j, hpos, hlow, hhigh, by omega, ?_⟩
  have hwhole := Decimal.unpack_toFloat (n := w >>> 40) (j := j)
  simp only [toNat_numerator] at hwhole
  exact Decimal.unpack_div (hwhole hlow hhigh hpos) hlow hhigh (by omega) (by omega)

theorem unitOf_zero {w : UInt64} (h : numerator w = 0) : unitOf w = 0.0 := by
  have hword : w >>> 40 = 0 := UInt64.toNat_inj.1 ((toNat_numerator w).trans h)
  unfold unitOf
  rw [hword]
  decide +kernel

/-- **A uniform double** is a whole number divided by 2^24. -/
theorem value_unitOf (w : UInt64) : Decimal.value (unitOf w) = some ((numerator w : ℚ) / 2 ^ 24) := by
  rcases Nat.eq_zero_or_pos (numerator w) with h | h
  · have hparts : Decimal.parts 0.0 = .finite false 0 (-1074) := by decide +kernel
    rw [unitOf_zero h, h]
    unfold Decimal.value
    rw [hparts]
    norm_num [Decimal.signed]
  · obtain ⟨j, hpos, -, -, -, hunpack⟩ := unpack_unitOf h
    rw [Decimal.value_of_unpack hunpack]
    congr 1
    push_cast
    rw [zpow_sub₀ (by norm_num), zpow_neg, zpow_natCast]
    field_simp

/-- **Too small** are 0 and 2^-24. -/
theorem unitOf_tooSmall_iff (w : UInt64) : unitOf w ≤ Normal.tooSmall ↔ numerator w < 2 := by
  have hsmall : Normal.tooSmall.toModel.unpack = .finite .positive 7555786372591432 (-76) (by norm_num) := by
    rfl
  rw [Decimal.le_iff_compare, hsmall]
  rcases Nat.eq_zero_or_pos (numerator w) with h | h
  · rw [unitOf_zero h, h]
    exact iff_of_true ⟨.lt, rfl, rfl⟩ (by norm_num)
  · obtain ⟨j, hpos, hlow, hhigh, hj, hunpack⟩ := unpack_unitOf h
    rw [hunpack]
    show (∃ o, some ((compare (-(j : ℤ) - 24) (-76)).then
      (compare (numerator w * 2 ^ j) 7555786372591432)) = some o ∧ _) ↔ _
    rcases hj.lt_or_eq with hlt | rfl
    · -- two or more have their leading digit above that of the bound
      have hgt : compare (-(j : ℤ) - 24) (-76) = .gt := by
        rw [Int.compare_eq_gt]
        omega
      have htwo : 2 ≤ numerator w := by
        have hle : numerator w * 2 ^ j ≤ numerator w * 2 ^ 51 :=
          Nat.mul_le_mul_left _ (Nat.pow_le_pow_right (by norm_num) (by omega))
        omega
      rw [hgt]
      refine iff_of_false ?_ (by omega)
      rintro ⟨o, ho, hle⟩
      cases ho
      cases hle
    · have hone : numerator w = 1 := by omega
      rw [hone]
      exact iff_of_true ⟨.lt, by decide, rfl⟩ (by norm_num)

end Generator

end KeyHold
