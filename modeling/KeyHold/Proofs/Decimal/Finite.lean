/-
Doubles that stay finite.

A double that is neither an infinity nor "not a number" unpacks to a sign with m * 2^e, where m has 53 digits at most
and e lies between -1074 and 971. A result is rounded to such a form and becomes an infinity only when its exponent
would pass 971. So whether a result is finite is a matter of the exponent that rounding leaves it with:

- `parts_eq`: what a double is decoded to is what it unpacks to.
- `exponent_round_succ`: rounding adds at most one to the exponent that the digits are cut to.
- `exponent_round_le`: a value that does not pass a double is not rounded past it.

Results about operations:
- `finite_mul`: a finite double times a factor of at most one is finite.
- `finite_div_thousand`: a finite double divided by a thousand is finite.
- `ofIntScaled?_thousandth`: an integer of 53 bits divided by a thousand is a double.
-/
import Mathlib
import KeyHold.Decimal.Binary

namespace KeyHold.Decimal

open Float.Model Float.Model.UnpackedFloat

/-! ## The fields of a double -/

theorem exponentField_toNat (b : BitVec 64) :
    (@unpackExponent Format.binary64 b).toNat = b.toNat / two 52 % two 11 := by
  simp [unpackExponent, two, BitVec.extractLsb, BitVec.extractLsb', Nat.shiftRight_eq_div_pow]

theorem mantissaField_toNat (b : BitVec 64) :
    (@unpackMantissa Format.binary64 b).toNat = b.toNat % two 52 := by
  simp [unpackMantissa, two, BitVec.extractLsb, BitVec.extractLsb', Nat.shiftRight_eq_div_pow]

theorem signField_toNat (b : BitVec 64) :
    (@unpackSign Format.binary64 b).toNat = b.toNat / two 63 % 2 := by
  simp [unpackSign, two, BitVec.extractLsb, BitVec.extractLsb', Nat.shiftRight_eq_div_pow]

theorem one_append_toNat (v : BitVec 52) : (1#1 ++ v).toNat = 2 ^ 52 + v.toNat := by
  rw [BitVec.toNat_append, ← Nat.shiftLeft_add_eq_or_of_lt v.isLt]
  simp [Nat.shiftLeft_eq]

theorem sign_ofBitVec (b : BitVec 1) : (Sign.ofBitVec b == .negative) = (b.toNat == 1) := by
  revert b
  decide

/-- the parts of an unpacked double -/
def partsOf : UnpackedFloat → Parts
  | .notANumber => .nan
  | .infinity s => .infinite (s == .negative)
  | .zero s => .finite (s == .negative) 0 (-1074)
  | .finite s m e _ => .finite (s == .negative) m e

/-- the two decodings of a double agree -/
theorem parts_eq (x : Float) : parts x = partsOf x.toModel.unpack := by
  set b := x.toModel.toBits.toBitVec with hb
  have hs := sign_ofBitVec (@unpackSign Format.binary64 b)
  have he := exponentField_toNat b
  have hm := mantissaField_toNat b
  have ha := one_append_toNat (@unpackMantissa Format.binary64 b)
  rw [signField_toNat] at hs
  have h1 : @unpackExponent Format.binary64 b = -1#11 ↔ b.toNat / two 52 % two 11 = 2047 := by
    rw [← BitVec.toNat_inj, he]
    rfl
  have h2 : @unpackExponent Format.binary64 b = 0#11 ↔ b.toNat / two 52 % two 11 = 0 := by
    rw [← BitVec.toNat_inj, he]
    rfl
  have h3 : @unpackMantissa Format.binary64 b = 0#52 ↔ b.toNat % two 52 = 0 := by
    rw [← BitVec.toNat_inj, hm]
    rfl
  show partsOfBits b.toNat = _
  unfold partsOfBits Float.Model.unpack UnpackedFloat.unpack
  dsimp only
  rw [← hb]
  simp only [h1, h2, h3]
  split_ifs with c1 c2 c3 c4
  · simp only [partsOf, hs]
  · rfl
  · simp only [partsOf, hs, c4]
  · simp only [partsOf, hs, hm, he, c3]
    norm_num [Format.exponentBias]
  · simp only [partsOf, hs, ha, hm, he]
    norm_num [Format.exponentBias, two]
    omega

theorem finite_iff_unpack (x : Float) : Finite x ↔ x.toModel.unpack.isFinite = true := by
  unfold Finite
  rw [parts_eq]
  cases x.toModel.unpack <;> simp [partsOf, UnpackedFloat.isFinite]

theorem finite_iff_exponentField (x : Float) :
    Finite x ↔ @unpackExponent Format.binary64 x.toBits.toBitVec ≠ -1#11 := by
  have h := exponentField_toNat x.toBits.toBitVec
  have h1 : @unpackExponent Format.binary64 x.toBits.toBitVec = -1#11 ↔
      x.toBits.toNat / two 52 % two 11 = 2047 := by
    rw [← BitVec.toNat_inj, h]
    rfl
  rw [Ne, h1]
  unfold Finite parts partsOfBits
  dsimp only
  split_ifs <;> simp_all

/-- the exponent of a result is at most `n`, if it is a number other than zero -/
def ExponentAtMost (n : ℤ) : UnpackedFloat → Prop
  | .zero _ => True
  | .finite _ _ e _ => e ≤ n
  | _ => False

/-- a result whose exponent is not too large is a double -/
theorem finite_pack {u : UnpackedFloat} (h : ExponentAtMost 971 u) : Finite (.ofModel (.pack u)) := by
  rw [finite_iff_exponentField]
  show @unpackExponent Format.binary64 (UnpackedFloat.pack Format.binary64 u) ≠ -1#11
  cases u with
  | zero s =>
    simp [UnpackedFloat.pack, packedZero]
  | finite s m e hm =>
    have he : e ≤ 971 := h
    have hb : ¬ 2 ^ Format.binary64.exponentBits ≤
        (e + Format.binary64.exponentBias + Format.binary64.mantissaBitsWithoutImplicit).toNat + 1 := by
      simp only [Format.exponentBias]
      omega
    simp only [UnpackedFloat.pack, if_neg hb]
    split_ifs
    · rw [unpackExponent_packComponents, ← BitVec.toNat_inj.ne]
      simp only [Format.exponentBias, BitVec.toNat_ofNat] at hb ⊢
      simp
      omega
    · simp
  | infinity s => exact h.elim
  | notANumber => exact h.elim

/-- the parts that a double unpacks to -/
theorem unpack_finite {x : Float} {s : Sign} {m : ℕ} {e : ℤ} {hm : 0 < m} (h : x.toModel.unpack = .finite s m e hm) :
    m < 2 ^ 53 ∧ -1074 ≤ e ∧ e ≤ 971 ∧ (2 ^ 52 ≤ m ∨ e = -1074) := by
  have hE : (@unpackExponent Format.binary64 x.toModel.toBits.toBitVec).toNat < 2048 := BitVec.isLt _
  have hM : (@unpackMantissa Format.binary64 x.toModel.toBits.toBitVec).toNat < 2 ^ 52 := BitVec.isLt _
  unfold Float.Model.unpack UnpackedFloat.unpack at h
  dsimp only at h
  split_ifs at h with h1 h2 h3 h4
  · injection h with _ hm' he'
    rw [h3] at he'
    simp only [Format.exponentBias] at he'
    norm_num at he' hM ⊢
    omega
  · injection h with _ hm' he'
    rw [one_append_toNat] at hm'
    have hne : (@unpackExponent Format.binary64 x.toModel.toBits.toBitVec).toNat ≠ 2047 :=
      fun hc => h1 (BitVec.toNat_inj.1 hc)
    have hne0 : (@unpackExponent Format.binary64 x.toModel.toBits.toBitVec).toNat ≠ 0 :=
      fun hc => h3 (BitVec.toNat_inj.1 hc)
    simp only [Format.exponentBias] at he'
    norm_num at he' hM hm' ⊢
    omega

/-! ## Rounding -/

theorem shift_mantissa (em : ExtendedMantissa) (k : ℕ) : (em >>> k).mantissa = em.mantissa / 2 ^ k := by
  induction k with
  | zero => simp [HShiftRight.hShiftRight, Nat.repeat]
  | succ k ih =>
    show (em >>> k).mantissa / 2 = _
    rw [ih, Nat.div_div_eq_div_mul, pow_succ]

/-- zeros that are shifted out leave nothing to round -/
theorem shift_exact (r k : ℕ) :
    (ExtendedMantissa.ofMantissaAndAccuracy (r * 2 ^ k) .exact >>> k) = ⟨r, false, false⟩ := by
  induction k generalizing r with
  | zero => simp [HShiftRight.hShiftRight, Nat.repeat, ExtendedMantissa.ofMantissaAndAccuracy]
  | succ k ih =>
    show ExtendedMantissa.shiftRightOne (ExtendedMantissa.ofMantissaAndAccuracy (r * 2 ^ (k + 1)) .exact >>> k) = _
    rw [show r * 2 ^ (k + 1) = (r * 2) * 2 ^ k by ring, ih]
    simp [ExtendedMantissa.shiftRightOne]

theorem rounded_le (em : ExtendedMantissa) : em.roundedMantissa ≤ em.mantissa + 1 := by
  obtain ⟨m, r, s⟩ := em
  cases r <;> cases s <;>
    simp only [ExtendedMantissa.roundedMantissa, ExtendedMantissa.accuracy, Accuracy.roundToNearestEven] <;> omega

theorem mantissa_ofAccuracy (m : ℕ) (a : Accuracy) : (ExtendedMantissa.ofMantissaAndAccuracy m a).mantissa = m := by
  cases a with
  | exact => rfl
  | inexact o => cases o <;> rfl

/-- rounding does not pass a bound that has no digits to lose -/
theorem rounded_shift_le {m r k : ℕ} (h : m ≤ r * 2 ^ k) :
    (ExtendedMantissa.ofMantissaAndAccuracy m .exact >>> k).roundedMantissa ≤ r := by
  have hm : (ExtendedMantissa.ofMantissaAndAccuracy m .exact >>> k).mantissa = m / 2 ^ k := by
    rw [shift_mantissa, mantissa_ofAccuracy]
  have hle : m / 2 ^ k ≤ r := by
    calc m / 2 ^ k ≤ r * 2 ^ k / 2 ^ k := Nat.div_le_div_right h
      _ = r := Nat.mul_div_cancel r (Nat.two_pow_pos k)
  rcases hle.lt_or_eq with hlt | heq
  · have := rounded_le (ExtendedMantissa.ofMantissaAndAccuracy m .exact >>> k)
    omega
  · have hmul : m = r * 2 ^ k := h.antisymm (heq ▸ Nat.div_mul_le_self m (2 ^ k))
    rw [hmul, shift_exact]
    exact le_rfl

/-- the exponent that the digits of `m * 2^e` are cut to -/
def cutExponent (m : ℕ) (e : ℤ) : ℤ := max e (max ((m.log2 : ℤ) + e - 52) (-1074))

theorem shiftToTarget_eq (m : ℕ) (e : ℤ) (a : Accuracy) :
    shiftToTargetExponent Format.binary64 m e a =
      (ExtendedMantissa.ofMantissaAndAccuracy m a >>> (cutExponent m e - e).toNat, cutExponent m e) := by
  have ht : Format.binary64.targetExponent (totalExponent m e) = max ((m.log2 : ℤ) + e - 52) (-1074) := by
    simp only [Format.targetExponent, totalExponent, Format.mantissaBits, Format.minExponent]
    norm_num
    omega
  have hk : (max ((m.log2 : ℤ) + e - 52) (-1074) - e).toNat = (cutExponent m e - e).toNat := by
    unfold cutExponent
    omega
  have he : e + ((cutExponent m e - e).toNat : ℤ) = cutExponent m e := by
    unfold cutExponent
    omega
  simp only [shiftToTargetExponent, shiftToExponent, ht, hk, he]

/-- a rounded result has at most the exponent to which the rounded digits are cut -/
theorem exponent_round {m : ℕ} {e n : ℤ} {a : Accuracy} {s : Sign} (h : cutExponent
      (ExtendedMantissa.ofMantissaAndAccuracy m a >>> (cutExponent m e - e).toNat).roundedMantissa (cutExponent m e) ≤ n) :
    ExponentAtMost n (roundWithAccuracy Format.binary64 s m e a) := by
  unfold roundWithAccuracy
  rw [shiftToTarget_eq]
  dsimp only
  rw [shiftToTarget_eq]
  dsimp only
  split_ifs
  · trivial
  · exact h

theorem log2_le_of_lt {m k : ℕ} (h : m < 2 ^ (k + 1)) : m.log2 ≤ k := by
  rcases Nat.eq_zero_or_pos m with rfl | hm
  · simp
  · have := (Nat.log2_lt hm.ne').2 h
    omega

/-- at most 53 digits are left when digits have been cut -/
theorem cut_digits_lt (m : ℕ) (e : ℤ) : m / 2 ^ (cutExponent m e - e).toNat < 2 ^ 53 := by
  rw [Nat.div_lt_iff_lt_mul (Nat.two_pow_pos _), ← pow_add]
  calc m < 2 ^ (m.log2 + 1) := Nat.lt_log2_self
    _ ≤ 2 ^ (53 + (cutExponent m e - e).toNat) := by
      apply Nat.pow_le_pow_right (by norm_num)
      unfold cutExponent
      omega

/-- rounding adds at most one to the exponent that the digits are cut to -/
theorem exponent_round_succ {m : ℕ} {e n : ℤ} (a : Accuracy) (s : Sign) (h : cutExponent m e ≤ n) :
    ExponentAtMost (n + 1) (roundWithAccuracy Format.binary64 s m e a) := by
  apply exponent_round
  have hr := rounded_le (ExtendedMantissa.ofMantissaAndAccuracy m a >>> (cutExponent m e - e).toNat)
  rw [shift_mantissa, mantissa_ofAccuracy] at hr
  have hlt := cut_digits_lt m e
  have hlog := log2_le_of_lt (k := 53) (hr.trans_lt (by omega))
  have hlow : -1074 ≤ cutExponent m e := by unfold cutExponent; omega
  generalize (ExtendedMantissa.ofMantissaAndAccuracy m a >>> (cutExponent m e - e).toNat).roundedMantissa = r at *
  unfold cutExponent at *
  omega

/-- rounding does not pass a double: a value of at most `r * 2^(e + j)` is not rounded to a larger exponent -/
theorem exponent_round_le {m r j : ℕ} {e : ℤ} (s : Sign) (h : m ≤ r * 2 ^ j) (hr : r < 2 ^ 53) (he : -1074 ≤ e + j) :
    ExponentAtMost (e + j) (roundWithAccuracy Format.binary64 s m e .exact) := by
  apply exponent_round
  have hm : m.log2 ≤ 52 + j := by
    apply log2_le_of_lt
    calc m ≤ r * 2 ^ j := h
      _ < 2 ^ 53 * 2 ^ j := Nat.mul_lt_mul_of_pos_right hr (Nat.two_pow_pos j)
      _ = 2 ^ (52 + j + 1) := by rw [← pow_add]; congr 1; omega
  have hcut : cutExponent m e ≤ e + j := by unfold cutExponent; omega
  rcases hcut.lt_or_eq with hlt | heq
  · -- a larger exponent is still free
    have := rounded_le (ExtendedMantissa.ofMantissaAndAccuracy m .exact >>> (cutExponent m e - e).toNat)
    rw [shift_mantissa, mantissa_ofAccuracy] at this
    have hd := cut_digits_lt m e
    have hlog := log2_le_of_lt (k := 53) (this.trans_lt (by omega))
    have hlow : -1074 ≤ cutExponent m e := by unfold cutExponent; omega
    generalize (ExtendedMantissa.ofMantissaAndAccuracy m .exact >>> (cutExponent m e - e).toNat).roundedMantissa = q at *
    unfold cutExponent at *
    omega
  · -- all digits below those of `r` are cut
    have hk : (cutExponent m e - e).toNat = j := by omega
    have hq := rounded_shift_le (k := j) h
    rw [hk, heq]
    have hlog := log2_le_of_lt (k := 52) (hq.trans_lt hr)
    generalize (ExtendedMantissa.ofMantissaAndAccuracy m .exact >>> j).roundedMantissa = q at *
    unfold cutExponent
    omega

/-! ## Operations -/

theorem ExponentAtMost.mono {n n' : ℤ} {u : UnpackedFloat} (h : ExponentAtMost n u) (hn : n ≤ n') :
    ExponentAtMost n' u := by
  cases u with
  | zero s => trivial
  | finite s m e hm => exact le_trans (show e ≤ n from h) hn
  | infinity s => exact h.elim
  | notANumber => exact h.elim

theorem finite_zero : Finite 0.0 := by decide +kernel

/-- a factor of at most one -/
def atMostOne (y : Float) : Bool :=
  match y.toModel.unpack with
  | .zero _ => true
  | .finite _ m e _ => decide (e ≤ 0 ∧ m ≤ 2 ^ (-e).toNat)
  | _ => false

/-- **A factor of at most one** leaves a double finite. -/
theorem finite_mul {x y : Float} (hx : Finite x) (hy : atMostOne y = true) : Finite (x * y) := by
  rw [finite_iff_unpack] at hx
  apply finite_pack
  unfold atMostOne at hy
  cases hu : x.toModel.unpack with
  | infinity s => rw [hu] at hx; cases hx
  | notANumber => rw [hu] at hx; cases hx
  | zero s =>
    cases hv : y.toModel.unpack with
    | infinity s' => rw [hv] at hy; cases hy
    | notANumber => rw [hv] at hy; cases hy
    | zero s' => trivial
    | finite s' m' e' hm' => trivial
  | finite s m e hm =>
    cases hv : y.toModel.unpack with
    | infinity s' => rw [hv] at hy; cases hy
    | notANumber => rw [hv] at hy; cases hy
    | zero s' => trivial
    | finite s' m' e' hm' =>
      rw [hv] at hy
      obtain ⟨he', hm'⟩ := of_decide_eq_true hy
      obtain ⟨hlt, hlow, hhigh, -⟩ := unpack_finite hu
      -- the product does not pass `m * 2^e`
      have hr := exponent_round_le (s * s') (Nat.mul_le_mul_left m hm') hlt (e := e + e') (by omega)
      exact hr.mono (by omega)

/-- a thousand as it unpacks -/
theorem unpack_thousand : (1000.0 : Float).toModel.unpack = .finite .positive (1000 * 2 ^ 43) (-43) (by norm_num) := rfl

/-- **A thousandth** of a finite double is finite. -/
theorem finite_div_thousand {x : Float} (hx : Finite x) : Finite (x / 1000.0) := by
  rw [finite_iff_unpack] at hx
  apply finite_pack
  rw [unpack_thousand]
  cases hu : x.toModel.unpack with
  | infinity s => rw [hu] at hx; cases hx
  | notANumber => rw [hu] at hx; cases hx
  | zero s => trivial
  | finite s m e hm =>
    obtain ⟨hlt, hlow, hhigh, -⟩ := unpack_finite hu
    obtain ⟨te, hte⟩ : ∃ te, te = min (e - (-43)) (Format.binary64.targetExponent
      (totalExponent m e - totalExponent (1000 * 2 ^ 43) (-43))) := ⟨_, rfl⟩
    show ExponentAtMost 971 (roundWithAccuracy Format.binary64 _
      ((m <<< (e - (-43) - _).toNat) / (1000 * 2 ^ 43)) (min (e - (-43)) _) _)
    rw [← hte]
    have hlog : m.log2 ≤ 52 := log2_le_of_lt hlt
    have hlog' : (1000 * 2 ^ 43 : ℕ).log2 = 52 := by decide +kernel
    have htop : te ≤ 961 ∧ te ≤ e + 43 := by
      simp only [Format.targetExponent, totalExponent, Format.mantissaBits, Format.minExponent, hlog'] at hte
      norm_num at hte
      omega
    -- the quotient has one digit more than the shift at most
    have hq : ((m <<< (e - (-43) - te).toNat) / (1000 * 2 ^ 43)).log2 ≤ (e - (-43) - te).toNat := by
      apply log2_le_of_lt
      rw [Nat.shiftLeft_eq, Nat.div_lt_iff_lt_mul (by norm_num)]
      calc m * 2 ^ (e - (-43) - te).toNat < 2 ^ 53 * 2 ^ (e - (-43) - te).toNat :=
            Nat.mul_lt_mul_of_pos_right hlt (Nat.two_pow_pos _)
        _ = 2 ^ ((e - (-43) - te).toNat + 1) * 2 ^ 52 := by rw [← pow_add, ← pow_add]; congr 1; omega
        _ ≤ 2 ^ ((e - (-43) - te).toNat + 1) * (1000 * 2 ^ 43) := Nat.mul_le_mul_left _ (by norm_num)
    apply (exponent_round_succ (n := 970) _ _ _).mono (by norm_num)
    unfold cutExponent
    omega

theorem finite_ofUInt64 (n : UInt64) : Finite n.toFloat := by
  apply finite_pack
  show ExponentAtMost 971 (UnpackedFloat.normalize Format.binary64 (n.toNat : ℤ) 0 .positive)
  unfold UnpackedFloat.normalize
  split
  · rename_i h
    rw [Int.compare_eq_lt] at h
    omega
  · trivial
  · unfold UnpackedFloat.round decreaseExponent
    dsimp only
    rw [Int.toNat_natCast, Nat.shiftLeft_eq]
    generalize (0 - Format.binary64.targetExponent (totalExponent n.toNat 0)).toNat = k
    have hlog : (n.toNat * 2 ^ k).log2 ≤ 63 + k := by
      apply log2_le_of_lt
      calc n.toNat * 2 ^ k < 2 ^ 64 * 2 ^ k := Nat.mul_lt_mul_of_pos_right n.toNat_lt (Nat.two_pow_pos k)
        _ = 2 ^ (63 + k + 1) := by rw [← pow_add]; congr 1; omega
    apply (exponent_round_succ (n := 970) _ _ _).mono (by norm_num)
    unfold cutExponent
    omega

theorem ofScientific_thousandth {n : ℕ} (h : n < 2 ^ 53) :
    Float.ofScientific n true 3 = n.toUInt64.toFloat / 1000.0 := by
  have hcond : n < 2 ^ 53 ∧ 3 ≤ 22 := ⟨h, by norm_num⟩
  unfold Float.ofScientific
  rw [dif_pos hcond]
  have hp : Float.exactlyRepresentablePowersOfTen[3] = (1000.0 : Float) := by decide +kernel
  simp only [hp, if_true]

theorem ofIntScaled?_thousandth {n : ℤ} (h0 : 0 ≤ n) (h : n < 2 ^ 53) : ∃ x, ofIntScaled? n 3 = some x := by
  have hn : ¬ n < 0 := by omega
  refine ⟨Float.ofScientific n.natAbs true 3, ?_⟩
  simp only [ofIntScaled?, hn, if_false]
  rw [if_pos]
  rw [isFinite_iff, ofScientific_thousandth (by omega)]
  exact finite_div_thousand (finite_ofUInt64 _)

/-- what a split leaves of a hold is at most the whole -/
theorem rest_atMostOne {n : ℕ} (h : n ≤ 100) :
    atMostOne (1.0 - Float.ofScientific n true 0 / 100.0) = true := by
  have hf : ∀ m : Fin 101, atMostOne (1.0 - Float.ofScientific m.val true 0 / 100.0) = true := by decide +kernel
  exact hf ⟨n, by omega⟩

end KeyHold.Decimal
