/-
Whole parts and the order of doubles.

Positive doubles are ordered by their exponents and then by their digits, since a double whose exponent is not the
least has all its digits.

- `truncate_mono`: a double above one that is not negative has no smaller whole part.
- `pos_iff_not_le_zero`: a finite double is positive or at most zero.
- `wholePart_atLeast`: a sample clamped from below has no smaller whole part than the bound.
-/
import Mathlib.Tactic
import KeyHold.Random.Normal
import KeyHold.Proofs.Decimal.Finite

namespace KeyHold.Decimal

open Float.Model Float.Model.UnpackedFloat

/-! ## Whole parts of digits and exponents -/

/-- the whole part of `m * 2^e` -/
def wholeOf (m : ℕ) (e : ℤ) : ℕ := (ratio m e).1 / (ratio m e).2

theorem wholeOf_zero (e : ℤ) : wholeOf 0 e = 0 := by
  unfold wholeOf ratio
  split_ifs <;> simp

theorem wholeOf_eq (m : ℕ) {e : ℤ} (he : -1074 ≤ e) : wholeOf m e = m * 2 ^ (e + 1074).toNat / 2 ^ 1074 := by
  unfold wholeOf ratio two
  split_ifs with h
  · rw [show (e + 1074).toNat = e.toNat + 1074 by omega, pow_add, ← mul_assoc,
      Nat.mul_div_cancel _ (Nat.two_pow_pos _)]
    exact Nat.div_one _
  · rw [show 2 ^ 1074 = 2 ^ (-e).toNat * 2 ^ (e + 1074).toNat by rw [← pow_add]; congr 1; omega,
      Nat.mul_div_mul_right _ _ (Nat.two_pow_pos _)]
    rfl

theorem wholeOf_mono {m m' : ℕ} {e e' : ℤ} (he : -1074 ≤ e) (hle : e ≤ e') (h : m ≤ m' * 2 ^ (e' - e).toNat) :
    wholeOf m e ≤ wholeOf m' e' := by
  rw [wholeOf_eq m he, wholeOf_eq m' (he.trans hle)]
  apply Nat.div_le_div_right
  calc m * 2 ^ (e + 1074).toNat ≤ m' * 2 ^ (e' - e).toNat * 2 ^ (e + 1074).toNat := Nat.mul_le_mul_right _ h
    _ = m' * 2 ^ (e' + 1074).toNat := by
      rw [mul_assoc, ← pow_add]
      congr 2
      omega

/-- the whole part of what a double unpacks to -/
theorem truncate_eq (x : Float) : truncate x = match partsOf x.toModel.unpack with
    | .nan => .error .nan
    | .infinite _ => .error .infinite
    | .finite s m e => .ok (signed s (wholeOf m e)) := by
  unfold truncate
  rw [parts_eq]
  rfl

/-! ## The order -/

theorem lt_iff_compare (x y : Float) :
    x < y ↔ UnpackedFloat.compare x.toModel.unpack y.toModel.unpack = some .lt := by
  show Float.lt x y = true ↔ _
  unfold Float.lt
  rw [decide_eq_true_iff]
  exact beq_iff_eq

theorem le_iff_compare (x y : Float) :
    x ≤ y ↔ ∃ o, UnpackedFloat.compare x.toModel.unpack y.toModel.unpack = some o ∧ o.isLE = true := by
  show Float.le x y = true ↔ _
  unfold Float.le
  rw [decide_eq_true_iff]
  show UnpackedFloat.le _ _ = true ↔ _
  unfold UnpackedFloat.le
  rcases UnpackedFloat.compare x.toModel.unpack y.toModel.unpack with _ | _ | _ | _ <;> simp

/-- a finite double is positive unless it is at most zero -/
theorem pos_iff_not_le_zero {x : Float} (h : Finite x) : 0.0 < x ↔ ¬ x ≤ 0.0 := by
  rw [finite_iff_unpack] at h
  rw [lt_iff_compare, le_iff_compare, show (0.0 : Float).toModel.unpack = .zero .positive from rfl]
  rcases hx : x.toModel.unpack with _ | _ | _ | ⟨_ | _, _, _, _⟩ <;> rw [hx] at h
  case notANumber => cases h
  case infinity => cases h
  all_goals simp [UnpackedFloat.compare]

/-- what is above something that is not negative is positive -/
theorem positive_of_compare {u v : UnpackedFloat} (hu : UnpackedFloat.compare u (.zero .positive) ≠ some .lt)
    (h : UnpackedFloat.compare u v = some .lt) :
    v = .infinity .positive ∨ ∃ k e hk, v = .finite .positive k e hk := by
  rcases v with (_ | _) | _ | _ | ⟨_ | _, k, e, hk⟩
  case infinity.positive => exact Or.inl rfl
  case finite.positive => exact Or.inr ⟨k, e, hk, rfl⟩
  all_goals rcases u with (_ | _) | _ | _ | ⟨_ | _, _⟩ <;> first | exact absurd rfl hu | cases h

/-- positive doubles are ordered by their exponents first -/
theorem wholeOf_le_of_compare {x y : Float} {k k' : ℕ} {e e' : ℤ} {hk : 0 < k} {hk' : 0 < k'}
    (hx : x.toModel.unpack = .finite .positive k e hk) (hy : y.toModel.unpack = .finite .positive k' e' hk')
    (h : (compare e e').then (compare k k') = .lt) : wholeOf k e ≤ wholeOf k' e' := by
  obtain ⟨hlt, hlow, -, -⟩ := unpack_finite hx
  obtain ⟨-, hlow', -, hfull⟩ := unpack_finite hy
  rcases Ordering.then_eq_lt.1 h with he | ⟨he, hkk⟩
  · rw [Int.compare_eq_lt] at he
    apply wholeOf_mono hlow he.le
    -- the larger exponent is not the least, so all digits are there
    have hdigits : 2 ^ 52 ≤ k' := hfull.resolve_right (by omega)
    calc k ≤ 2 ^ 52 * 2 ^ 1 := by omega
      _ ≤ k' * 2 ^ (e' - e).toNat := Nat.mul_le_mul hdigits (Nat.pow_le_pow_right (by norm_num) (by omega))
  · rw [Int.compare_eq_eq] at he
    rw [Nat.compare_eq_lt] at hkk
    apply wholeOf_mono hlow he.le
    rw [he]
    simpa using hkk.le

/-- **Whole parts follow the order** of doubles that are not negative. -/
theorem truncate_mono {x y : Float} {m n : ℤ} (h0 : ¬ x < 0.0) (h : x < y) (hm : truncate x = .ok m)
    (hn : truncate y = .ok n) : m ≤ n := by
  rw [lt_iff_compare, show (0.0 : Float).toModel.unpack = .zero .positive from rfl] at h0
  rw [lt_iff_compare] at h
  rw [truncate_eq] at hm hn
  rcases positive_of_compare h0 h with hy | ⟨k', e', hk', hy⟩
  · rw [hy] at hn
    cases hn
  rw [hy] at h hn
  obtain rfl : (wholeOf k' e' : ℤ) = n := Except.ok.inj hn
  rcases hx : x.toModel.unpack with s | _ | s | ⟨_ | _, k, e, hk⟩ <;> rw [hx] at h0 h hm
  · cases hm
  · cases hm
  · obtain rfl : signed (s == .negative) (wholeOf 0 (-1074)) = m := Except.ok.inj hm
    rw [wholeOf_zero]
    cases s <;> exact Int.natCast_nonneg _
  · exact absurd rfl h0
  · obtain rfl : (wholeOf k e : ℤ) = m := Except.ok.inj hm
    exact_mod_cast wholeOf_le_of_compare hx hy (Option.some.inj h)

end KeyHold.Decimal

namespace KeyHold

theorem wholePart_eq_ok {x : Float} {n : ℤ} : wholePart x = .ok n ↔ Decimal.truncate x = .ok n := by
  unfold wholePart
  cases Decimal.truncate x <;> simp [Except.mapError]

/-- a finite double has a whole part -/
theorem wholePart_ok {x : Float} (h : Decimal.Finite x) : ∃ n, wholePart x = .ok n := by
  obtain ⟨n, hn⟩ := (Decimal.truncate_isOk_iff x).2 h
  exact ⟨n, wholePart_eq_ok.2 hn⟩

theorem wholePart_atLeast {bound x : Float} {m n : ℤ} (h0 : ¬ bound < 0.0) (hm : wholePart bound = .ok m)
    (hn : wholePart (Normal.atLeast bound x) = .ok n) : m ≤ n := by
  unfold Normal.atLeast at hn
  split_ifs at hn with h
  · exact Decimal.truncate_mono h0 h (wholePart_eq_ok.1 hm) (wholePart_eq_ok.1 hn)
  · rw [hm] at hn
    exact (Except.ok.inj hn).le

end KeyHold
