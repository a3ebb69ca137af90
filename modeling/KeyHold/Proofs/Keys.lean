/-
Values as keys.

A value may be a key if it cannot change. It is found again by the same value, also where that is written in another
way: numbers are the same if they stand for one number, whether truth values, integers or doubles. For that `same` has to
be an equivalence of the values that may be keys. It goes both ways (`same_comm`), each value without "not a number" is
the same as itself (`same_self`), and here: what is the same as a third value is the same.

- `same_iff_extent`: **numbers** are the same if they stand for the same.
- `same_trans`: **keys** that are the same as one key are the same.
- `truthy_of_same`: of two values that are the same both count as true, or none.
-/
import Mathlib
import KeyHold.Proofs.Decimal.Equality
import KeyHold.Proofs.Reflexive
import KeyHold.Proofs.Value

namespace KeyHold

theorem Moment.same_trans {s t u : Moment} (hst : s.same t = true) (htu : t.same u = true) : s.same u = true := by
  simp only [same, Bool.and_eq_true, beq_iff_eq] at hst htu ⊢
  exact ⟨hst.1.trans htu.1, hst.2.trans htu.2⟩

namespace Value

variable {a b c : Value}

/-! ## Numbers -/

def isNumber : Value → Bool
  | bool _ | int _ | float _ => true
  | _ => false

/-- the number or the infinity that a value stands for -/
def extent : Value → Option (ℚ ⊕ Bool)
  | bool b => some (.inl (if b then 1 else 0))
  | int n => some (.inl n)
  | float x => Decimal.extent x
  | _ => none

/-- the quotient by which a double is compared with an integer is its number -/
theorem signed_quotient (neg : Bool) (m : ℕ) (q : ℤ) :
    (Decimal.signed neg (m * Decimal.two q.toNat) : ℚ) / Decimal.two (-q).toNat = Decimal.signed neg m * 2 ^ q := by
  have hsigned : (Decimal.signed neg (m * Decimal.two q.toNat) : ℚ) = Decimal.signed neg m * 2 ^ q.toNat := by
    cases neg <;> simp [Decimal.signed, Decimal.two]
  have htwo : ((Decimal.two (-q).toNat : ℕ) : ℚ) = 2 ^ (-q).toNat := by simp [Decimal.two]
  have hpow : (2 : ℚ) ^ q = 2 ^ q.toNat / 2 ^ (-q).toNat := by
    rw [← zpow_natCast, ← zpow_natCast, ← zpow_sub₀ (by norm_num)]
    congr 1
    omega
  rw [hsigned, htwo, hpow]
  ring

theorem extent_of_quotient? {n : ℤ} {k : ℕ} (h : a.quotient? = some (n, k)) :
    a.extent = some (.inl (n / Decimal.two k)) := by
  cases a with
  | bool b =>
    obtain ⟨rfl, rfl⟩ := Prod.mk.inj (Option.some.inj h)
    cases b <;> simp [extent, Decimal.two]
  | int m =>
    obtain ⟨rfl, rfl⟩ := Prod.mk.inj (Option.some.inj h)
    simp [extent, Decimal.two]
  | float x =>
    unfold quotient? at h
    unfold extent Decimal.extent
    dsimp only at h ⊢
    cases hx : Decimal.parts x with
    | finite neg m q =>
      simp only [hx, Option.some.injEq, Prod.mk.injEq] at h
      obtain ⟨rfl, rfl⟩ := h
      rw [signed_quotient]
    | _ =>
      rw [hx] at h
      cases h
  | _ => cases h

/-- a number that is no infinity is a quotient -/
theorem quotient?_of_extent {q : ℚ} (h : a.extent = some (.inl q)) : ∃ n k, a.quotient? = some (n, k) := by
  cases a with
  | bool b => exact ⟨_, _, rfl⟩
  | int m => exact ⟨_, _, rfl⟩
  | float x =>
    unfold extent Decimal.extent at h
    unfold quotient?
    dsimp only at h ⊢
    cases hx : Decimal.parts x with
    | finite neg m q => exact ⟨_, _, rfl⟩
    | _ =>
      rw [hx] at h
      cases h
  | _ => cases h

theorem quotients_eq_iff (n m : ℤ) (j k : ℕ) :
    (n * Decimal.two k == m * Decimal.two j) = true ↔ (n : ℚ) / Decimal.two j = m / Decimal.two k := by
  have htwo : ∀ i, (Decimal.two i : ℚ) ≠ 0 := by
    intro i
    simp [Decimal.two]
  rw [beq_iff_eq, div_eq_div_iff (htwo j) (htwo k)]
  exact_mod_cast Iff.rfl

theorem sameNumber_iff : sameNumber a b = true ↔ ∃ q, a.extent = some (.inl q) ∧ b.extent = some (.inl q) := by
  unfold sameNumber
  constructor
  · intro h
    split at h
    next n j m k ha hb =>
      rw [quotients_eq_iff] at h
      exact ⟨_, extent_of_quotient? ha, by rw [extent_of_quotient? hb, h]⟩
    · cases h
  · rintro ⟨q, ha, hb⟩
    obtain ⟨n, j, hn⟩ := quotient?_of_extent ha
    obtain ⟨m, k, hm⟩ := quotient?_of_extent hb
    rw [extent_of_quotient? hn] at ha
    rw [extent_of_quotient? hm] at hb
    rw [hn, hm]
    simp only [Option.some.injEq, Sum.inl.injEq] at ha hb
    rw [quotients_eq_iff, ha, hb]

/-- two numbers, unless they are doubles, are compared as quotients -/
theorem same_eq_sameNumber (ha : a.isNumber = true) (hb : b.isNumber = true)
    (h : ∀ x y, a = float x → b = float y → False) : a.same b = sameNumber a b := by
  cases a <;> cases b <;> try (simp [isNumber] at ha hb; done)
  case float.float x y => exact (h x y rfl rfl).elim
  all_goals
    simp only [same]
    rfl

/-- **Numbers are the same** exactly if they stand for the same. -/
theorem same_iff_extent (ha : a.isNumber = true) (hb : b.isNumber = true) :
    a.same b = true ↔ ∃ v, a.extent = some v ∧ b.extent = some v := by
  cases a <;> cases b <;> try (simp [isNumber] at ha hb; done)
  case float.float x y =>
    rw [same]
    exact Decimal.beq_iff_extent x y
  -- a truth value and an integer are no infinity, nor is what they are the same as
  all_goals
    rw [same_eq_sameNumber rfl rfl (by simp), sameNumber_iff]
    simp [extent]

theorem isNumber_of_sameNumber (h : sameNumber a b = true) : a.isNumber = true ∧ b.isNumber = true := by
  obtain ⟨q, ha, hb⟩ := sameNumber_iff.1 h
  constructor
  · cases a <;> first | rfl | cases ha
  · cases b <;> first | rfl | cases hb

/-- values that are the same are of one kind, or both are numbers -/
theorem kind_of_same (h : a.same b = true) : a.kind = b.kind ∨ a.isNumber = true ∧ b.isNumber = true := by
  by_cases hk : a.kind = b.kind
  · exact Or.inl hk
  · rw [same_of_kind_ne hk] at h
    exact Or.inr (isNumber_of_sameNumber h)

theorem isNumber_of_same (h : a.same b = true) : a.isNumber = b.isNumber := by
  rcases kind_of_same h with hk | ⟨ha, hb⟩
  · cases a <;> cases b <;> first | rfl | simp [kind] at hk
  · rw [ha, hb]

theorem kind_eq_of_same (ha : a.isNumber = false) (h : a.same b = true) : a.kind = b.kind := by
  rcases kind_of_same h with hk | ⟨ha', -⟩
  · exact hk
  · rw [ha] at ha'
    cases ha'

/-! ## Keys -/

/-- of what is nothing, a text, a row of bytes or a date, only itself is the same -/
theorem eq_of_same (ha : a = null ∨ (∃ s, a = str s) ∨ (∃ bs, a = bytes bs) ∨ ∃ d, a = date d)
    (h : a.same b = true) : a = b := by
  have hk : a.kind = b.kind := kind_eq_of_same (by rcases ha with rfl | ⟨_, rfl⟩ | ⟨_, rfl⟩ | ⟨_, rfl⟩ <;> rfl) h
  rcases ha with rfl | ⟨s, rfl⟩ | ⟨bs, rfl⟩ | ⟨d, rfl⟩ <;> cases b <;> try (simp [kind] at hk; done)
  · rfl
  all_goals
    simp only [same, beq_iff_eq] at h
    rw [h]

theorem exists_pair_of_same {x y : Value} (h : (pair x y).same a = true) :
    ∃ x' y', a = pair x' y' ∧ x.same x' = true ∧ y.same y' = true := by
  have hk := kind_eq_of_same rfl h
  cases a <;> try (simp [kind] at hk; done)
  case pair x' y' =>
    rw [same, Bool.and_eq_true] at h
    exact ⟨x', y', rfl, h⟩

theorem exists_moment_of_same {t : Moment} (h : (moment t).same a = true) : ∃ u, a = moment u ∧ t.same u = true := by
  have hk := kind_eq_of_same rfl h
  cases a <;> try (simp [kind] at hk; done)
  case moment u =>
    rw [same] at h
    exact ⟨u, rfl, h⟩

/-- numbers that are the same as one number are the same -/
theorem same_trans_of_isNumber (ha : a.isNumber = true) (hab : a.same b = true) (hbc : b.same c = true) :
    a.same c = true := by
  have hb : b.isNumber = true := (isNumber_of_same hab).symm.trans ha
  have hc : c.isNumber = true := (isNumber_of_same hbc).symm.trans hb
  rw [same_iff_extent ha hb] at hab
  rw [same_iff_extent hb hc] at hbc
  rw [same_iff_extent ha hc]
  obtain ⟨v, hav, hbv⟩ := hab
  obtain ⟨w, hbw, hcw⟩ := hbc
  obtain rfl : v = w := Option.some.inj (hbv.symm.trans hbw)
  exact ⟨v, hav, hcw⟩

/-- **Keys** that are the same as one key are the same. -/
theorem same_trans (ha : a.hashable = true) (hab : a.same b = true) (hbc : b.same c = true) : a.same c = true := by
  fun_induction hashable a generalizing b c with
  | case1 => cases ha
  | case2 => cases ha
  | case3 => cases ha
  | case4 x y ihx ihy =>
    obtain ⟨x', y', rfl, hx, hy⟩ := exists_pair_of_same hab
    obtain ⟨x'', y'', rfl, hx', hy'⟩ := exists_pair_of_same hbc
    obtain ⟨hax, hay⟩ := Bool.and_eq_true_iff.1 ha
    rw [same, ihx hax hx hx', ihy hay hy hy']
    rfl
  | case5 a hlist hset hmap hpair =>
    cases a with
    | bool | int | float => exact same_trans_of_isNumber rfl hab hbc
    | moment t =>
      obtain ⟨u, rfl, htu⟩ := exists_moment_of_same hab
      obtain ⟨v, rfl, huv⟩ := exists_moment_of_same hbc
      rw [same]
      exact Moment.same_trans htu huv
    | null | str | bytes | date => rwa [eq_of_same (by simp) hab]
    | list xs => exact (hlist xs rfl).elim
    | set xs => exact (hset xs rfl).elim
    | map xs => exact (hmap xs rfl).elim
    | pair x y => exact (hpair x y rfl).elim

/-- a key and one that is the same are the same as the same values -/
theorem same_congr (ha : a.hashable = true) (hb : b.hashable = true) (h : a.same b = true) (c : Value) :
    a.same c = b.same c := by
  have hba : b.same a = true := (same_comm hb ha).trans h
  rw [Bool.eq_iff_iff]
  constructor
  · intro hac
    exact same_trans hb hba hac
  · intro hbc
    exact same_trans ha h hbc

/-- what is the same as a key may be a key -/
theorem hashable_of_same (ha : a.hashable = true) (h : a.same b = true) : b.hashable = true := by
  fun_induction hashable a generalizing b with
  | case1 => cases ha
  | case2 => cases ha
  | case3 => cases ha
  | case4 x y ihx ihy =>
    obtain ⟨x', y', rfl, hx, hy⟩ := exists_pair_of_same h
    obtain ⟨hax, hay⟩ := Bool.and_eq_true_iff.1 ha
    rw [hashable, ihx hax hx, ihy hay hy]
    rfl
  | case5 a hlist hset hmap hpair =>
    cases hn : a.isNumber with
    | true =>
      have hb : b.isNumber = true := (isNumber_of_same h).symm.trans hn
      cases b <;> first | rfl | cases hb
    | false =>
      have hk := kind_eq_of_same hn h
      cases a <;> cases b <;> first
        | rfl
        | (simp [kind, isNumber] at hk hn; done)
        | exact (hlist _ rfl).elim
        | exact (hset _ rfl).elim
        | exact (hmap _ rfl).elim
        | exact (hpair _ _ rfl).elim

/-- a value that is found again under itself: it cannot change, and nothing in it is "not a number" -/
structure IsKey (v : Value) : Prop where
  hashable : v.hashable = true
  noNan : v.noNan = true

theorem IsKey.same_self (h : a.IsKey) : a.same a = true := Value.same_self a h.noNan

/-! ## What counts as false -/

theorem sameAll_length {xs ys : List Value} (h : sameAll xs ys = true) : xs.length = ys.length := by
  induction xs generalizing ys with
  | nil => cases ys <;> simp_all [sameAll]
  | cons x xs ih =>
    cases ys with
    | nil => simp [sameAll] at h
    | cons y ys =>
      rw [sameAll, Bool.and_eq_true] at h
      rw [List.length_cons, List.length_cons, ih h.2]

/-- a number counts as false if it is zero -/
theorem truthy_eq_false_iff (ha : a.isNumber = true) : a.truthy = false ↔ a.extent = some (.inl 0) := by
  cases a with
  | bool b => cases b <;> simp [truthy, extent]
  | int n => simp [truthy, extent]
  | float x =>
    have hzero : Decimal.extent 0.0 = some (.inl 0) := by
      rw [Decimal.extent_eq]
      rfl
    simp only [truthy, extent, Bool.not_eq_false', Decimal.beq_iff_extent, hzero]
    simp
  | _ => cases ha

theorem isEmpty_eq_of_length {α : Type} {xs ys : List α} (h : xs.length = ys.length) : xs.isEmpty = ys.isEmpty := by
  cases xs <;> cases ys <;> first | rfl | cases h

/-- **Of two values that are the same** both count as true, or both as false. -/
theorem truthy_of_same (h : a.same b = true) : a.truthy = b.truthy := by
  cases hn : a.isNumber with
  | true =>
    have hb : b.isNumber = true := (isNumber_of_same h).symm.trans hn
    obtain ⟨v, hav, hbv⟩ := (same_iff_extent hn hb).1 h
    have hiff : a.truthy = false ↔ b.truthy = false := by
      rw [truthy_eq_false_iff hn, truthy_eq_false_iff hb, hav, hbv]
    cases ha : a.truthy <;> cases hb : b.truthy <;> simp_all
  | false =>
    have hk := kind_eq_of_same hn h
    cases a <;> cases b <;> try (simp [kind, isNumber] at hk hn; done)
    case null => rfl
    case str => rw [eq_of_same (by simp) h]
    case bytes => rw [eq_of_same (by simp) h]
    case date | moment | pair => rfl
    case list xs ys =>
      rw [same] at h
      rw [truthy, truthy, isEmpty_eq_of_length (sameAll_length h)]
    case set xs ys | map xs ys =>
      rw [same, Bool.and_eq_true, beq_iff_eq] at h
      rw [truthy, truthy, isEmpty_eq_of_length h.1]

end Value
end KeyHold
