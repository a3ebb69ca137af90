/-
Equality of values goes both ways.

Whether two values are the same is asked in both orders: a registry asks it of a policy's name and the mode that is
wanted, a driver of the mode that runs and the policy's name. Of values that may be keys the answer is one
(`same_comm`): values of one kind are compared part by part, values of two kinds as numbers. Sets may not be keys, and
they are compared in one direction only.
-/
import Mathlib
import KeyHold.Value.Basic

namespace KeyHold

open Float.Model Float.Model.UnpackedFloat

/-- doubles compare the other way around in the other order -/
theorem compare_swap (u v : UnpackedFloat) :
    UnpackedFloat.compare v u = (UnpackedFloat.compare u v).map Ordering.swap := by
  have hfinite : ∀ (e f : ℤ) (m n : ℕ),
      (compare f e).then (compare n m) = ((compare e f).then (compare m n)).swap := by
    intro e f m n
    rw [Ordering.swap_then, Int.compare_swap, Nat.compare_swap]
  rcases u with ⟨_ | _⟩ | _ | ⟨_ | _⟩ | ⟨_ | _, m, e, _⟩ <;>
    rcases v with ⟨_ | _⟩ | _ | ⟨_ | _⟩ | ⟨_ | _, n, f, _⟩ <;> try rfl
  -- what is left are two finite doubles of one sign
  all_goals simp only [UnpackedFloat.compare, Option.map_some, hfinite e f]

theorem float_beq_comm (x y : Float) : (x == y) = (y == x) := by
  show (UnpackedFloat.compare x.toModel.unpack y.toModel.unpack == some .eq) =
    (UnpackedFloat.compare y.toModel.unpack x.toModel.unpack == some .eq)
  rw [compare_swap x.toModel.unpack]
  rcases UnpackedFloat.compare x.toModel.unpack y.toModel.unpack with _ | _ | _ | _ <;> rfl

theorem Moment.same_comm (s t : Moment) : s.same t = t.same s := by
  unfold same
  rw [BEq.comm, BEq.comm (a := s.instant)]

namespace Value

@[simp] theorem same_null : null.same null = true := by simp only [same]

@[simp] theorem same_str (s t : String) : (str s).same (str t) = (s == t) := by simp only [same]

/-- two values stand for one number -/
def sameNumber (a b : Value) : Bool :=
  match a.quotient?, b.quotient? with
  | some (n, j), some (m, k) => n * Decimal.two k == m * Decimal.two j
  | _, _ => false

variable {a b : Value}

theorem sameNumber_comm (a b : Value) : sameNumber a b = sameNumber b a := by
  unfold sameNumber
  rcases a.quotient? with _ | ⟨n, j⟩ <;> rcases b.quotient? with _ | ⟨m, k⟩ <;> try rfl
  exact BEq.comm

/-- values of two kinds are the same only as numbers -/
theorem same_of_kind_ne (h : a.kind ≠ b.kind) : a.same b = sameNumber a b := by
  cases a <;> cases b <;> first
    | (simp [kind] at h; done)
    | (simp only [same]; rfl)

theorem same_comm_of_kind_ne (h : a.kind ≠ b.kind) : a.same b = b.same a := by
  rw [same_of_kind_ne h, same_of_kind_ne h.symm, sameNumber_comm]

/-- **Values that may be keys** are the same in both orders. -/
theorem same_comm (ha : a.hashable = true) (hb : b.hashable = true) : a.same b = b.same a := by
  fun_induction hashable a generalizing b with
  | case1 => cases ha
  | case2 => cases ha
  | case3 => cases ha
  | case4 a c iha ihc =>
    cases b with
    | pair b d =>
      simp only [hashable, Bool.and_eq_true] at ha hb
      simp only [same, iha ha.1 hb.1, ihc ha.2 hb.2]
    | _ => exact same_comm_of_kind_ne (by simp [kind])
  | case5 a hlist hset hmap hpair =>
    by_cases hk : a.kind = b.kind
    case neg => exact same_comm_of_kind_ne hk
    cases a <;> cases b <;> try (simp [kind] at hk; done)
    case null => rfl
    case bool m n => simp only [same]; exact sameNumber_comm (bool m) (bool n)
    case int m n => simp only [same]; exact sameNumber_comm (int m) (int n)
    case float x y => simp only [same]; exact float_beq_comm x y
    case str s t => simp only [same]; exact BEq.comm
    case bytes s t => simp only [same]; exact BEq.comm
    case date s t => simp only [same]; exact BEq.comm
    case moment s t => simp only [same]; exact Moment.same_comm s t
    case list xs ys => exact (hlist xs rfl).elim
    case pair => exact (hpair _ _ rfl).elim
    case set xs ys => exact (hset xs rfl).elim
    case map xs ys => exact (hmap xs rfl).elim

/-- nothing is the same as a text but that text -/
theorem eq_of_str_same {s : String} (h : (str s).same a = true) : a = str s := by
  by_cases hk : (str s).kind = a.kind
  · cases a <;> try (simp [kind] at hk; done)
    case str t => rw [beq_iff_eq.1 ((same_str s t).symm.trans h)]
  · rw [same_of_kind_ne hk] at h
    simp [sameNumber, quotient?] at h

theorem eq_of_same_str {s : String} (h : a.same (str s) = true) : a = str s := by
  by_cases hk : a.kind = (str s).kind
  · cases a <;> try (simp [kind] at hk; done)
    case str t => rw [beq_iff_eq.1 ((same_str t s).symm.trans h)]
  · exact eq_of_str_same ((same_comm_of_kind_ne hk).symm.trans h)

theorem eq_of_null_same (h : null.same a = true) : a = null := by
  by_cases hk : null.kind = a.kind
  · cases a <;> first | rfl | simp [kind] at hk
  · rw [same_of_kind_ne hk] at h
    simp [sameNumber, quotient?] at h

theorem eq_of_sameAll_str (names : List String) {vs : List Value} (h : sameAll (names.map str) vs = true) :
    vs = names.map str := by
  induction names generalizing vs with
  | nil => cases vs <;> simp_all [sameAll]
  | cons name names ih =>
    cases vs with
    | nil => simp [sameAll] at h
    | cons v vs =>
      rw [List.map_cons, sameAll, Bool.and_eq_true] at h
      rw [eq_of_str_same h.1, ih h.2, List.map_cons]

end Value
end KeyHold
