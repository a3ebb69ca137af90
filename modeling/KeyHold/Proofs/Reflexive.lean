/-
Values that are the same as themselves.

"Not a number" is the one double that is not equal to itself. A value without it in any of its parts (`noNan`) is the
same as itself (`same_self`): a set, each of whose items is asked for among all of them, as well as a mapping, each of
whose entries is.
-/
import Mathlib.Tactic
import KeyHold.Value.Basic

namespace KeyHold

/-- exponent and digits are compared with themselves -/
theorem parts_self (e : ℤ) (m : ℕ) : (compare e e).then (compare m m) = .eq := by
  have he : compare e e = .eq := Std.ReflCmp.compare_self
  have hm : compare m m = .eq := Std.ReflCmp.compare_self
  rw [he, hm]
  rfl

open Float.Model.UnpackedFloat in
/-- a double that is a number is equal to itself -/
theorem float_beq_self {x : Float} (h : x.isNaN = false) : (x == x) = true := by
  have h : x.toModel.unpack.isNaN = false := h
  show (Float.Model.UnpackedFloat.compare x.toModel.unpack x.toModel.unpack == some .eq) = true
  generalize x.toModel.unpack = u at h ⊢
  rcases u with ⟨_ | _⟩ | _ | ⟨_ | _⟩ | ⟨_ | _, m, e, _⟩
  case notANumber => cases h
  case finite.negative =>
    show (some ((compare e e).then (compare m m)).swap == some .eq) = true
    rw [parts_self]
    rfl
  case finite.positive =>
    show (some ((compare e e).then (compare m m)) == some .eq) = true
    rw [parts_self]
    rfl
  all_goals rfl

namespace Value

mutual

/-- nothing in the value is "not a number" -/
def noNan : Value → Bool
  | float x => !x.isNaN
  | list xs | set xs => noNanAll xs
  | pair a b => noNan a && noNan b
  | map es => noNanEntries es
  | _ => true

def noNanAll : List Value → Bool
  | [] => true
  | x :: xs => noNan x && noNanAll xs

def noNanEntries : List (Value × Value) → Bool
  | [] => true
  | (k, v) :: es => noNan k && noNan v && noNanEntries es

end

theorem noNanAll_iff {xs : List Value} : noNanAll xs = true ↔ ∀ x ∈ xs, x.noNan = true := by
  induction xs with
  | nil => exact ⟨fun _ => List.forall_mem_nil _, fun _ => rfl⟩
  | cons x xs ih => rw [noNanAll, Bool.and_eq_true, ih, List.forall_mem_cons]

theorem noNanEntries_iff {es : List (Value × Value)} :
    noNanEntries es = true ↔ ∀ e ∈ es, e.1.noNan = true ∧ e.2.noNan = true := by
  induction es with
  | nil => exact ⟨fun _ => List.forall_mem_nil _, fun _ => rfl⟩
  | cons e es ih => rw [noNanEntries, Bool.and_eq_true, Bool.and_eq_true, ih, List.forall_mem_cons]

/-- each item is among the items -/
theorem sameIn_of_subset {xs ys : List Value} (h : ∀ x ∈ xs, x.same x = true) (hsub : xs ⊆ ys) : sameIn xs ys = true := by
  induction xs with
  | nil => rw [sameIn]
  | cons x xs ih =>
    obtain ⟨hx, hxs⟩ := List.forall_mem_cons.1 h
    obtain ⟨hmem, hsub⟩ := List.cons_subset.1 hsub
    rw [sameIn, ih hxs hsub, Bool.and_true]
    exact List.any_eq_true.2 ⟨x, hmem, hx⟩

theorem sameAll_of_forall {xs : List Value} (h : ∀ x ∈ xs, x.same x = true) : sameAll xs xs = true := by
  induction xs with
  | nil => rw [sameAll]
  | cons x xs ih =>
    obtain ⟨hx, hxs⟩ := List.forall_mem_cons.1 h
    rw [sameAll, hx, ih hxs]
    rfl

/-- each entry is among the entries -/
theorem sameEntries_of_subset {es fs : List (Value × Value)} (h : ∀ e ∈ es, e.1.same e.1 = true ∧ e.2.same e.2 = true)
    (hsub : es ⊆ fs) : sameEntries es fs = true := by
  induction es with
  | nil => rw [sameEntries]
  | cons e es ih =>
    obtain ⟨⟨hk, hv⟩, hes⟩ := List.forall_mem_cons.1 h
    obtain ⟨hmem, hsub⟩ := List.cons_subset.1 hsub
    rw [sameEntries, ih hes hsub, Bool.and_true]
    exact List.any_eq_true.2 ⟨e, hmem, by rw [hk, hv]; rfl⟩

mutual

/-- **A value without "not a number" is the same as itself.** -/
theorem same_self : ∀ v : Value, v.noNan = true → v.same v = true
  | null, _ | str _, _ | bytes _, _ | date _, _ => by simp [same]
  | bool _, _ | int _, _ => by simp [same, quotient?]
  | moment _, _ => by simp [same, Moment.same]
  | float x, h => by
    rw [same]
    exact float_beq_self (by simpa [noNan] using h)
  | list xs, h => by
    rw [same]
    exact sameAll_of_forall (same_self_all xs h)
  | set xs, h => by
    rw [same, beq_self_eq_true, Bool.true_and]
    exact sameIn_of_subset (same_self_all xs h) (List.Subset.refl xs)
  | pair a b, h => by
    have h := Bool.and_eq_true_iff.1 h
    rw [same, same_self a h.1, same_self b h.2]
    rfl
  | map es, h => by
    rw [same, beq_self_eq_true, Bool.true_and]
    exact sameEntries_of_subset (same_self_entries es h) (List.Subset.refl es)

theorem same_self_all : ∀ xs : List Value, noNanAll xs = true → ∀ x ∈ xs, x.same x = true
  | [], _ => List.forall_mem_nil _
  | x :: xs, h => by
    have h := Bool.and_eq_true_iff.1 h
    exact List.forall_mem_cons.2 ⟨same_self x h.1, same_self_all xs h.2⟩

theorem same_self_entries : ∀ es : List (Value × Value), noNanEntries es = true →
    ∀ e ∈ es, e.1.same e.1 = true ∧ e.2.same e.2 = true
  | [], _ => List.forall_mem_nil _
  | (k, v) :: es, h => by
    have h := Bool.and_eq_true_iff.1 h
    have hkv := Bool.and_eq_true_iff.1 h.1
    exact List.forall_mem_cons.2 ⟨⟨same_self k hkv.1, same_self v hkv.2⟩, same_self_entries es h.2⟩

end

end Value
end KeyHold
