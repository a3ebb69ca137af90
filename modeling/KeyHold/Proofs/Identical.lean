/-
Whether two values are one.

`Value.same` takes `1` and `1.0` for the same and a date for itself; `identical` asks for one kind and the same parts,
number for number. It decides equality of values, and with it whether a reader gave a certain value.
-/
import Mathlib.Tactic
import KeyHold.Value.Basic

namespace KeyHold

namespace Value

mutual

/-- of one kind, with the same parts -/
def identical : Value → Value → Bool
  | null, null => true
  | bool a, bool b => a == b
  | int a, int b => a == b
  | float a, float b => decide (a = b)
  | str a, str b => a == b
  | bytes a, bytes b => a == b
  | date a, date b => a == b
  | moment a, moment b => a == b
  | list as, list bs | set as, set bs => identicalAll as bs
  | pair a b, pair c d => identical a c && identical b d
  | map as, map bs => identicalEntries as bs
  | _, _ => false

def identicalAll : List Value → List Value → Bool
  | [], [] => true
  | a :: as, b :: bs => identical a b && identicalAll as bs
  | _, _ => false

def identicalEntries : List (Value × Value) → List (Value × Value) → Bool
  | [], [] => true
  | (k, v) :: as, (l, w) :: bs => identical k l && identical v w && identicalEntries as bs
  | _, _ => false

end

mutual

theorem eq_of_identical : ∀ a b : Value, identical a b = true → a = b
  | null, b, h => by cases b <;> simp_all [identical]
  | bool a, b, h => by cases b <;> simp_all [identical]
  | int a, b, h => by cases b <;> simp_all [identical]
  | float a, b, h => by cases b <;> simp_all [identical]
  | str a, b, h => by cases b <;> simp_all [identical]
  | bytes a, b, h => by cases b <;> simp_all [identical]
  | date a, b, h => by cases b <;> simp_all [identical]
  | moment a, b, h => by cases b <;> simp_all [identical]
  | list as, b, h => by
    cases b with
    | list bs => exact congrArg list (eq_of_identicalAll as bs (by simpa [identical] using h))
    | _ => simp [identical] at h
  | set as, b, h => by
    cases b with
    | set bs => exact congrArg set (eq_of_identicalAll as bs (by simpa [identical] using h))
    | _ => simp [identical] at h
  | pair a b, c, h => by
    cases c with
    | pair c d =>
      simp only [identical, Bool.and_eq_true] at h
      rw [eq_of_identical a c h.1, eq_of_identical b d h.2]
    | _ => simp [identical] at h
  | map as, b, h => by
    cases b with
    | map bs => exact congrArg map (eq_of_identicalEntries as bs (by simpa [identical] using h))
    | _ => simp [identical] at h

theorem eq_of_identicalAll : ∀ as bs : List Value, identicalAll as bs = true → as = bs
  | [], bs, h => by cases bs <;> simp_all [identicalAll]
  | a :: as, bs, h => by
    cases bs with
    | nil => simp [identicalAll] at h
    | cons b bs =>
      simp only [identicalAll, Bool.and_eq_true] at h
      rw [eq_of_identical a b h.1, eq_of_identicalAll as bs h.2]

theorem eq_of_identicalEntries : ∀ as bs : List (Value × Value), identicalEntries as bs = true → as = bs
  | [], bs, h => by cases bs <;> simp_all [identicalEntries]
  | (k, v) :: as, bs, h => by
    cases bs with
    | nil => simp [identicalEntries] at h
    | cons b bs =>
      simp only [identicalEntries, Bool.and_eq_true] at h
      obtain ⟨⟨hk, hv⟩, hrest⟩ := h
      rw [show b = (k, v) from Prod.ext (eq_of_identical k b.1 hk).symm (eq_of_identical v b.2 hv).symm,
        eq_of_identicalEntries as bs hrest]

end

mutual

theorem identical_self : ∀ a : Value, identical a a = true
  | null => by rw [identical]
  | bool _ | int _ | float _ | str _ | bytes _ | date _ | moment _ => by simp [identical]
  | list as | set as => by rw [identical, identicalAll_self as]
  | pair a b => by rw [identical, identical_self a, identical_self b]; rfl
  | map as => by rw [identical, identicalEntries_self as]

theorem identicalAll_self : ∀ as : List Value, identicalAll as as = true
  | [] => by rw [identicalAll]
  | a :: as => by rw [identicalAll, identical_self a, identicalAll_self as]; rfl

theorem identicalEntries_self : ∀ as : List (Value × Value), identicalEntries as as = true
  | [] => by rw [identicalEntries]
  | (k, v) :: as => by rw [identicalEntries, identical_self k, identical_self v, identicalEntries_self as]; rfl

end

instance : DecidableEq Value := fun a b =>
  decidable_of_iff (identical a b = true) ⟨eq_of_identical a b, fun h => h ▸ identical_self a⟩

end Value

/-- whether a result is a certain one -/
instance decidableEqOk {ε α : Type} [DecidableEq α] (r : Except ε α) (a : α) : Decidable (r = .ok a) :=
  match r with
  | .ok b => decidable_of_iff (b = a) ⟨congrArg Except.ok, Except.ok.inj⟩
  | .error _ => isFalse nofun

end KeyHold
