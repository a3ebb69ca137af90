/-
What stands in the way of writing.

A value cannot be written for two reasons: an integer in it has too many digits, or values stand too deep inside one
another. Neither is an error of settings, nor a value of the wrong kind. With more room there is less in the way, so
what is written in some room is written alike where there is no bound.

- `obstacle?_cases`: the two reasons. `obstacle?_unbounded`: what can be written without a bound.
- `writePlain?_unbounded`: a form inside a sentence is the plain one, however much room there is.
-/
import Mathlib.Tactic
import KeyHold.Value.Writing

namespace KeyHold

namespace Value

/-- a value can be written where there is so much room -/
def Writable (depth : Option ℕ) (v : Value) : Prop := v.obstacle? depth = none

instance (depth : Option ℕ) (v : Value) : Decidable (v.Writable depth) :=
  decidable_of_iff ((v.obstacle? depth).isNone = true) Option.isNone_iff_eq_none

/-- what stands in the way of two things stands in the way of one of them -/
theorem or_eq_some {a b : Option Fault} {e : Fault} (h : a.or b = some e) : a = some e ∨ b = some e := by
  cases a with
  | none => exact Or.inr h
  | some e' => exact Or.inl h

/-- a value is too deep, or what stands in the way is inside it -/
theorem tooDeep_or {depth : Option ℕ} {rest : Option Fault} {e : Fault}
    (h : (if depth = some 0 then some tooDeep else rest) = some e) : e = tooDeep ∨ rest = some e := by
  by_cases hdepth : depth = some 0
  · rw [if_pos hdepth] at h
    exact Or.inl (Option.some.inj h).symm
  · rw [if_neg hdepth] at h
    exact Or.inr h

mutual

/-- a value is too deep, or an integer in it has too many digits -/
theorem obstacle?_cases : ∀ (v : Value) (depth : Option ℕ) (e : Fault), v.obstacle? depth = some e →
    e = tooDeep ∨ e = tooManyDigits
  | null, depth, e, h | bool _, depth, e, h | float _, depth, e, h | str _, depth, e, h | bytes _, depth, e, h
  | date _, depth, e, h | moment _, depth, e, h => by
    unfold obstacle? at h
    rcases tooDeep_or h with h | h
    · exact Or.inl h
    · cases h
  | int n, depth, e, h => by
    rw [obstacle?] at h
    rcases tooDeep_or h with h | h
    · exact Or.inl h
    · split_ifs at h
      exact Or.inr (Option.some.inj h).symm
  | list xs, depth, e, h => by
    rw [obstacle?] at h
    rcases tooDeep_or h with h | h
    · exact Or.inl h
    · exact obstacleAll?_cases xs _ e h
  | pair a b, depth, e, h => by
    rw [obstacle?] at h
    rcases tooDeep_or h with h | h
    · exact Or.inl h
    · rcases or_eq_some h with h | h
      · exact obstacle?_cases a _ e h
      · exact obstacle?_cases b _ e h
  | set xs, depth, e, h => by
    rw [obstacle?] at h
    rcases tooDeep_or h with h | h
    · exact Or.inl h
    · exact obstacleAll?_cases xs _ e h
  | map es, depth, e, h => by
    rw [obstacle?] at h
    rcases tooDeep_or h with h | h
    · exact Or.inl h
    · exact obstacleEntries?_cases es _ e h

theorem obstacleAll?_cases : ∀ (xs : List Value) (depth : Option ℕ) (e : Fault), obstacleAll? depth xs = some e →
    e = tooDeep ∨ e = tooManyDigits
  | [], _, _, h => by cases h
  | x :: xs, depth, e, h => by
    rw [obstacleAll?] at h
    rcases or_eq_some h with h | h
    · exact obstacle?_cases x depth e h
    · exact obstacleAll?_cases xs depth e h

theorem obstacleEntries?_cases : ∀ (es : List (Value × Value)) (depth : Option ℕ) (e : Fault),
    obstacleEntries? depth es = some e → e = tooDeep ∨ e = tooManyDigits
  | [], _, _, h => by cases h
  | (k, v) :: es, depth, e, h => by
    rw [obstacleEntries?] at h
    rcases or_eq_some h with h | h
    · rcases or_eq_some h with h | h
      · exact obstacle?_cases k depth e h
      · exact obstacle?_cases v depth e h
    · exact obstacleEntries?_cases es depth e h

end

mutual

/-- what can be written in some room can be written without a bound -/
theorem obstacle?_unbounded : ∀ (v : Value) (depth : Option ℕ), v.obstacle? depth = none → v.obstacle? none = none
  | null, _, _ | bool _, _, _ | float _, _, _ | str _, _, _ | bytes _, _, _ | date _, _, _ | moment _, _, _ => by
    unfold obstacle?
    rfl
  | int n, depth, h => by
    rw [obstacle?] at h ⊢
    split_ifs at h with hdepth hlong
    rw [if_neg hlong]
    rfl
  | list xs, depth, h => by
    rw [obstacle?] at h ⊢
    split_ifs at h
    exact obstacleAll?_unbounded xs _ h
  | pair a b, depth, h => by
    rw [obstacle?] at h ⊢
    split_ifs at h
    obtain ⟨ha, hb⟩ := Option.or_eq_none_iff.1 h
    exact Option.or_eq_none_iff.2 ⟨obstacle?_unbounded a _ ha, obstacle?_unbounded b _ hb⟩
  | set xs, depth, h => by
    rw [obstacle?] at h ⊢
    split_ifs at h
    exact obstacleAll?_unbounded xs _ h
  | map es, depth, h => by
    rw [obstacle?] at h ⊢
    split_ifs at h
    exact obstacleEntries?_unbounded es _ h

theorem obstacleAll?_unbounded : ∀ (xs : List Value) (depth : Option ℕ), obstacleAll? depth xs = none →
    obstacleAll? none xs = none
  | [], _, _ => rfl
  | x :: xs, depth, h => by
    rw [obstacleAll?] at h ⊢
    obtain ⟨hx, hxs⟩ := Option.or_eq_none_iff.1 h
    exact Option.or_eq_none_iff.2 ⟨obstacle?_unbounded x _ hx, obstacleAll?_unbounded xs _ hxs⟩

theorem obstacleEntries?_unbounded : ∀ (es : List (Value × Value)) (depth : Option ℕ),
    obstacleEntries? depth es = none → obstacleEntries? none es = none
  | [], _, _ => rfl
  | (k, v) :: es, depth, h => by
    rw [obstacleEntries?] at h ⊢
    obtain ⟨hkv, hes⟩ := Option.or_eq_none_iff.1 h
    obtain ⟨hk, hv⟩ := Option.or_eq_none_iff.1 hkv
    rw [obstacle?_unbounded k _ hk, obstacle?_unbounded v _ hv]
    exact obstacleEntries?_unbounded es _ hes

end

/-- what is in the way of writing a value is in the way of writing it inside a sentence, unless it is a text -/
theorem writePlain?_eq_error {v : Value} {depth : Option ℕ} {e : Fault} (h : v.writePlain? depth = .error e) :
    v.obstacle? depth = some e := by
  unfold writePlain? at h
  split at h
  · cases h
  · split at h
    next hobstacle => rw [hobstacle, Except.error.inj h]
    next => cases h

/-- **What stands inside a sentence** is the plain form, however much room there is for writing it. -/
theorem writePlain?_unbounded {v : Value} {depth : Option ℕ} {text : String} (h : v.writePlain? depth = .ok text) :
    text = v.plain ∧ v.writePlain? none = .ok text := by
  unfold writePlain? at h ⊢
  split at h
  · rw [← Except.ok.inj h]
    exact ⟨rfl, rfl⟩
  · split at h
    next => cases h
    next hobstacle =>
      rw [obstacle?_unbounded _ depth hobstacle]
      exact ⟨(Except.ok.inj h).symm, h⟩

end Value
end KeyHold
