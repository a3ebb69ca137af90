/-
The keys of a policy and the cycle of its phases.

- `mem_keys`: the keys of a policy are those of its phases.
- `phaseForKey_firstOf`: the phase found for a key of the policy is the first that holds it.
- `getElem?_phase`, `phaseAfter_mod`: an index counts around the cycle, and so does the one that follows it.
-/
import Mathlib.Tactic
import KeyHold.Policy.Basic

namespace KeyHold.Policy

theorem mem_foldl_distinct (items seen : List String) (k : String) :
    k ∈ items.foldl (fun seen k => if seen.contains k then seen else seen ++ [k]) seen ↔ k ∈ seen ∨ k ∈ items := by
  induction items generalizing seen with
  | nil => simp
  | cons x items ih =>
    rw [List.foldl_cons, ih, List.mem_cons]
    split_ifs with hx
    · have hx : x ∈ seen := by simpa using hx
      constructor
      · rintro (h | h)
        · exact Or.inl h
        · exact Or.inr (Or.inr h)
      · rintro (h | rfl | h)
        · exact Or.inl h
        · exact Or.inl hx
        · exact Or.inr h
    · simp only [List.mem_append, List.mem_singleton, or_assoc]

theorem mem_keys (p : Policy) (k : String) : k ∈ p.keys ↔ ∃ ph ∈ p.phases, ph.key = k := by
  unfold keys distinct
  rw [mem_foldl_distinct]
  simp

theorem keys_length_pos (p : Policy) : 0 < p.keys.length := by
  obtain ⟨ph, hph⟩ := List.exists_mem_of_ne_nil _ p.phases_ne_nil
  exact List.length_pos_of_mem ((p.mem_keys ph.key).2 ⟨ph, hph, rfl⟩)

/-- an index of the table names its own phase -/
theorem phase_of_lt (p : Policy) (i : ℕ) (h : i < p.phases.length) : p.phase i = p.phases[i] := by
  have hr : p.reduce i = i := by
    unfold reduce length
    rw [Int.emod_eq_of_lt (by omega) (by omega)]
    rfl
  unfold phase
  simp only [hr, List.get_eq_getElem]

/-- `i` is the index of the first phase that holds `key` -/
structure FirstOf (p : Policy) (key : String) (i : ℕ) : Prop where
  holds : ∃ ph, p.phases[i]? = some ph ∧ ph.key = key
  first : ∀ j < i, ∀ ph, p.phases[j]? = some ph → ph.key ≠ key

theorem phaseForKey_firstOf (p : Policy) {k : String} (h : k ∈ p.keys) : p.FirstOf k (p.phaseForKey k) := by
  obtain ⟨ph, hph, hk⟩ := (p.mem_keys k).1 h
  unfold phaseForKey
  cases hf : p.phases.findIdx? (·.key == k) with
  | none =>
    rw [List.findIdx?_eq_none_iff] at hf
    exact absurd (by simpa using hk) (by simpa using hf ph hph)
  | some i =>
    obtain ⟨hi, hki, hbefore⟩ := List.findIdx?_eq_some_iff_getElem.1 hf
    rw [Option.getD_some]
    refine ⟨⟨p.phases[i], List.getElem?_eq_getElem hi, by simpa using hki⟩, fun j hj ph' hph' => ?_⟩
    obtain ⟨hlt, rfl⟩ := List.getElem?_eq_some_iff.1 hph'
    simpa using hbefore j hj

/-- the phase found for a key of the policy holds that key -/
theorem key_phaseForKey (p : Policy) (k : String) (h : k ∈ p.keys) : (p.phase (p.phaseForKey k)).key = k := by
  obtain ⟨ph, hph, hk⟩ := (p.phaseForKey_firstOf h).holds
  obtain ⟨hlt, rfl⟩ := List.getElem?_eq_some_iff.1 hph
  rw [phase_of_lt p _ hlt, hk]

theorem phase_key_mem (p : Policy) (i : ℤ) : (p.phase i).key ∈ p.keys :=
  (p.mem_keys _).2 ⟨p.phase i, List.get_mem _ _, rfl⟩

/-! ## Around the cycle -/

theorem reduce_natCast (p : Policy) (i : ℕ) : p.reduce i = i % p.length := by
  unfold reduce
  rw [← Int.natCast_mod, Int.toNat_natCast]

theorem getElem?_phase (p : Policy) (i : ℕ) : p.phases[i % p.length]? = some (p.phase i) := by
  have hlt : i % p.length < p.phases.length := Nat.mod_lt _ p.length_pos
  rw [List.getElem?_eq_getElem hlt]
  simp only [phase, reduce_natCast, List.get_eq_getElem]

theorem phase_mod (p : Policy) (i : ℕ) : p.phase (i % p.length : ℕ) = p.phase i := by
  have h := p.getElem?_phase (i % p.length)
  rw [Nat.mod_mod, p.getElem?_phase i] at h
  exact (Option.some.inj h).symm

theorem phaseAfter_mod (p : Policy) (i : ℕ) : p.phaseAfter (i % p.length : ℕ) = (i + 1) % p.length := by
  unfold phaseAfter
  rw [← Nat.cast_succ, reduce_natCast, Nat.succ_eq_add_one, Nat.mod_add_mod]

end KeyHold.Policy
