/-
Where the draws of the generator lie.

- `range_mem`: a whole number drawn from a range lies in it.
- `choice_lt`: an index drawn among some items is that of one of them.
- `oneIn_never`: an event of no rarity never occurs, and takes no draw.
-/
import Mathlib.Tactic
import KeyHold.Random.Generator

namespace KeyHold.Generator

theorem range_mem {low high : ℤ} (h : low ≤ high) (g : Generator) :
    low ≤ (range low high g).1 ∧ (range low high g).1 ≤ high := by
  unfold range
  split_ifs
  · exact ⟨le_rfl, h⟩
  · have h0 := Int.emod_nonneg (g.output.toNat : ℤ) (show high - low + 1 ≠ 0 by omega)
    have h1 := Int.emod_lt_of_pos (g.output.toNat : ℤ) (show 0 < high - low + 1 by omega)
    constructor <;> simp only <;> omega

theorem choice_lt {count : ℤ} (h : 0 < count) (g : Generator) :
    0 ≤ (choice count g).1 ∧ (choice count g).1 < count := by
  unfold choice
  split_ifs
  · exact ⟨le_rfl, h⟩
  · exact ⟨Int.emod_nonneg _ (by omega), Int.emod_lt_of_pos _ (by omega)⟩

theorem oneIn_never {n : ℤ} (h : n ≤ 0) (g : Generator) : oneIn n g = (false, g) := if_pos h

end KeyHold.Generator
