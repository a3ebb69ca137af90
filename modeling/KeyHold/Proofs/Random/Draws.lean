/-
Which values the draws have.

For each newer word, the older word and the output of the state determine each other: the output less the newer word is
the newest word, and from there the step is undone. So all 2^64 outputs occur, each of them at a state that is not zero,
and a draw that takes the output modulo a number misses no residue as long as there are at most 2^64 of them.

- `output_bijective`: **outputs and older words** go one to one.
- `exists_residue`: each residue is that of the output of some state.
- `draws_cover`: **ranges, indices and events** have all their values and no others, at one step each.
-/
import Mathlib.Tactic
import KeyHold.Proofs.Generator
import KeyHold.Proofs.Random.Step

namespace KeyHold.Generator

/-! ## Outputs -/

/-- the older word that goes with a newer word and an output -/
def olderOf (s1 w : UInt64) : UInt64 := undoLeft (undoRight ((w - s1) ^^^ s1 ^^^ (s1 >>> 26)))

theorem olderOf_output (s0 s1 : UInt64) : olderOf s1 (output ⟨s0, s1⟩) = s0 := by
  have hnewest : output ⟨s0, s1⟩ - s1 = folded s0 ^^^ s1 ^^^ (s1 >>> 26) := by
    rw [← step_s1 ⟨s0, s1⟩]
    exact UInt64.add_sub_cancel _ _
  unfold olderOf
  rw [hnewest, xor_pair_cancel, undo_folded]

theorem output_olderOf (s1 w : UInt64) : output ⟨olderOf s1 w, s1⟩ = w := by
  show (step ⟨olderOf s1 w, s1⟩).s1 + s1 = w
  rw [step_s1]
  show (folded (undoLeft (undoRight _)) ^^^ s1 ^^^ (s1 >>> 26)) + s1 = w
  rw [folded_undo, xor_pair_cancel, UInt64.sub_add_cancel]

/-- **Outputs and older words** go one to one. -/
theorem output_bijective (s1 : UInt64) : Function.Bijective fun s0 => output ⟨s0, s1⟩ :=
  Function.bijective_iff_has_inverse.2 ⟨olderOf s1, fun s0 => olderOf_output s0 s1, output_olderOf s1⟩

/-- a newer word that is not zero leaves all outputs possible -/
theorem exists_output (w : UInt64) : ∃ g ≠ zero, output g = w := by
  obtain ⟨s0, hs0⟩ := (output_bijective 1).surjective w
  exact ⟨⟨s0, 1⟩, fun h => (by decide : (1 : UInt64) ≠ 0) (congrArg s1 h), hs0⟩

/-- **Every residue occurs** if there are no more of them than outputs. -/
theorem exists_residue {n k : ℤ} (hn : n ≤ 2 ^ 64) (hk : 0 ≤ k) (hkn : k < n) :
    ∃ g ≠ zero, (g.output.toNat : ℤ) % n = k := by
  obtain ⟨g, hg, houtput⟩ := exists_output (UInt64.ofNat k.toNat)
  have hword : (UInt64.ofNat k.toNat).toNat = k.toNat := Nat.mod_eq_of_lt (by omega)
  refine ⟨g, hg, ?_⟩
  rw [houtput, hword, Int.toNat_of_nonneg hk, Int.emod_eq_of_lt hk hkn]

/-! ## Draws -/

/-- a draw with some values: no state gives another, each comes from a state that is not zero, and a draw is a step -/
structure Covers {α : Type} (draw : Generator → α × Generator) (values : Set α) : Prop where
  lands : ∀ g, (draw g).1 ∈ values
  reached : ∀ v ∈ values, ∃ g ≠ zero, (draw g).1 = v
  steps : ∀ g, (draw g).2 = g.step

theorem range_covers {low high : ℤ} (h : low < high) (hspan : high - low + 1 ≤ 2 ^ 64) :
    Covers (range low high) (Set.Icc low high) := by
  have hdraw (g : Generator) : range low high g = (low + (g.output.toNat : ℤ) % (high - low + 1), g.step) :=
    if_neg h.not_ge
  refine ⟨range_mem h.le, fun v hv => ?_, fun g => congrArg Prod.snd (hdraw g)⟩
  obtain ⟨hlow, hhigh⟩ := Set.mem_Icc.1 hv
  obtain ⟨g, hg, hresidue⟩ := exists_residue (k := v - low) hspan (by omega) (by omega)
  refine ⟨g, hg, ?_⟩
  rw [hdraw, hresidue]
  exact add_sub_cancel low v

theorem choice_covers {n : ℤ} (h : 2 ≤ n) (hn : n ≤ 2 ^ 64) : Covers (choice n) (Set.Ico 0 n) := by
  have hdraw (g : Generator) : choice n g = ((g.output.toNat : ℤ) % n, g.step) := if_neg (by omega)
  refine ⟨choice_lt (by omega), fun v hv => ?_, fun g => congrArg Prod.snd (hdraw g)⟩
  obtain ⟨g, hg, hresidue⟩ := exists_residue hn hv.1 hv.2
  exact ⟨g, hg, (congrArg Prod.fst (hdraw g)).trans hresidue⟩

/-- an event of a rarity of two at least may occur and may not: the residue may be 0 or 1 -/
theorem oneIn_covers {n : ℤ} (h : 2 ≤ n) (hn : n ≤ 2 ^ 64) : Covers (oneIn n) Set.univ := by
  have hdraw (g : Generator) : oneIn n g = ((g.output.toNat : ℤ) % n == 0, g.step) := if_neg (by omega)
  refine ⟨fun _ => trivial, fun v _ => ?_, fun g => congrArg Prod.snd (hdraw g)⟩
  obtain ⟨g, hg, hresidue⟩ := exists_residue (k := if v then 0 else 1) hn (by split_ifs <;> omega)
    (by split_ifs <;> omega)
  refine ⟨g, hg, ?_⟩
  rw [hdraw, hresidue]
  cases v <;> rfl

/-- **Draws cover exactly their values.** With the newer word fixed, the output is a bijection of the older word. A range
of two or more has all its values and no others, and so do an index among two or more and an event of a rarity of two
or more, as far as there are 2^64 values at most; each of these draws is one step. Where there is nothing to choose, the
value is the least one, and the state stays. -/
theorem draws_cover :
    (∀ s1 : UInt64, Function.Bijective fun s0 => (next ⟨s0, s1⟩).1) ∧
    (∀ low high : ℤ, low < high → high - low + 1 ≤ 2 ^ 64 → Covers (range low high) (Set.Icc low high)) ∧
    (∀ n : ℤ, 2 ≤ n → n ≤ 2 ^ 64 → Covers (choice n) (Set.Ico 0 n)) ∧
    (∀ n : ℤ, 2 ≤ n → n ≤ 2 ^ 64 → Covers (oneIn n) Set.univ) ∧
    (∀ (low high : ℤ) (g : Generator), high ≤ low → range low high g = (low, g)) ∧
    (∀ (count : ℤ) (g : Generator), count ≤ 1 → choice count g = (0, g)) ∧
    ∀ (n : ℤ) (g : Generator), n ≤ 0 → oneIn n g = (false, g) :=
  ⟨output_bijective, fun _ _ => range_covers, fun _ => choice_covers, fun _ => oneIn_covers,
    fun _ _ _ h => if_pos h, fun _ _ h => if_pos h, fun _ g h => oneIn_never h g⟩

/-- both ends of a range, the widest choice, and an even event -/
theorem draws_cover_to_the_ends :
    (∃ g ≠ zero, (range 30 70 g).1 = 30) ∧ (∃ g ≠ zero, (range 30 70 g).1 = 70) ∧
    (∃ g ≠ zero, (choice (2 ^ 64) g).1 = 2 ^ 64 - 1) ∧ (∃ g ≠ zero, (oneIn 2 g).1 = true) ∧
    range 70 30 default = (70, default) ∧ choice 1 default = (0, default) ∧ oneIn 0 default = (false, default) := by
  obtain ⟨-, hrange, hchoice, hevent, hempty, hsingle, hnever⟩ := draws_cover
  have hpercent := hrange 30 70 (by decide) (by decide)
  exact ⟨hpercent.reached 30 (by decide), hpercent.reached 70 (by decide),
    (hchoice (2 ^ 64) (by decide) le_rfl).reached _ (by decide), (hevent 2 le_rfl (by decide)).reached true trivial,
    hempty 70 30 default (by decide), hsingle 1 default le_rfl, hnever 0 default le_rfl⟩

end KeyHold.Generator
