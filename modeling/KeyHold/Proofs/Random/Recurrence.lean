/-
What the words of a run have to do with each other.

A step is linear in the bits of the state, so a parity of bits of later words is a parity of bits of the state: it is
weighed by `dual`, the step transposed. Masks for some words in a row that gather to nothing give a parity of their bits
that is even for every state.

- `weigh_eq`: the parity that masks take of the words in a row is that of the gathered masks with the state.
- `head_linked`: **five leading bits** of a word are given by the leading bits of the words four, three and two before.
- `lead_repeats`: **the leading bit does not alternate** for 129 words in a row, since it obeys a recurrence with an odd
  number of terms.
-/
import Mathlib.Tactic
import Mathlib.Algebra.BigOperators.Intervals
import Mathlib.Algebra.Ring.BooleanRing
import KeyHold.Proofs.Random.Step

namespace KeyHold.Generator

/-! ## Parities -/

/-- whether the places where both words have a bit are odd in number -/
def parity (m w : UInt64) : Bool := ∑ i ∈ Finset.range 64, (bit m i && bit w i)

theorem parity_comm (m w : UInt64) : parity m w = parity w m :=
  Finset.sum_congr rfl fun _ _ => Bool.and_comm _ _

@[simp] theorem parity_xor (m v w : UInt64) : parity m (v ^^^ w) = (parity m v ^^ parity m w) := by
  unfold parity
  rw [← Bool.add_eq_xor, ← Finset.sum_add_distrib]
  refine Finset.sum_congr rfl fun i _ => ?_
  rw [bit_xor, Bool.and_xor_distrib_left, Bool.add_eq_xor]

@[simp] theorem xor_parity (m n w : UInt64) : parity (m ^^^ n) w = (parity m w ^^ parity n w) := by
  rw [parity_comm, parity_xor, parity_comm w m, parity_comm w n]

@[simp] theorem zero_parity (w : UInt64) : parity 0 w = false :=
  Finset.sum_eq_zero fun i _ => congrArg (· && bit w i) (bit_zero i)

/-- a shift of one word is the opposite shift of the other -/
theorem parity_shiftLeft (m w : UInt64) {k : UInt64} (hk : k.toNat < 64) : parity m (w <<< k) = parity (m >>> k) w := by
  obtain ⟨n, hn⟩ : ∃ n, 64 = k.toNat + n := ⟨64 - k.toNat, by omega⟩
  unfold parity
  simp only [bit_shiftLeft w hk, bit_shiftRight m hk]
  rw [hn]
  -- the lowest places of the shifted word are empty, and so are the highest of the shifted mask
  rw [Finset.sum_range_add, add_comm k.toNat n, Finset.sum_range_add]
  have hlow : ∀ i ∈ Finset.range k.toNat,
      (bit m i && (decide (k.toNat ≤ i ∧ i < n + k.toNat) && bit w (i - k.toNat))) = 0 := by
    intro i hi
    rw [decide_eq_false (by have := Finset.mem_range.1 hi; omega), Bool.false_and, Bool.and_false]
    rfl
  have hhigh : ∀ i ∈ Finset.range k.toNat, (bit m (k.toNat + (n + i)) && bit w (n + i)) = 0 := by
    intro i _
    rw [bit_of_ge m (by omega)]
    rfl
  rw [Finset.sum_eq_zero hlow, Finset.sum_eq_zero hhigh, zero_add, add_zero]
  refine Finset.sum_congr rfl fun i hi => ?_
  have hlt := Finset.mem_range.1 hi
  rw [decide_eq_true (by omega), Nat.add_sub_cancel_left]
  rfl

theorem parity_shiftRight (m w : UInt64) {k : UInt64} (hk : k.toNat < 64) :
    parity m (w >>> k) = parity (m <<< k) w := by
  rw [parity_comm, ← parity_shiftLeft w m hk, parity_comm]

/-- the word with one bit; none if the place is not one of a word -/
def single (k : ℕ) : UInt64 := UInt64.ofNat (2 ^ k)

theorem bit_single (k i : ℕ) : bit (single k) i = decide (i = k ∧ i < 64) := by
  show (2 ^ k % 2 ^ 64).testBit i = _
  rw [Nat.testBit_mod_two_pow, Nat.testBit_two_pow]
  by_cases h : i < 64 <;> by_cases h' : k = i <;> simp [h, h', eq_comm]

theorem parity_single (k : ℕ) (w : UInt64) : parity (single k) w = bit w k := by
  unfold parity
  simp only [bit_single]
  rcases lt_or_ge k 64 with hk | hk
  · rw [Finset.sum_eq_single_of_mem k (Finset.mem_range.2 hk)]
    · simp [hk]
    · intro i _ hne
      rw [decide_eq_false (fun h => hne h.1)]
      rfl
  · rw [bit_of_ge w hk]
    refine Finset.sum_eq_zero fun i hi => ?_
    have hlt := Finset.mem_range.1 hi
    rw [decide_eq_false (by omega)]
    rfl

/-- the parity of the bits that a mask picks from a state -/
def pairing (m g : Generator) : Bool := parity m.s0 g.s0 ^^ parity m.s1 g.s1

/-- the step transposed -/
def dual (m : Generator) : Generator :=
  let y := m.s1 ^^^ (m.s1 <<< 17)
  ⟨y ^^^ (y >>> 23), m.s0 ^^^ m.s1 ^^^ (m.s1 <<< 26)⟩

theorem parity_folded (m w : UInt64) :
    parity m (folded w) = parity ((m ^^^ (m <<< 17)) ^^^ ((m ^^^ (m <<< 17)) >>> 23)) w := by
  unfold folded
  dsimp only
  rw [parity_xor, parity_shiftRight _ _ (by decide), ← xor_parity, parity_xor, parity_shiftLeft _ _ (by decide),
    ← xor_parity]

theorem pairing_step (m g : Generator) : pairing m g.step = pairing m.dual g := by
  show (parity m.s0 g.s1 ^^ parity m.s1 g.step.s1) = _
  rw [step_s1, parity_xor, parity_xor, parity_folded, parity_shiftRight _ _ (by decide)]
  unfold pairing dual
  dsimp only
  rw [xor_parity (m.s0 ^^^ m.s1), xor_parity m.s0]
  grind

/-! ## Words in a row -/

/-- the older word of the state after some steps -/
def word (g : Generator) (n : ℕ) : UInt64 := (step^[n] g).s0

theorem word_add (g : Generator) (n k : ℕ) : g.word (n + k) = (step^[n] g).word k := by
  unfold word
  rw [add_comm, Function.iterate_add_apply]

theorem word_step (g : Generator) (n : ℕ) : g.step.word n = g.word (n + 1) := rfl

/-- the parity of the bits that masks pick from words in a row -/
def weigh : List UInt64 → Generator → Bool
  | [], _ => false
  | m :: ms, g => parity m g.s0 ^^ weigh ms g.step

/-- masks for words in a row as one for the state -/
def gather : List UInt64 → Generator
  | [] => zero
  | m :: ms => ⟨m ^^^ (gather ms).dual.s0, (gather ms).dual.s1⟩

/-- **A parity of words in a row** is one of the state. -/
theorem weigh_eq (ms : List UInt64) (g : Generator) : weigh ms g = pairing (gather ms) g := by
  induction ms generalizing g with
  | nil =>
    unfold pairing
    exact (congrArg₂ xor (zero_parity g.s0) (zero_parity g.s1)).symm
  | cons m ms ih =>
    show (parity m g.s0 ^^ weigh ms g.step) = (parity (m ^^^ (gather ms).dual.s0) g.s0 ^^ _)
    rw [ih, pairing_step, xor_parity, Bool.xor_assoc]
    rfl

/-- masks that gather to nothing pick bits of even parity from every run -/
theorem weigh_eq_false {ms : List UInt64} (h : gather ms = zero) (g : Generator) : weigh ms g = false := by
  rw [weigh_eq, h]
  exact congrArg₂ xor (zero_parity g.s0) (zero_parity g.s1)

/-! ## Five leading bits -/

/-- the 23 leading bits of a word -/
def head (w : UInt64) : ℕ := w.toNat >>> 41

theorem testBit_head (w : UInt64) (i : ℕ) : (head w).testBit i = bit w (41 + i) := Nat.testBit_shiftRight _

/-- the five lowest bits of a head, of the heads four, three and two before -/
def linked (a b c : ℕ) : ℕ := (a ^^^ (b >>> 3) ^^^ (b >>> 11) ^^^ (b >>> 20) ^^^ c ^^^ (c >>> 11)) % 2 ^ 5

/-- the bits of five words in a row of which one of `linked` is made -/
def linkMasks (i : ℕ) : List UInt64 :=
  [single (41 + i), single (44 + i) ^^^ single (52 + i) ^^^ single (61 + i), single (41 + i) ^^^ single (52 + i), 0,
    single (41 + i)]

theorem gather_linkMasks : ∀ i < 5, gather (linkMasks i) = zero := by decide +kernel

/-- **Five bits of a head** are given by the heads before. -/
theorem head_linked (g : Generator) :
    head (g.word 4) % 2 ^ 5 = linked (head (g.word 0)) (head (g.word 1)) (head (g.word 2)) := by
  refine Nat.eq_of_testBit_eq fun i => ?_
  unfold linked
  rw [Nat.testBit_mod_two_pow, Nat.testBit_mod_two_pow]
  by_cases hi : i < 5
  · have heven := weigh_eq_false (gather_linkMasks i hi) g
    have hweigh : weigh (linkMasks i) g = (bit (g.word 0) (41 + i) ^^
        (bit (g.word 1) (44 + i) ^^ bit (g.word 1) (52 + i) ^^ bit (g.word 1) (61 + i)) ^^
        (bit (g.word 2) (41 + i) ^^ bit (g.word 2) (52 + i)) ^^ bit (g.word 4) (41 + i)) := by
      simp only [linkMasks, weigh, xor_parity, parity_single, zero_parity, Bool.xor_false, Bool.false_xor,
        Bool.xor_assoc]
      rfl
    rw [hweigh] at heven
    simp only [Nat.testBit_xor, Nat.testBit_shiftRight, testBit_head, ← add_assoc]
    norm_num
    grind
  · rw [decide_eq_false hi]
    rfl

/-! ## The leading bit -/

/-- the mask of the leading bit, for a term of a recurrence -/
def leadMask (term : Bool) : UInt64 := if term then single 63 else 0

theorem parity_leadMask (term : Bool) (w : UInt64) : parity (leadMask term) w = (term && bit w 63) := by
  cases term
  · exact zero_parity w
  · exact parity_single 63 w

/-- the terms of the recurrence that all bits of the words obey: the characteristic polynomial of the step -/
def terms : List Bool := (List.range 129).map (Nat.testBit 0x101f9f801f6fd0098bd82fd40e01730f9)

theorem gather_terms : gather (terms.map leadMask) = zero := by decide +kernel

theorem odd_terms : terms.foldr xor false = true := by decide +kernel

/-- where the leading bit alternates, the next words are weighed with a change for each term -/
theorem weigh_step {ps : List Bool} {g : Generator} (h : ∀ n < ps.length, bit (g.word (n + 1)) 63 ≠ bit (g.word n) 63) :
    weigh (ps.map leadMask) g.step = (weigh (ps.map leadMask) g ^^ ps.foldr xor false) := by
  induction ps generalizing g with
  | nil => rfl
  | cons p ps ih =>
    have hfirst : bit g.step.s0 63 ≠ bit g.s0 63 := h 0 (Nat.succ_pos _)
    have hrest := ih (g := g.step) fun n hn => h (n + 1) (Nat.succ_lt_succ hn)
    show (parity (leadMask p) g.step.s0 ^^ weigh (ps.map leadMask) g.step.step) =
      ((parity (leadMask p) g.s0 ^^ weigh (ps.map leadMask) g.step) ^^ (p ^^ ps.foldr xor false))
    rw [hrest, parity_leadMask, parity_leadMask]
    grind

/-- **The leading bit does not alternate** for 129 words in a row. -/
theorem lead_repeats (g : Generator) : ∃ n ≤ 128, bit (g.word (n + 1)) 63 = bit (g.word n) 63 := by
  by_contra hnone
  have halternates : ∀ n < terms.length, bit (g.word (n + 1)) 63 ≠ bit (g.word n) 63 := by
    intro n hn heq
    exact hnone ⟨n, Nat.le_of_lt_succ hn, heq⟩
  have hweigh := weigh_step halternates
  rw [weigh_eq_false gather_terms, weigh_eq_false gather_terms, odd_terms] at hweigh
  cases hweigh

end KeyHold.Generator
