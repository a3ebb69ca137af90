/-
Draws that are rejected.

The first uniform draw of a normal value is rejected if it is 0 or 2^-24, that is if the output has none of its 23
leading bits. Such an output is the sum of two words in a row whose heads (the 23 leading bits) complement each other,
or nearly so. Then the leading bit alternates from word to word, unless the heads are empty or hold nothing but that
bit; and from two such words on, the heads that follow are so few that the bits they have in common with the heads
before leave only empty ones. A state whose words have empty heads for a while is the zero state.

- `head_opposite`: the heads of two words with a rejected sum.
- `heads_empty`: heads that follow two equal ones are empty.
- `zero_of_rejected`: **134 rejected draws in a row** come from the zero state only.
-/
import Mathlib.Tactic
import KeyHold.Proofs.Random.Recurrence
import KeyHold.Proofs.Random.Unit

namespace KeyHold.Generator

/-! ## Heads with a rejected sum -/

theorem head_lt (w : UInt64) : head w < 2 ^ 23 := by
  have hw := w.toNat_lt
  unfold head
  rw [Nat.shiftRight_eq_div_pow]
  omega

/-- the heads that complement a head: to all 23 bits, or to a carry beyond them -/
def opposites (a : ℕ) : List ℕ := [2 ^ 23 - 1 - a, (2 ^ 23 - a) % 2 ^ 23]

/-- **Two words with a rejected sum** have opposite heads. -/
theorem head_opposite {v w : UInt64} (h : numerator (w + v) < 2) : head w ∈ opposites (head v) := by
  have hv := v.toNat_lt
  have hw := w.toNat_lt
  unfold numerator at h
  rw [UInt64.toNat_add, Nat.shiftRight_eq_div_pow] at h
  unfold opposites head
  rw [List.mem_pair, Nat.shiftRight_eq_div_pow, Nat.shiftRight_eq_div_pow]
  omega

/-- heads that are opposite and have the same leading bit are equal, and have nothing but that bit -/
theorem head_flat {v w : UInt64} (h : head w ∈ opposites (head v)) (hlead : bit w 63 = bit v 63) :
    head w = head v ∧ head v ∈ [0, 2 ^ 22] := by
  have hv := head_lt v
  have hw := head_lt w
  have hbit (u : UInt64) : bit u 63 = decide (head u / 2 ^ 22 % 2 = 1) := by
    rw [← Nat.testBit_eq_decide_div_mod_eq, testBit_head]
  rw [hbit, hbit, decide_eq_decide] at hlead
  unfold opposites at h
  rw [List.mem_pair] at h ⊢
  omega

/-- **After two equal heads** of that kind, heads that are opposite one to the next are empty. -/
theorem heads_empty : ∀ a ∈ [0, 2 ^ 22], ∀ b ∈ opposites a, ∀ c ∈ opposites b, ∀ d ∈ opposites c, ∀ e ∈ opposites d,
    ∀ f ∈ opposites e, d % 2 ^ 5 = linked a a b → e % 2 ^ 5 = linked a b c → f % 2 ^ 5 = linked b c d →
      a = 0 ∧ b = 0 ∧ c = 0 ∧ d = 0 ∧ e = 0 := by
  decide +kernel

/-! ## Small words -/

theorem undoRight_lt {z : UInt64} {k : ℕ} (h : z.toNat < 2 ^ k) : (undoRight z).toNat < 2 ^ k := by
  have hshift (n : UInt64) : (z >>> n).toNat < 2 ^ k := by
    rw [UInt64.toNat_shiftRight]
    exact lt_of_le_of_lt (Nat.shiftRight_le _ _) h
  unfold undoRight
  rw [UInt64.toNat_xor, UInt64.toNat_xor, UInt64.toNat_xor]
  exact Nat.xor_lt_two_pow (Nat.xor_lt_two_pow (Nat.xor_lt_two_pow h (hshift _)) (hshift _)) (hshift _)

/-- a word that is small, as the two after it, is smaller by 23 bits -/
theorem word_narrow {g : Generator} {k : ℕ} (hk : k ≤ 41) (h0 : (g.word 0).toNat < 2 ^ k)
    (h1 : (g.word 1).toNat < 2 ^ k) (h2 : (g.word 2).toNat < 2 ^ k) : (g.word 0).toNat * 2 ^ 23 < 2 ^ k := by
  have hfolded : (folded (g.word 0)).toNat < 2 ^ k := by
    have hstep : g.word 2 = folded (g.word 0) ^^^ g.word 1 ^^^ (g.word 1 >>> 26) := step_s1 g
    have hback : folded (g.word 0) = g.word 2 ^^^ g.word 1 ^^^ (g.word 1 >>> 26) := by
      rw [hstep, xor_pair_cancel]
    have hshift : (g.word 1 >>> 26).toNat < 2 ^ k := by
      rw [UInt64.toNat_shiftRight]
      exact lt_of_le_of_lt (Nat.shiftRight_le _ _) h1
    rw [hback, UInt64.toNat_xor, UInt64.toNat_xor]
    exact Nat.xor_lt_two_pow (Nat.xor_lt_two_pow h2 h1) hshift
  have hsum : (g.word 0 ^^^ (g.word 0 <<< 23)).toNat < 2 ^ k := by
    rw [← undoRight_fold (g.word 0 ^^^ (g.word 0 <<< 23))]
    exact undoRight_lt hfolded
  have hshifted : (g.word 0 <<< 23).toNat < 2 ^ k := by
    have hself : g.word 0 <<< 23 = g.word 0 ^^^ (g.word 0 ^^^ (g.word 0 <<< 23)) := by
      rw [← UInt64.xor_assoc, UInt64.xor_self, UInt64.zero_xor]
    rw [hself, UInt64.toNat_xor]
    exact Nat.xor_lt_two_pow h0 hsum
  have hexact : (g.word 0 <<< 23).toNat = (g.word 0).toNat * 2 ^ 23 := by
    have hfit : (g.word 0).toNat < 2 ^ 41 := h0.trans_le (Nat.pow_le_pow_right (by norm_num) hk)
    rw [UInt64.toNat_shiftLeft]
    show (g.word 0).toNat <<< 23 % 2 ^ 64 = _
    rw [Nat.shiftLeft_eq]
    omega
  rw [← hexact]
  exact hshifted

/-- **A state is zero** if its first six words have empty heads. -/
theorem zero_of_empty {g : Generator} (h : ∀ n < 6, head (g.word n) = 0) : g = zero := by
  have hshort : ∀ n < 6, (g.word n).toNat < 2 ^ 41 := by
    intro n hn
    have hempty := h n hn
    unfold head at hempty
    rw [Nat.shiftRight_eq_div_pow] at hempty
    omega
  have hnarrow (k : ℕ) (hk : k ≤ 41) (n : ℕ) (hw : ∀ i < 3, (g.word (n + i)).toNat < 2 ^ k) :
      (g.word n).toNat * 2 ^ 23 < 2 ^ k :=
    word_narrow (g := step^[n] g) hk (hw 0 (by omega)) (word_add g n 1 ▸ hw 1 (by omega))
      (word_add g n 2 ▸ hw 2 (by omega))
  have htiny : ∀ n < 4, (g.word n).toNat < 2 ^ 18 := by
    intro n hn
    have := hnarrow 41 le_rfl n fun i hi => hshort (n + i) (by omega)
    omega
  have hnone : ∀ n < 2, g.word n = 0 := by
    intro n hn
    have := hnarrow 18 (by omega) n fun i hi => htiny (n + i) (by omega)
    exact UInt64.toNat_inj.1 (show (g.word n).toNat = 0 by omega)
  obtain ⟨s0, s1⟩ := g
  obtain rfl : s0 = 0 := hnone 0 (by omega)
  obtain rfl : s1 = 0 := hnone 1 (by omega)
  rfl

/-! ## Rejected draws in a row -/

theorem output_iterate (g : Generator) (n : ℕ) : (step^[n] g).output = g.word (n + 2) + g.word (n + 1) := by
  rw [word_add, word_add]
  rfl

/-- **134 rejected draws in a row** come from the zero state only. -/
theorem zero_of_rejected {g : Generator} (h : ∀ n ≤ 133, numerator (step^[n] g).output < 2) : g = zero := by
  have hopposite : ∀ n ≤ 133, head (g.word (n + 2)) ∈ opposites (head (g.word (n + 1))) := by
    intro n hn
    have hsum := h n hn
    rw [output_iterate] at hsum
    exact head_opposite hsum
  obtain ⟨n, hn, hlead⟩ := lead_repeats g.step
  rw [word_step, word_step] at hlead
  obtain ⟨heq, hflat⟩ := head_flat (hopposite n (by omega)) hlead
  have hlinked (k : ℕ) : head (g.word (n + 1 + k + 4)) % 2 ^ 5 =
      linked (head (g.word (n + 1 + k))) (head (g.word (n + 1 + k + 1))) (head (g.word (n + 1 + k + 2))) := by
    have := head_linked (step^[n + 1 + k] g)
    rwa [← word_add, ← word_add, ← word_add, ← word_add] at this
  obtain ⟨h0, h2, h3, h4, h5⟩ := heads_empty _ hflat _ (heq ▸ hopposite (n + 1) (by omega)) _
    (hopposite (n + 2) (by omega)) _ (hopposite (n + 3) (by omega)) _ (hopposite (n + 4) (by omega)) _
    (hopposite (n + 5) (by omega)) (heq ▸ hlinked 0) (heq ▸ hlinked 1) (hlinked 2)
  have hzero : step^[n + 1] g = zero := by
    refine zero_of_empty fun k hk => ?_
    rw [← word_add]
    interval_cases k
    exacts [h0, heq.trans h0, h2, h3, h4, h5]
  have hstays : step^[n + 1] zero = zero := Function.iterate_fixed step_zero (n + 1)
  exact (step_injective.iterate (n + 1)) (hzero.trans hstays.symm)

/-- a generator that is not in the zero state is asked again 133 times at most -/
theorem first_accepted {g : Generator} (h : g ≠ zero) : ∃ r ≤ 133, (∀ n < r, numerator (step^[n] g).output < 2) ∧
    2 ≤ numerator (step^[r] g).output := by
  have hsome : ∃ r, 2 ≤ numerator (step^[r] g).output := by
    by_contra hnone
    exact h (zero_of_rejected fun n _ => not_le.1 fun hn => hnone ⟨n, hn⟩)
  have hbefore : ∀ n < Nat.find hsome, numerator (step^[n] g).output < 2 := fun n hn =>
    not_le.1 (Nat.find_min hsome hn)
  refine ⟨Nat.find hsome, ?_, hbefore, Nat.find_spec hsome⟩
  by_contra hlate
  exact h (zero_of_rejected fun n hn => hbefore n (by omega))

/-! ## Normal values -/

theorem unit_iterate (g : Generator) (n : ℕ) : (step^[n] g).unit = (unitOf (step^[n] g).output, step^[n + 1] g) := by
  rw [Function.iterate_succ_apply']
  rfl

/-- the first usable draw is the first that is not too small, however many more tries there are -/
theorem firstUsable_eq {g : Generator} {r tries : ℕ} (hr : r ≤ tries)
    (hbefore : ∀ n < r, numerator (step^[n] g).output < 2) (haccepted : 2 ≤ numerator (step^[r] g).output) :
    Normal.firstUsable Normal.uniform tries g = (.ok (unitOf (step^[r] g).output), step^[r + 1] g) := by
  induction r generalizing g tries with
  | zero =>
    have hlarge : ¬ unitOf g.output ≤ Normal.tooSmall := by
      rw [unitOf_tooSmall_iff]
      exact not_lt.2 haccepted
    cases tries with
    | zero => rfl
    | succ tries =>
      show (if unitOf g.output ≤ Normal.tooSmall then _ else _) = _
      rw [if_neg hlarge]
      rfl
  | succ r ih =>
    obtain ⟨tries, rfl⟩ : ∃ t, tries = t + 1 := ⟨tries - 1, by omega⟩
    have hsmall : unitOf g.output ≤ Normal.tooSmall := (unitOf_tooSmall_iff _).2 (hbefore 0 (Nat.succ_pos r))
    show (if unitOf g.output ≤ Normal.tooSmall then Normal.firstUsable Normal.uniform tries g.step else _) = _
    rw [if_pos hsmall]
    exact ih (by omega) (fun n hn => hbefore (n + 1) (by omega)) haccepted

theorem boxMuller_eq {g : Generator} {r tries : ℕ} (mean stddev : Float) (hr : r ≤ tries)
    (hbefore : ∀ n < r, numerator (step^[n] g).output < 2) (haccepted : 2 ≤ numerator (step^[r] g).output) :
    Normal.boxMuller Normal.uniform tries mean stddev g =
      (.ok (mean + Normal.transform (unitOf (step^[r] g).output) (unitOf (step^[r + 1] g).output) * stddev),
        step^[r + 2] g) := by
  unfold Normal.boxMuller
  rw [firstUsable_eq hr hbefore haccepted]
  simp only [Normal.uniform, unit_iterate]

/-- the two uniform values of a normal one, after `r` that are rejected -/
structure UniformPair (g : Generator) (r : ℕ) (u v : Float) : Prop where
  rejected : ∀ n < r, (step^[n] g).unit.1 ≤ Normal.tooSmall
  first : (step^[r] g).unit = (u, step^[r + 1] g)
  usable : ¬ u ≤ Normal.tooSmall
  second : (step^[r + 1] g).unit = (v, step^[r + 2] g)

/-- **The loop for a normal value ends** from every state but the zero state, after 133 rejected draws at most. The
value is made of the first draw that is not rejected, at least 2 and less than 2^24 steps of 2^-24, and of the next
draw, less than 2^24 of these steps; the generator has taken the rejected draws and two more. To allow more tries
changes nothing. -/
theorem boxMuller_ends (mean stddev : Float) {g : Generator} (h : g ≠ zero) :
    ∃ (r : ℕ) (u v : Float), r ≤ 133 ∧ UniformPair g r u v ∧
      (∃ k : ℕ, 2 ≤ k ∧ k < 2 ^ 24 ∧ Decimal.value u = some ((k : ℚ) / 2 ^ 24)) ∧
      (∃ k : ℕ, k < 2 ^ 24 ∧ Decimal.value v = some ((k : ℚ) / 2 ^ 24)) ∧
      (∀ tries ≥ r, Normal.boxMuller Normal.uniform tries mean stddev g =
        (.ok (mean + Normal.transform u v * stddev), step^[r + 2] g)) ∧
      Noise.boxMuller.normal mean stddev g = (mean + Normal.transform u v * stddev, step^[r + 2] g) := by
  obtain ⟨r, hr, hbefore, haccepted⟩ := first_accepted h
  have hpair : UniformPair g r (unitOf (step^[r] g).output) (unitOf (step^[r + 1] g).output) :=
    { rejected := fun n hn => (unitOf_tooSmall_iff _).2 (hbefore n hn)
      first := unit_iterate g r
      usable := by
        rw [unitOf_tooSmall_iff]
        exact not_lt.2 haccepted
      second := unit_iterate g (r + 1) }
  refine ⟨r, _, _, hr, hpair, ⟨_, haccepted, numerator_lt _, value_unitOf _⟩, ⟨_, numerator_lt _, value_unitOf _⟩,
    fun tries htries => boxMuller_eq mean stddev htries hbefore haccepted, ?_⟩
  have htries : r ≤ Normal.stateCount := hr.trans (by decide)
  unfold Noise.boxMuller
  dsimp only
  rw [boxMuller_eq mean stddev htries hbefore haccepted]

/-- three draws are rejected from a state with a single bit -/
theorem boxMuller_ends_fourth : (⟨0, 1⟩ : Generator) ≠ zero ∧ ∃ u v, UniformPair ⟨0, 1⟩ 3 u v ∧
    Noise.boxMuller.normal 900 250 ⟨0, 1⟩ = (900 + Normal.transform u v * 250, step^[5] ⟨0, 1⟩) := by
  have hne : (⟨0, 1⟩ : Generator) ≠ zero := by decide
  obtain ⟨r, u, v, -, hpair, -, -, -, hnormal⟩ := boxMuller_ends 900 250 hne
  have hsmall : ∀ n < 3, numerator (step^[n] ⟨0, 1⟩).output < 2 := by decide +kernel
  have hlarge : ¬ numerator (step^[3] ⟨0, 1⟩).output < 2 := by decide +kernel
  have hunit : unitOf (step^[r] ⟨0, 1⟩).output = u := congrArg Prod.fst hpair.first
  obtain rfl : r = 3 := by
    rcases lt_trichotomy r 3 with hlt | heq | hgt
    · exact absurd ((unitOf_tooSmall_iff _).2 (hsmall r hlt)) (hunit ▸ hpair.usable)
    · exact heq
    · exact absurd ((unitOf_tooSmall_iff _).1 (hpair.rejected 3 hgt)) hlarge
  exact ⟨hne, u, v, hpair, hnormal⟩

end KeyHold.Generator
