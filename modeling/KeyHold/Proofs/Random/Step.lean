/-
The step of the generator, bit by bit and backwards.

A step is linear in the bits of the state, and each of its two shifts can be undone: what is shifted in from one end is
known by the time it is needed. So a step is a bijection, and the zero state comes from the zero state only. A state
that is not zero stays so for any number of draws; mixing can lead to the zero state, from one state for each entropy,
and is healed there.

The words are also followed as whole numbers without a width (`Wide`), cut to 64 bits only where a state is built, where
a step shifts to the left, and nowhere else.

- `back_step`, `step_back`: a step undone.
- `words_perform`: draws on words and draws on whole numbers go together.
- `never_collapses`: **no run of draws leaves 64 bits or ends in the zero state**, and the fixed pair is installed
  exactly in the place of the zero state.
-/
import Mathlib.Tactic
import KeyHold.Random.Generator

namespace KeyHold.Generator

/-! ## Bits -/

/-- the bit of a word at a place, the lowest at place 0 -/
def bit (w : UInt64) (i : ℕ) : Bool := w.toNat.testBit i

theorem bit_of_ge (w : UInt64) {i : ℕ} (h : 64 ≤ i) : bit w i = false :=
  Nat.testBit_lt_two_pow (w.toNat_lt.trans_le (Nat.pow_le_pow_right (by norm_num) h))

theorem bit_ext {v w : UInt64} (h : ∀ i < 64, bit v i = bit w i) : v = w := by
  refine UInt64.toNat_inj.1 (Nat.eq_of_testBit_eq fun i => ?_)
  rcases lt_or_ge i 64 with hi | hi
  · exact h i hi
  · exact (bit_of_ge v hi).trans (bit_of_ge w hi).symm

@[simp] theorem bit_zero (i : ℕ) : bit 0 i = false := Nat.zero_testBit i

@[simp] theorem bit_xor (v w : UInt64) (i : ℕ) : bit (v ^^^ w) i = (bit v i ^^ bit w i) := by
  unfold bit
  rw [UInt64.toNat_xor, Nat.testBit_xor]

theorem xor_pair_cancel (u v w : UInt64) : u ^^^ v ^^^ w ^^^ v ^^^ w = u := by
  refine bit_ext fun i _ => ?_
  simp only [bit_xor]
  grind

theorem bit_shiftRight (w : UInt64) {k : UInt64} (hk : k.toNat < 64) (i : ℕ) :
    bit (w >>> k) i = bit w (k.toNat + i) := by
  unfold bit
  rw [UInt64.toNat_shiftRight, Nat.mod_eq_of_lt hk, Nat.testBit_shiftRight]

theorem bit_shiftLeft (w : UInt64) {k : UInt64} (hk : k.toNat < 64) (i : ℕ) :
    bit (w <<< k) i = (decide (k.toNat ≤ i ∧ i < 64) && bit w (i - k.toNat)) := by
  unfold bit
  rw [UInt64.toNat_shiftLeft, Nat.mod_eq_of_lt hk, Nat.testBit_mod_two_pow, Nat.testBit_shiftLeft]
  by_cases h : k.toNat ≤ i <;> by_cases h' : i < 64 <;> simp [h, h']

/-! ## The step undone -/

/-- undoes `x ^^^ (x >>> 17)` -/
def undoRight (z : UInt64) : UInt64 := z ^^^ (z >>> 17) ^^^ (z >>> 34) ^^^ (z >>> 51)

/-- undoes `x ^^^ (x <<< 23)` -/
def undoLeft (z : UInt64) : UInt64 := z ^^^ (z <<< 23) ^^^ (z <<< 46)

theorem bit_undoRight (z : UInt64) (i : ℕ) :
    bit (undoRight z) i = (bit z i ^^ bit z (17 + i) ^^ bit z (34 + i) ^^ bit z (51 + i)) := by
  unfold undoRight
  rw [bit_xor, bit_xor, bit_xor, bit_shiftRight z (by decide), bit_shiftRight z (by decide),
    bit_shiftRight z (by decide)]
  rfl

theorem bit_undoLeft (z : UInt64) {i : ℕ} (h : i < 64) :
    bit (undoLeft z) i = (bit z i ^^ (decide (23 ≤ i) && bit z (i - 23)) ^^ (decide (46 ≤ i) && bit z (i - 46))) := by
  unfold undoLeft
  rw [bit_xor, bit_xor, bit_shiftLeft z (by decide), bit_shiftLeft z (by decide)]
  simp only [h, and_true]
  rfl

theorem undoRight_fold (x : UInt64) : undoRight (x ^^^ (x >>> 17)) = x := by
  refine bit_ext fun i _ => ?_
  have hout := bit_of_ge x (show 64 ≤ 17 + (51 + i) by omega)
  simp only [bit_undoRight, bit_xor, bit_shiftRight x (show (17 : UInt64).toNat < 64 by decide), UInt64.reduceToNat,
    hout]
  grind

theorem fold_undoRight (z : UInt64) : undoRight z ^^^ (undoRight z >>> 17) = z := by
  refine bit_ext fun i _ => ?_
  have hout := bit_of_ge z (show 64 ≤ 51 + (17 + i) by omega)
  simp only [bit_xor, bit_shiftRight _ (show (17 : UInt64).toNat < 64 by decide), UInt64.reduceToNat, bit_undoRight,
    hout]
  grind

theorem undoLeft_fold (x : UInt64) : undoLeft (x ^^^ (x <<< 23)) = x := by
  refine bit_ext fun i hi => ?_
  rw [bit_undoLeft _ hi]
  simp only [bit_xor, bit_shiftLeft x (show (23 : UInt64).toNat < 64 by decide), UInt64.reduceToNat]
  grind

theorem fold_undoLeft (z : UInt64) : undoLeft z ^^^ (undoLeft z <<< 23) = z := by
  refine bit_ext fun i hi => ?_
  rw [bit_xor, bit_shiftLeft _ (by decide), bit_undoLeft _ hi, bit_undoLeft _ (lt_of_le_of_lt (Nat.sub_le _ _) hi)]
  simp only [UInt64.reduceToNat]
  grind

/-- the state with both words zero -/
def zero : Generator := ⟨0, 0⟩

/-- the state before a step -/
def back (g : Generator) : Generator :=
  ⟨undoLeft (undoRight (g.s1 ^^^ g.s0 ^^^ (g.s0 >>> 26))), g.s0⟩

/-- what a step makes of the older word -/
def folded (w : UInt64) : UInt64 :=
  let x := w ^^^ (w <<< 23)
  x ^^^ (x >>> 17)

theorem step_s1 (g : Generator) : g.step.s1 = folded g.s0 ^^^ g.s1 ^^^ (g.s1 >>> 26) := by
  show (_ ^^^ g.s1) ^^^ _ ^^^ (g.s1 >>> 26) = _
  rw [UInt64.xor_assoc _ g.s1, UInt64.xor_comm g.s1, ← UInt64.xor_assoc]
  rfl

theorem undo_folded (w : UInt64) : undoLeft (undoRight (folded w)) = w := by
  show undoLeft (undoRight ((w ^^^ (w <<< 23)) ^^^ ((w ^^^ (w <<< 23)) >>> 17))) = w
  rw [undoRight_fold, undoLeft_fold]

theorem folded_undo (w : UInt64) : folded (undoLeft (undoRight w)) = w := by
  unfold folded
  rw [fold_undoLeft]
  exact fold_undoRight w

theorem back_step (g : Generator) : g.step.back = g := by
  have hfolded : g.step.s1 ^^^ g.s1 ^^^ (g.s1 >>> 26) = folded g.s0 := by
    rw [step_s1, xor_pair_cancel]
  show (⟨undoLeft (undoRight (g.step.s1 ^^^ g.s1 ^^^ (g.s1 >>> 26))), g.s1⟩ : Generator) = g
  rw [hfolded, undo_folded]

theorem step_back (g : Generator) : g.back.step = g := by
  have hnewest : g.back.step.s1 = g.s1 := by
    rw [step_s1]
    show folded (undoLeft (undoRight _)) ^^^ g.s0 ^^^ (g.s0 >>> 26) = g.s1
    rw [folded_undo, xor_pair_cancel]
  show (⟨g.s0, g.back.step.s1⟩ : Generator) = g
  rw [hnewest]

theorem step_injective : Function.Injective step := Function.LeftInverse.injective back_step

theorem step_bijective : Function.Bijective step :=
  Function.bijective_iff_has_inverse.2 ⟨back, back_step, step_back⟩

theorem step_zero : zero.step = zero := by decide

theorem step_eq_zero_iff (g : Generator) : g.step = zero ↔ g = zero :=
  ⟨fun h => step_injective (h.trans step_zero.symm), fun h => h ▸ step_zero⟩

theorem isZero_iff (g : Generator) : g.isZero = true ↔ g = zero := by
  obtain ⟨s0, s1⟩ := g
  simp [isZero, zero]

/-! ## Draws -/

/-- what is asked of a generator -/
inductive Draw where
  | next
  | unit
  | range (low high : ℤ)
  | oneIn (n : ℤ)
  | choice (count : ℤ)
  | mix (entropy : ℤ)
deriving DecidableEq, Repr

/-- the state after a draw -/
def perform (g : Generator) : Draw → Generator
  | .next => g.next.2
  | .unit => g.unit.2
  | .range low high => (range low high g).2
  | .oneIn n => (oneIn n g).2
  | .choice count => (choice count g).2
  | .mix entropy => (seedMix entropy g).1

theorem perform_range (g : Generator) (low high : ℤ) :
    g.perform (.range low high) = if high ≤ low then g else g.step := by
  show (range low high g).2 = _
  unfold range
  split_ifs <;> rfl

theorem perform_oneIn (g : Generator) (n : ℤ) : g.perform (.oneIn n) = if n ≤ 0 then g else g.step := by
  show (oneIn n g).2 = _
  unfold oneIn
  split_ifs <;> rfl

theorem perform_choice (g : Generator) (count : ℤ) :
    g.perform (.choice count) = if count ≤ 1 then g else g.step := by
  show (choice count g).2 = _
  unfold choice
  split_ifs <;> rfl

/-- the state after draws in a row -/
def run (g : Generator) (ds : List Draw) : Generator := ds.foldl perform g

/-- the state that mixing leads to, before it is healed -/
def unhealed (entropy : ℤ) (g : Generator) : Generator :=
  let mix := mixWord entropy
  let g := step ⟨g.s0 ^^^ mix, g.s1⟩
  ⟨g.s0, g.s1 ^^^ (mix >>> 17)⟩

theorem unhealed_eq (entropy : ℤ) (g : Generator) : unhealed entropy g =
    ⟨g.s1, folded (g.s0 ^^^ mixWord entropy) ^^^ g.s1 ^^^ (g.s1 >>> 26) ^^^ (mixWord entropy >>> 17)⟩ := by
  show (⟨g.s1, (step ⟨g.s0 ^^^ mixWord entropy, g.s1⟩).s1 ^^^ (mixWord entropy >>> 17)⟩ : Generator) = _
  rw [step_s1]

/-- the state that mixing takes to the zero state -/
def collapsing (entropy : ℤ) : Generator :=
  ⟨undoLeft (undoRight (mixWord entropy >>> 17)) ^^^ mixWord entropy, 0⟩

theorem unhealed_eq_zero_iff (entropy : ℤ) (g : Generator) : unhealed entropy g = zero ↔ g = collapsing entropy := by
  obtain ⟨s0, s1⟩ := g
  constructor
  · intro h
    rw [unhealed_eq] at h
    obtain rfl : s1 = 0 := congrArg Generator.s0 h
    have hnewest : _ = (0 : UInt64) := congrArg Generator.s1 h
    simp only [UInt64.xor_zero, UInt64.zero_shiftRight, UInt64.xor_eq_zero_iff] at hnewest
    unfold collapsing
    rw [← hnewest, undo_folded, UInt64.xor_assoc, UInt64.xor_self, UInt64.xor_zero]
  · intro h
    rw [h, unhealed_eq]
    unfold collapsing
    simp only [UInt64.xor_assoc, UInt64.xor_self, UInt64.xor_zero, UInt64.zero_shiftRight, folded_undo]
    rfl

theorem heal_eq (g : Generator) : heal g = if g = zero then (fallback, true) else (g, false) := by
  unfold heal
  exact if_congr (isZero_iff g) rfl rfl

theorem seedMix_eq (entropy : ℤ) (g : Generator) :
    seedMix entropy g = if unhealed entropy g = zero then (fallback, true) else (unhealed entropy g, false) :=
  heal_eq _

theorem heal_ne_zero (g : Generator) : (heal g).1 ≠ zero := by
  rw [heal_eq]
  split_ifs with h
  · decide
  · exact h

/-- a draw either leaves the state, or is a step, or ends with a healed state -/
theorem perform_ne_zero {g : Generator} (h : g ≠ zero) (d : Draw) : g.perform d ≠ zero := by
  have hstep : g.step ≠ zero := fun hz => h ((step_eq_zero_iff g).1 hz)
  cases d with
  | next => exact hstep
  | unit => exact hstep
  | range low high =>
    rw [perform_range]
    split_ifs
    exacts [h, hstep]
  | oneIn n =>
    rw [perform_oneIn]
    split_ifs
    exacts [h, hstep]
  | choice count =>
    rw [perform_choice]
    split_ifs
    exacts [h, hstep]
  | mix entropy => exact heal_ne_zero _

theorem run_ne_zero {g : Generator} (h : g ≠ zero) (ds : List Draw) : g.run ds ≠ zero := by
  induction ds generalizing g with
  | nil => exact h
  | cons d ds ih => exact ih (perform_ne_zero h d)

/-! ## Whole numbers without a width -/

/-- the words as whole numbers -/
def words (g : Generator) : ℕ × ℕ := (g.s0.toNat, g.s1.toNat)

theorem words_injective : Function.Injective words := by
  rintro ⟨a, b⟩ ⟨c, d⟩ h
  obtain rfl : a = c := UInt64.toNat_inj.1 (congrArg Prod.fst h)
  obtain rfl : b = d := UInt64.toNat_inj.1 (congrArg Prod.snd h)
  rfl

namespace Wide

/-- a step; only what is shifted to the left is cut -/
def step (p : ℕ × ℕ) : ℕ × ℕ :=
  let x := p.1 ^^^ ((p.1 <<< 23) % 2 ^ 64)
  (p.2, x ^^^ p.2 ^^^ (x >>> 17) ^^^ (p.2 >>> 26))

def heal (p : ℕ × ℕ) : ℕ × ℕ := if p = (0, 0) then fallback.words else p

def ofInts (a b : ℤ) : ℕ × ℕ := heal ((a % 2 ^ 64).toNat, (b % 2 ^ 64).toNat)

def mixWord (entropy : ℤ) : ℕ :=
  let s := (entropy % 2 ^ 32).toNat
  (s <<< 32) ||| (s ^^^ 0xA5A5A5A5)

def seedMix (entropy : ℤ) (p : ℕ × ℕ) : ℕ × ℕ :=
  let mix := mixWord entropy
  let p := step (p.1 ^^^ mix, p.2)
  heal (p.1, p.2 ^^^ (mix >>> 17))

/-- the state after a draw -/
def perform (p : ℕ × ℕ) : Draw → ℕ × ℕ
  | .next => step p
  | .unit => step p
  | .range low high => if high ≤ low then p else step p
  | .oneIn n => if n ≤ 0 then p else step p
  | .choice count => if count ≤ 1 then p else step p
  | .mix entropy => seedMix entropy p

/-- the state after draws in a row -/
def run (p : ℕ × ℕ) (ds : List Draw) : ℕ × ℕ := ds.foldl perform p

end Wide

theorem words_step (g : Generator) : g.step.words = Wide.step g.words := by
  have hleft : (g.s0 <<< 23).toNat = g.s0.toNat <<< 23 % 2 ^ 64 := UInt64.toNat_shiftLeft _ _
  have hright (w : UInt64) : (w >>> 17).toNat = w.toNat >>> 17 := UInt64.toNat_shiftRight _ _
  have hright' : (g.s1 >>> 26).toNat = g.s1.toNat >>> 26 := UInt64.toNat_shiftRight _ _
  refine Prod.ext rfl ?_
  show (_ ^^^ _ ^^^ _ ^^^ _ : UInt64).toNat = _
  simp only [UInt64.toNat_xor, hleft, hright, hright']
  rfl

theorem words_heal (g : Generator) : (heal g).1.words = Wide.heal g.words := by
  have hzero : g = zero ↔ g.words = (0, 0) := words_injective.eq_iff' rfl |>.symm
  rw [heal_eq]
  unfold Wide.heal
  by_cases h : g = zero
  · rw [if_pos h, if_pos (hzero.1 h)]
  · rw [if_neg h, if_neg (mt hzero.2 h)]

theorem toNat_ofInt (a : ℤ) : (UInt64.ofInt a).toNat = (a % 2 ^ 64).toNat := by
  have hlt : (a % 2 ^ 64).toNat < 2 ^ 64 := by omega
  exact Nat.mod_eq_of_lt hlt

theorem words_ofInts (a b : ℤ) : (ofInts a b).1.words = Wide.ofInts a b := by
  unfold ofInts Wide.ofInts
  rw [words_heal]
  unfold words
  rw [toNat_ofInt, toNat_ofInt]

theorem toNat_mixWord (entropy : ℤ) : (mixWord entropy).toNat = Wide.mixWord entropy := by
  have hwidth : (2 : ℤ) ^ 32 = 4294967296 := by norm_num
  unfold mixWord Wide.mixWord
  rw [hwidth]
  obtain ⟨s, hs⟩ : ∃ s, (entropy % 4294967296).toNat = s := ⟨_, rfl⟩
  have hlt : s < 2 ^ 32 := by omega
  rw [hs]
  have hword : (UInt64.ofNat s).toNat = s := Nat.mod_eq_of_lt (hlt.trans (by norm_num))
  have hleft : s <<< 32 < 2 ^ 64 := by
    rw [Nat.shiftLeft_eq]
    omega
  dsimp only
  rw [UInt64.toNat_or, UInt64.toNat_shiftLeft, UInt64.toNat_xor, hword]
  show s <<< 32 % 2 ^ 64 ||| _ = _
  rw [Nat.mod_eq_of_lt hleft]
  rfl

theorem words_seedMix (entropy : ℤ) (g : Generator) :
    (seedMix entropy g).1.words = Wide.seedMix entropy g.words := by
  have hright : (mixWord entropy >>> 17).toNat = Wide.mixWord entropy >>> 17 := by
    rw [UInt64.toNat_shiftRight, toNat_mixWord]
    rfl
  have hmixed : (⟨g.s0 ^^^ mixWord entropy, g.s1⟩ : Generator).words =
      (g.words.1 ^^^ Wide.mixWord entropy, g.words.2) := by
    unfold words
    rw [UInt64.toNat_xor, toNat_mixWord]
  unfold seedMix Wide.seedMix
  dsimp only
  rw [words_heal, ← hmixed, ← words_step, ← hright]
  unfold words
  rw [UInt64.toNat_xor]

/-- **Draws on words and on whole numbers** go together. -/
theorem words_perform (g : Generator) (d : Draw) : (g.perform d).words = Wide.perform g.words d := by
  cases d with
  | next => exact words_step g
  | unit => exact words_step g
  | range low high =>
    rw [perform_range, apply_ite words, words_step]
    rfl
  | oneIn n =>
    rw [perform_oneIn, apply_ite words, words_step]
    rfl
  | choice count =>
    rw [perform_choice, apply_ite words, words_step]
    rfl
  | mix entropy => exact words_seedMix entropy g

theorem words_run (g : Generator) (ds : List Draw) : (g.run ds).words = Wide.run g.words ds := by
  induction ds generalizing g with
  | nil => rfl
  | cons d ds ih =>
    show ((g.perform d).run ds).words = Wide.run (Wide.perform g.words d) ds
    rw [ih, words_perform]

/-! ## Results -/

theorem ofInts_ne_zero (a b : ℤ) : (ofInts a b).1 ≠ zero := heal_ne_zero _

theorem ofInts_eq (a b : ℤ) :
    ofInts a b = if (2 ^ 64 : ℤ) ∣ a ∧ (2 ^ 64 : ℤ) ∣ b then (fallback, true)
      else (⟨UInt64.ofInt a, UInt64.ofInt b⟩, false) := by
  have hword (n : ℤ) : UInt64.ofInt n = 0 ↔ (2 ^ 64 : ℤ) ∣ n := by
    rw [← UInt64.toNat_inj, toNat_ofInt, UInt64.toNat_zero]
    omega
  have hzero : (⟨UInt64.ofInt a, UInt64.ofInt b⟩ : Generator) = zero ↔ (2 ^ 64 : ℤ) ∣ a ∧ (2 ^ 64 : ℤ) ∣ b := by
    rw [← hword a, ← hword b]
    exact Generator.mk.injEq .. |>.to_iff
  unfold ofInts
  rw [heal_eq]
  exact if_congr hzero rfl rfl

/-- **The generator never collapses.** From any two integers, any draws leave two words of 64 bits, not both zero, and
the words are those of the whole numbers. A step is a bijection that leads to the zero state only from there. Where a
state is built or mixed, the fixed pair stands for the zero state and for no other; for each entropy there is one state
from which mixing would lead to the zero state. -/
theorem never_collapses :
    (∀ (a b : ℤ) (ds : List Draw), Wide.run (Wide.ofInts a b) ds = ((ofInts a b).1.run ds).words ∧
      (Wide.run (Wide.ofInts a b) ds).1 < 2 ^ 64 ∧ (Wide.run (Wide.ofInts a b) ds).2 < 2 ^ 64 ∧
      Wide.run (Wide.ofInts a b) ds ≠ (0, 0)) ∧
    Function.Bijective step ∧ (∀ g, step g = zero ↔ g = zero) ∧
    (∀ a b : ℤ, ofInts a b = if (2 ^ 64 : ℤ) ∣ a ∧ (2 ^ 64 : ℤ) ∣ b then (fallback, true)
      else (⟨UInt64.ofInt a, UInt64.ofInt b⟩, false)) ∧
    (∀ (entropy : ℤ) (g : Generator), seedMix entropy g =
      if unhealed entropy g = zero then (fallback, true) else (unhealed entropy g, false)) ∧
    ∀ entropy : ℤ, ∃! g, unhealed entropy g = zero := by
  refine ⟨fun a b ds => ?_, step_bijective, step_eq_zero_iff, ofInts_eq, seedMix_eq, fun entropy => ?_⟩
  · have hrun : Wide.run (Wide.ofInts a b) ds = ((ofInts a b).1.run ds).words := by
      rw [words_run, words_ofInts]
    have halive : ((ofInts a b).1.run ds).words ≠ zero.words :=
      words_injective.ne (run_ne_zero (ofInts_ne_zero a b) ds)
    rw [hrun]
    exact ⟨rfl, UInt64.toNat_lt _, UInt64.toNat_lt _, halive⟩
  · exact ⟨collapsing entropy, (unhealed_eq_zero_iff entropy _).2 rfl, fun g => (unhealed_eq_zero_iff entropy g).1⟩

end KeyHold.Generator
