/-
A wait on a performance counter.

A wait reads the counter once to set a deadline, and again until a reading is not before it. Each reading is a tick
above the one before, so the number of readings is that of the ticks that cover the wait, and one: a wait of whole ticks
ends with the reading that is on the deadline.

- `Reaches`: the first reading that is not before a deadline. `spin_reaches`: **the loop stops there.**
- `Reaches.count`: how many readings that takes.
- `wait_readings`: **a wait**, its readings and the time between the first of them and the last.
-/
import Mathlib.Tactic
import KeyHold.Clock

namespace KeyHold.Counter

/-! ## Readings -/

/-- the counter after so many readings -/
theorem read_iterate (c : Counter) (k : ℕ) : read^[k] c = { c with value := c.value + k * c.tick } := by
  induction k with
  | zero => simp
  | succ k ih =>
    rw [Function.iterate_succ_apply', ih]
    simp only [read]
    congr 1
    push_cast
    ring

theorem value_iterate (c : Counter) (k : ℕ) : (read^[k] c).value = c.value + k * c.tick := by rw [read_iterate]

/-- of the readings from here on, the `n`th is the first that is not before the deadline -/
structure Reaches (deadline : ℤ) (c : Counter) (n : ℕ) : Prop where
  pos : 1 ≤ n
  before : ∀ k, 1 ≤ k → k < n → (read^[k] c).value < deadline
  atEnd : deadline ≤ (read^[n] c).value

variable {c : Counter} {n : ℕ} {us : ℤ} {deadline : ℤ}

/-- the first reading that is not before a deadline is after it by less than a tick -/
theorem Reaches.value_lt (hahead : c.value < deadline) (h : Reaches deadline c n) :
    (read^[n] c).value < deadline + c.tick := by
  have hpos := h.pos
  by_cases hn : n = 1
  · subst hn
    rw [value_iterate]
    push_cast
    linarith
  · have hbefore := h.before (n - 1) (by omega) (by omega)
    rw [value_iterate] at hbefore ⊢
    push_cast [hpos] at hbefore
    linarith

/-- one reading before the deadline, and the readings after it -/
theorem Reaches.next (hlt : c.value + c.tick < deadline) (h : Reaches deadline c.read n) :
    Reaches deadline c (n + 1) := by
  refine ⟨by omega, ?_, h.atEnd⟩
  intro k hk hkn
  obtain ⟨j, rfl⟩ : ∃ j, k = j + 1 := ⟨k - 1, by omega⟩
  rw [Function.iterate_succ_apply]
  by_cases hj : j = 0
  · subst hj
    exact hlt
  · exact h.before j (by omega) (by omega)

/-- **The loop stops** at the first reading that is not before the deadline. -/
theorem spin_reaches (deadline : ℤ) (c : Counter) :
    ∃ n, spin deadline c = (n, read^[n] c) ∧ Reaches deadline c n := by
  fun_induction spin deadline c with
  | case1 c hlt n last hspin ih =>
    obtain ⟨m, hm, hreach⟩ := ih
    rw [hspin, Prod.mk.injEq] at hm
    obtain ⟨rfl, rfl⟩ := hm
    exact ⟨n + 1, rfl, hreach.next hlt⟩
  | case2 c hge =>
    refine ⟨1, rfl, le_rfl, ?_, not_lt.1 hge⟩
    intro k hk hk'
    omega

/-- **The readings are counted**: a deadline lies as many ticks ahead as there are readings to it. -/
theorem Reaches.count {ahead : ℤ} (hahead : 0 < ahead) (h : Reaches (c.value + ahead) c n) :
    (n : ℤ) = ⌈(ahead : ℚ) / c.tick⌉ := by
  have htick : (0 : ℚ) < c.tick := by exact_mod_cast c.tick_pos
  have hend : ahead ≤ n * c.tick := by
    have := h.atEnd
    rw [value_iterate] at this
    linarith
  have hlast : (n - 1 : ℤ) * c.tick < ahead := by
    have := h.value_lt (by omega)
    rw [value_iterate] at this
    linarith
  symm
  rw [Int.ceil_eq_iff, lt_div_iff₀ htick, div_le_iff₀ htick]
  constructor
  · exact_mod_cast hlast
  · exact_mod_cast hend

/-! ## Waits -/

/-- **A wait** of no microseconds or less reads nothing. Any other wait makes one reading and then as many as ticks
cover it. All of them but the last lie less than the wait after the first; the last lies the wait or more after the
first, by less than a tick more. -/
theorem wait_readings (c : Counter) (us : ℤ) :
    (us ≤ 0 → c.wait us = (0, c)) ∧
      (0 < us → ∃ n : ℕ, c.wait us = (n, read^[n] c) ∧ (n : ℤ) = 1 + ⌈((us * 1000 : ℤ) : ℚ) / c.tick⌉ ∧
        (∀ k, 1 ≤ k → k < n → (read^[k] c).value - c.read.value < us * 1000) ∧
        us * 1000 ≤ (read^[n] c).value - c.read.value ∧
        (read^[n] c).value - c.read.value < us * 1000 + c.tick) := by
  constructor
  · intro h
    rw [wait, if_pos h]
  · intro h
    obtain ⟨m, hspin, hreach⟩ := spin_reaches (c.read.value + us * 1000) c.read
    have hcount := hreach.count (by omega)
    -- the reading that sets the deadline is before it as well
    have hfirst : c.read.value < c.read.value + us * 1000 := by omega
    have hall : Reaches (c.read.value + us * 1000) c (m + 1) := hreach.next hfirst
    refine ⟨m + 1, ?_, ?_, ?_, ?_, ?_⟩
    · rw [wait, if_neg (by omega)]
      dsimp only
      rw [hspin]
      rfl
    · push_cast at hcount ⊢
      rw [hcount, add_comm]
      rfl
    · intro k hk hkm
      have := hall.before k hk hkm
      omega
    · have := hall.atEnd
      omega
    · have hahead : c.value < c.read.value + us * 1000 := by
        have := c.tick_pos
        simp only [read]
        omega
      have := hall.value_lt hahead
      omega

/-- a counter of which four ticks make a microsecond -/
def quarters : Counter := ⟨0, 250, by decide⟩

/-- a wait of whole ticks ends with the reading on its deadline; no wait, no reading -/
theorem wait_readings_quarters : 0 < (1 : ℤ) ∧ quarters.wait 1 = (5, read^[5] quarters) ∧
    (read^[5] quarters).value - quarters.read.value = 1000 ∧ (0 : ℤ) ≤ 0 ∧ quarters.wait 0 = (0, quarters) := by
  obtain ⟨hnone, -⟩ := wait_readings quarters 0
  obtain ⟨-, hsome⟩ := wait_readings quarters 1
  obtain ⟨n, hwait, hcount, -⟩ := hsome (by decide)
  have hceil : ⌈((1 * 1000 : ℤ) : ℚ) / quarters.tick⌉ = 4 := by
    rw [Int.ceil_eq_iff]
    norm_num [quarters]
  obtain rfl : n = 5 := by omega
  exact ⟨by decide, hwait, by decide, le_rfl, hnone le_rfl⟩

end KeyHold.Counter
