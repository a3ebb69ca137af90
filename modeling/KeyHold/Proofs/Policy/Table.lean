/-
The table of a policy, whatever keys come twice in it.

One loop over the table collects its keys, another finds the phase of a key, and a third way through it goes around
its cycle. They agree: a key is listed where its first phase comes, that phase is the one found for it, and the cycle
comes to every phase once in each round, from any index, also one below zero or beyond the end.

- `distinct_ordered`: the keys stand in the order of their first phases.
- `steps_eq`, `steps_visit`: around the cycle by steps.
- `table_coherent`: **keys, first phases and the cycle of a table.**
-/
import KeyHold.Proofs.Policy

namespace KeyHold.Policy

/-! ## Keys -/

theorem distinct_snoc (items : List String) (x : String) :
    distinct (items ++ [x]) = if x ∈ distinct items then distinct items else distinct items ++ [x] := by
  unfold distinct
  simp [List.foldl_append]

theorem mem_distinct (items : List String) (k : String) : k ∈ distinct items ↔ k ∈ items := by
  unfold distinct
  rw [mem_foldl_distinct]
  simp

theorem distinct_nodup (items : List String) : (distinct items).Nodup := by
  induction items using List.reverseRecOn with
  | nil => exact List.nodup_nil
  | append_singleton items x ih =>
    rw [distinct_snoc]
    split_ifs with hx
    · exact ih
    · rw [List.nodup_append]
      refine ⟨ih, List.nodup_singleton x, ?_⟩
      intro y hy z hz hyz
      obtain rfl := List.mem_singleton.1 hz
      exact hx (hyz ▸ hy)

/-- **Distinct items** stand in the order in which they first came. -/
theorem distinct_ordered (items : List String) :
    (distinct items).Pairwise fun a b => items.idxOf a < items.idxOf b := by
  induction items using List.reverseRecOn with
  | nil => exact List.Pairwise.nil
  | append_singleton items x ih =>
    -- one item more at the end moves no item that was there
    have hkept : (distinct items).Pairwise fun a b => (items ++ [x]).idxOf a < (items ++ [x]).idxOf b := by
      refine ih.imp_of_mem ?_
      intro a b ha hb hab
      rwa [List.idxOf_append_of_mem ((mem_distinct items a).1 ha),
        List.idxOf_append_of_mem ((mem_distinct items b).1 hb)]
    rw [distinct_snoc]
    split_ifs with hx
    · exact hkept
    · have hnew : x ∉ items := fun h => hx ((mem_distinct items x).2 h)
      refine List.pairwise_append.2 ⟨hkept, List.pairwise_singleton _ x, ?_⟩
      intro a ha b hb
      obtain rfl := List.mem_singleton.1 hb
      have ha := (mem_distinct items a).1 ha
      rw [List.idxOf_append_of_mem ha, List.idxOf_append_of_notMem hnew]
      have := List.idxOf_lt_length_of_mem ha
      omega

/-- the first phase that holds a key, in the list of all keys -/
theorem FirstOf.eq_idxOf {p : Policy} {k : String} {i : ℕ} (h : p.FirstOf k i) :
    i = (p.phases.map Phase.key).idxOf k := by
  obtain ⟨ph, hi, hk⟩ := h.holds
  obtain ⟨hlt, rfl⟩ := List.getElem?_eq_some_iff.1 hi
  symm
  rw [List.idxOf, List.findIdx_map, List.findIdx_eq hlt]
  refine ⟨by simpa using hk, ?_⟩
  intro j hj
  simpa using h.first j hj _ (List.getElem?_eq_getElem (hj.trans hlt))

theorem keys_ordered (p : Policy) : p.keys.Pairwise fun a b => p.phaseForKey a < p.phaseForKey b := by
  refine (distinct_ordered (p.phases.map Phase.key)).imp_of_mem ?_
  intro a b ha hb hab
  rwa [(p.phaseForKey_firstOf ha).eq_idxOf, (p.phaseForKey_firstOf hb).eq_idxOf]

/-! ## Steps around the cycle -/

/-- the index that so many steps lead to -/
def steps (p : Policy) (j : ℕ) (i : ℤ) : ℤ := (fun i => (p.phaseAfter i : ℤ))^[j] i

theorem phaseAfter_eq (p : Policy) (i : ℤ) : (p.phaseAfter i : ℤ) = (i + 1) % p.length := by
  have hpos : (p.length : ℤ) ≠ 0 := by
    have := p.length_pos
    omega
  unfold phaseAfter reduce
  exact Int.toNat_of_nonneg (Int.emod_nonneg _ hpos)

theorem steps_succ (p : Policy) (j : ℕ) (i : ℤ) : p.steps (j + 1) i = p.phaseAfter (p.steps j i) :=
  Function.iterate_succ_apply' _ j i

/-- **One step or more** lead to their number added to the index, around the cycle. -/
theorem steps_eq (p : Policy) (i : ℤ) {j : ℕ} (hj : 1 ≤ j) : p.steps j i = (i + j) % p.length := by
  induction j, hj using Nat.le_induction with
  | base => exact phaseAfter_eq p i
  | succ j _ ih =>
    rw [steps_succ, phaseAfter_eq, ih, Int.emod_add_emod]
    push_cast
    rw [add_assoc]

/-- **Each round comes to every phase once**, wherever the steps begin. -/
theorem steps_visit (p : Policy) (i : ℤ) (m : ℕ) {x : ℕ} (hx : x < p.length) :
    ∃! j, j < p.length ∧ p.steps (m + j + 1) i = x := by
  have hpos : (0 : ℤ) < p.length := by
    have := p.length_pos
    omega
  have hsteps : ∀ j : ℕ, p.steps (m + j + 1) i = (i + m + 1 + j) % p.length := by
    intro j
    rw [steps_eq p i (by omega)]
    congr 1
    push_cast
    ring
  -- the number of steps from the first of them to the phase
  let far : ℤ := (x - (i + m + 1)) % p.length
  have hfar : 0 ≤ far := Int.emod_nonneg _ hpos.ne'
  have hlt : far < p.length := Int.emod_lt_of_pos _ hpos
  refine ⟨far.toNat, ⟨by omega, ?_⟩, ?_⟩
  · rw [hsteps, Int.toNat_of_nonneg hfar, Int.add_emod_emod]
    rw [show i + m + 1 + (x - (i + m + 1)) = (x : ℤ) by ring]
    exact Int.emod_eq_of_lt (by omega) (by omega)
  · rintro j ⟨hj, hjx⟩
    have hj' : (j : ℤ) = far := by
      calc (j : ℤ) = j % p.length := (Int.emod_eq_of_lt (by omega) (by omega)).symm
        _ = (i + m + 1 + j - (i + m + 1)) % p.length := by congr 1; ring
        _ = ((i + m + 1 + j) % p.length - (i + m + 1)) % p.length := (Int.emod_sub_emod _ _ _).symm
        _ = far := by rw [← hsteps, hjx]
    omega

/-! ## Tables -/

/-- **A table is coherent.** The keys of a policy are those of its phases, each once, in the order of their first
phases. The phase found for a key is the first that holds it. From any index, one step or more lead to their number
added to the index, modulo the length of the table; so among as many steps in a row as there are phases, each phase is
come to once. -/
theorem table_coherent (p : Policy) :
    p.keys.Nodup ∧ (∀ k, k ∈ p.keys ↔ ∃ ph ∈ p.phases, ph.key = k) ∧
      (p.keys.Pairwise fun a b => p.phaseForKey a < p.phaseForKey b) ∧
      (∀ k ∈ p.keys, p.FirstOf k (p.phaseForKey k) ∧ (p.phase (p.phaseForKey k)).key = k) ∧
      (∀ (i : ℤ) (j : ℕ), 1 ≤ j → p.steps j i = (i + j) % p.length) ∧
      ∀ (i : ℤ) (m x : ℕ), x < p.length → ∃! j, j < p.length ∧ p.steps (m + j + 1) i = x := by
  refine ⟨distinct_nodup _, p.mem_keys, p.keys_ordered, ?_, ?_, ?_⟩
  · intro k hk
    exact ⟨p.phaseForKey_firstOf hk, p.key_phaseForKey k hk⟩
  · intro i j hj
    exact p.steps_eq i hj
  · intro i m x hx
    exact p.steps_visit i m hx

/-- five phases on three keys -/
def winding : Policy where
  name := .str "winding"
  phases := [⟨"b", 60, 0⟩, ⟨"a", 70, 0⟩, ⟨"b", 80, 0⟩, ⟨"c", 90, 0⟩, ⟨"a", 60, 0⟩]

/-- the key that comes last, steps from below zero into the second round, and a round that begins in the middle -/
theorem table_coherent_winding : winding.keys = ["b", "a", "c"] ∧ winding.phaseForKey "c" = 3 ∧
    winding.FirstOf "c" (winding.phaseForKey "c") ∧ winding.steps 12 (-4) = (-4 + 12) % 5 ∧
    ∃! j, j < 5 ∧ winding.steps (2 + j + 1) 9 = 0 := by
  obtain ⟨-, -, -, hfirst, hsteps, hvisit⟩ := table_coherent winding
  obtain ⟨hc, -⟩ := hfirst "c" (by decide)
  exact ⟨by decide, by decide, hc, hsteps (-4) 12 (by decide), hvisit 9 2 0 (by decide)⟩

end KeyHold.Policy
