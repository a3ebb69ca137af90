/-
What a recorder shows is a replay of its history.

A recorder keeps two summaries beside its history, the keys that are down and the most that ever were down at once, and
brings them up to date with each call. Read off the history alone (`pressed`), a key is down after the actions of which
its last one is a press; presses of a key that is down and releases of one that is not make no difference to that.

- `pressed_down`, `pressed_up`: one action more.
- `Replays`: the summaries are those of the history. `Replays.act`: **each call** keeps this.
- `run_replays`: **after any calls.**
-/
import Mathlib.Data.List.DropRight
import Mathlib.Data.List.ReduceOption
import Mathlib.Tactic
import KeyHold.Proofs.Effector.Spans

namespace KeyHold.Recorder

/-! ## Histories -/

/-- the keys that are down after a history: those whose last action is a press -/
def pressed (history : List KeyAction) : Finset String :=
  {k ∈ (history.map KeyAction.key).toFinset | (heldSince k history).isSome}

/-- the numbers of keys that are down after the beginnings of a history -/
def downCounts (history : List KeyAction) : Set ℕ := {n | ∃ past, past <+: history ∧ n = (pressed past).card}

variable {history : List KeyAction} {r : Recorder} {t : ℤ} {k : String}

theorem mem_pressed : k ∈ pressed history ↔ (heldSince k history).isSome := by
  unfold pressed
  rw [Finset.mem_filter, List.mem_toFinset, and_iff_right_iff_imp]
  intro h
  obtain ⟨t, ht⟩ := Option.isSome_iff_exists.1 h
  obtain ⟨pre, mid, rfl, -⟩ := heldSince_eq_some_iff.1 ht
  simp

theorem pressed_down : pressed (history ++ [⟨t, .down, k⟩]) = insert k (pressed history) := by
  ext l
  rw [Finset.mem_insert, mem_pressed, mem_pressed]
  by_cases hl : k = l
  · subst hl
    rw [heldSince_snoc_self history ⟨t, .down, k⟩]
    simp [begins]
  · rw [heldSince_snoc_of_ne hl]
    simp [Ne.symm hl]

theorem pressed_up : pressed (history ++ [⟨t, .up, k⟩]) = (pressed history).erase k := by
  ext l
  rw [Finset.mem_erase, mem_pressed, mem_pressed]
  by_cases hl : k = l
  · subst hl
    rw [heldSince_snoc_self history ⟨t, .up, k⟩]
    simp [begins]
  · rw [heldSince_snoc_of_ne hl]
    simp [Ne.symm hl]

@[simp] theorem downCounts_nil : downCounts [] = {0} := by
  ext n
  simp only [downCounts, Set.mem_ofPred_eq, List.prefix_nil, exists_eq_left, Set.mem_singleton_iff]
  rfl

theorem downCounts_snoc (history : List KeyAction) (a : KeyAction) :
    downCounts (history ++ [a]) = insert (pressed (history ++ [a])).card (downCounts history) := by
  ext n
  simp only [downCounts, Set.mem_ofPred_eq, Set.mem_insert_iff, List.prefix_concat_iff, or_and_right, exists_or,
    exists_eq_left]

/-! ## Recorders -/

/-- the keys that are down are those of the history, each once, and the most that ever were down is the greatest number
of them after any beginning of it -/
structure Replays (r : Recorder) : Prop where
  nodup : r.asserted.Nodup
  asserted : r.asserted.toFinset = pressed r.history.toList
  most : IsGreatest (downCounts r.history.toList) r.maxSimultaneous

theorem replays_empty : Replays {} where
  nodup := List.nodup_nil
  asserted := rfl
  most := by
    show IsGreatest (downCounts []) 0
    rw [downCounts_nil]
    exact isGreatest_singleton

theorem Replays.keyDown (h : Replays r) (t : ℤ) (k : String) : Replays (r.keyDown t k) := by
  have hhistory : (r.keyDown t k).history.toList = r.history.toList ++ [⟨t, .down, k⟩] := Array.toList_push
  have hnodup : (r.keyDown t k).asserted.Nodup := by
    show (if r.asserted.contains k then _ else _ : List String).Nodup
    split_ifs with hk
    · exact h.nodup
    · have hk : k ∉ r.asserted := by simpa using hk
      exact h.nodup.append (List.nodup_singleton k) (List.disjoint_singleton.2 hk)
  have hasserted : (r.keyDown t k).asserted.toFinset = pressed (r.keyDown t k).history.toList := by
    rw [hhistory, pressed_down, ← h.asserted]
    show (if r.asserted.contains k then _ else _ : List String).toFinset = _
    split_ifs with hk
    · have hk : k ∈ r.asserted := by simpa using hk
      rw [Finset.insert_eq_self.2 (List.mem_toFinset.2 hk)]
    · rw [List.toFinset_append]
      ext l
      simp
  refine ⟨hnodup, hasserted, ?_⟩
  have hcard : (r.keyDown t k).asserted.length = (pressed (r.keyDown t k).history.toList).card := by
    rw [← hasserted, List.toFinset_card_of_nodup hnodup]
  rw [show (r.keyDown t k).maxSimultaneous = max r.maxSimultaneous (r.keyDown t k).asserted.length from rfl, hcard,
    hhistory, downCounts_snoc, max_comm]
  exact h.most.insert _

theorem Replays.keyUp (h : Replays r) (t : ℤ) (k : String) : Replays (r.keyUp t k) := by
  have hhistory : (r.keyUp t k).history.toList = r.history.toList ++ [⟨t, .up, k⟩] := Array.toList_push
  refine ⟨h.nodup.erase k, ?_, ?_⟩
  · rw [hhistory, pressed_up, ← h.asserted]
    ext l
    simp [Recorder.keyUp, h.nodup.mem_erase_iff]
  · -- a release takes no key down, so the greatest number stays what it is
    have hle : (pressed (r.history.toList ++ [⟨t, .up, k⟩])).card ≤ r.maxSimultaneous := by
      rw [pressed_up]
      exact Finset.card_erase_le.trans (h.most.2 ⟨_, List.prefix_refl _, rfl⟩)
    have hmost := h.most.insert (pressed (r.history.toList ++ [⟨t, .up, k⟩])).card
    rwa [← downCounts_snoc, max_eq_right hle, ← hhistory] at hmost

/-! ## Calls -/

/-- a call of a recorder, at the time that its clock shows -/
inductive Call where
  | down (timeUs : ℤ) (key : String)
  | up (timeUs : ℤ) (key : String)
  | clear

def Call.act : Call → Recorder → Recorder
  | down t k => Recorder.keyDown t k
  | up t k => Recorder.keyUp t k
  | clear => Recorder.clear

/-- what a call adds to the history -/
def Call.action? : Call → Option KeyAction
  | down t k => some ⟨t, .down, k⟩
  | up t k => some ⟨t, .up, k⟩
  | clear => none

def run (calls : List Call) : Recorder := calls.foldl (fun r c => c.act r) {}

/-- the actions of the calls since the recorder was last cleared -/
def sinceClear (calls : List Call) : List KeyAction :=
  ((calls.map Call.action?).rtakeWhile Option.isSome).reduceOption

theorem run_snoc (calls : List Call) (c : Call) : run (calls ++ [c]) = c.act (run calls) := by
  simp [run, List.foldl_append]

theorem Replays.act (h : Replays r) (c : Call) : Replays (c.act r) := by
  cases c with
  | down t k => exact h.keyDown t k
  | up t k => exact h.keyUp t k
  | clear => exact replays_empty

theorem run_replayed (calls : List Call) : Replays (run calls) := by
  induction calls using List.reverseRecOn with
  | nil => exact replays_empty
  | append_singleton calls c ih =>
    rw [run_snoc]
    exact ih.act c

/-- the history is that of the calls since the recorder was last cleared -/
theorem run_history (calls : List Call) : (run calls).history.toList = sinceClear calls := by
  induction calls using List.reverseRecOn with
  | nil => rfl
  | append_singleton calls c ih =>
    rw [run_snoc]
    unfold sinceClear at ih ⊢
    rw [List.map_append, List.map_singleton]
    cases c with
    | down t k =>
      rw [List.rtakeWhile_concat_pos _ _ _ rfl, List.reduceOption_append, ← ih]
      exact Array.toList_push
    | up t k =>
      rw [List.rtakeWhile_concat_pos _ _ _ rfl, List.reduceOption_append, ← ih]
      exact Array.toList_push
    | clear =>
      rw [List.rtakeWhile_concat_neg _ _ _ (by simp [Call.action?])]
      rfl

/-- **What a recorder shows is a replay of its history.** After any calls the history is that of the calls since the
recorder was last cleared. The keys that are down are those whose last action in it is a press, each once. The most that
ever were down at once is the greatest number of keys that are down after any beginning of it, and nothing if there is
no history. -/
theorem run_replays (calls : List Call) :
    (run calls).history.toList = sinceClear calls ∧
      (run calls).asserted.Nodup ∧ (run calls).asserted.toFinset = pressed (run calls).history.toList ∧
      IsGreatest (downCounts (run calls).history.toList) (run calls).maxSimultaneous ∧
      ((run calls).history = #[] → (run calls).maxSimultaneous = 0) := by
  have h := run_replayed calls
  refine ⟨run_history calls, h.nodup, h.asserted, h.most, ?_⟩
  intro hnone
  have hmost := h.most
  rw [hnone, downCounts_nil] at hmost
  exact hmost.1

/-- a key pressed twice, one released that is not down, and one released before another is pressed -/
def unruly : List Call := [.down 0 "a", .down 3 "b", .down 4 "a", .up 5 "c", .up 6 "a", .down 7 "c"]

/-- two keys are down at most, and none once the recorder is cleared -/
theorem run_replays_unruly : (run unruly).asserted = ["b", "c"] ∧
    pressed (run unruly).history.toList = ["b", "c"].toFinset ∧
    IsGreatest (downCounts (run unruly).history.toList) 2 ∧
    (run (unruly ++ [.clear])).history = #[] ∧ (run (unruly ++ [.clear])).maxSimultaneous = 0 := by
  obtain ⟨-, -, hpressed, hmost, -⟩ := run_replays unruly
  obtain ⟨-, -, -, -, hnone⟩ := run_replays (unruly ++ [.clear])
  exact ⟨by decide, hpressed.symm, hmost, rfl, hnone rfl⟩

end KeyHold.Recorder
