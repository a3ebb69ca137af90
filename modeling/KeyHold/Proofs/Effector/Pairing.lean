/-
The durations that a recorder tells.

Pairing goes through a history once. What waits at any point are the presses of the keys that are held there, and what
was found are the durations of the holds that have ended (`foldlM_pair`). A duration is divided as a double, and a hold
may be too long for one.

- `Awaits.pair`, `foldlM_pair`: what one action does, and what any history leaves.
- `Lists times holds`: the durations of each key, and no key without one (`Lists.addHold`, `lists_grouped`).
- `holdDurations_ok`, `holdDurations_error`: **the durations told are those of the holds**, those below the bound left
  out; none are told if a hold lasts for more microseconds than a double can count.
- `InOrder.told`: **what is told of a history in order**.
-/
import Mathlib.Tactic
import KeyHold.Proofs.Decimal.Unsigned
import KeyHold.Proofs.Effector.Spans

namespace KeyHold

namespace Recorder

variable {history : List KeyAction} {a : KeyAction} {k : String}

/-! ## Pairing -/

/-- a hold with the time that it lasted -/
def Span.timed (s : Span) : Except Fault (String × Float) := s.duration.map (s.key, ·)

theorem Span.timed_eq {s : Span} {x : String × Float} (h : s.timed = .ok x) : x.1 = s.key ∧ s.duration = .ok x.2 := by
  unfold timed at h
  cases hd : s.duration with
  | error e =>
    rw [hd] at h
    cases h
  | ok ms =>
    rw [hd] at h
    obtain rfl := Except.ok.inj h
    exact ⟨rfl, rfl⟩

/-- durations, key by key -/
def grouped (timed : List (String × Float)) : Holds := timed.foldl (fun holds x => addHold x.1 x.2 holds) []

/-- the presses that wait are those of the keys that are held -/
def Awaits (pending : Pending) (history : List KeyAction) : Prop :=
  ∀ k, pending.find? (·.1 == k) = (heldSince k history).map (k, ·)

theorem find?_filter_ne {pending : Pending} (h : a.key ≠ k) :
    (pending.filter (·.1 != a.key)).find? (·.1 == k) = pending.find? (·.1 == k) := by
  rw [List.find?_filter]
  congr 1
  funext x
  by_cases hx : x.1 = k
  · simp [hx, Ne.symm h]
  · simp [hx]

/-- without its press a key does not wait -/
theorem find?_filter_self (pending : Pending) (key : String) :
    (pending.filter (·.1 != key)).find? (·.1 == key) = none := by
  rw [List.find?_filter, List.find?_eq_none]
  simp

theorem Awaits.down {pending : Pending} (h : Awaits pending history) (ha : a.direction = .down) :
    Awaits ((a.key, a.timeUs) :: pending.filter (·.1 != a.key)) (history ++ [a]) := by
  intro k
  rw [List.find?_cons]
  by_cases hk : a.key = k
  · subst hk
    rw [heldSince_snoc_self, begins, ha, beq_self_eq_true]
    rfl
  · rw [heldSince_snoc_of_ne hk, ← h k, beq_eq_false_iff_ne.2 hk]
    exact find?_filter_ne hk

theorem Awaits.up {pending : Pending} (h : Awaits pending history) (ha : a.direction = .up) :
    Awaits (pending.filter (·.1 != a.key)) (history ++ [a]) := by
  intro k
  by_cases hk : a.key = k
  · subst hk
    rw [heldSince_snoc_self, begins, ha]
    exact find?_filter_self _ _
  · rw [heldSince_snoc_of_ne hk, ← h k]
    exact find?_filter_ne hk

/-- a release of a key that is not held -/
theorem Awaits.unmatched {pending : Pending} (h : Awaits pending history) (ha : a.direction = .up)
    (hnone : heldSince a.key history = none) : Awaits pending (history ++ [a]) := by
  intro k
  by_cases hk : a.key = k
  · subst hk
    rw [heldSince_snoc_self, begins, ha, h, hnone]
  · rw [heldSince_snoc_of_ne hk]
    exact h k

theorem grouped_snoc (timed : List (String × Float)) (x : String × Float) :
    grouped (timed ++ [x]) = addHold x.1 x.2 (grouped timed) := by
  unfold grouped
  rw [List.foldl_append]
  rfl

theorem grouped_filter_snoc (minMs : Float) (timed : List (String × Float)) (x : String × Float) :
    grouped ((timed ++ [x]).filter (minMs ≤ ·.2)) = if x.2 ≥ minMs
      then addHold x.1 x.2 (grouped (timed.filter (minMs ≤ ·.2))) else grouped (timed.filter (minMs ≤ ·.2)) := by
  rw [List.filter_append]
  by_cases hx : minMs ≤ x.2
  · have hkeep : [x].filter (minMs ≤ ·.2) = [x] := by simp [hx]
    rw [hkeep, grouped_snoc, if_pos hx]
  · have hdrop : [x].filter (minMs ≤ ·.2) = [] := by simp [hx]
    rw [hdrop, List.append_nil, if_neg hx]

/-- **One action**: the presses that wait afterwards, and the duration of the hold that it ends. -/
theorem Awaits.pair {pending : Pending} (h : Awaits pending history) (minMs : Float) (a : KeyAction) :
    ∃ pending', Awaits pending' (history ++ [a]) ∧ ∀ holds, pair minMs (pending, holds) a =
      match ended history a with
      | none => .ok (pending', holds)
      | some s => s.duration.map fun x => (pending', if x ≥ minMs then addHold s.key x holds else holds) := by
  have hfind := h a.key
  unfold ended Recorder.pair
  cases hd : a.direction with
  | down => exact ⟨_, h.down hd, fun holds => rfl⟩
  | up =>
    cases hsince : heldSince a.key history with
    | none =>
      rw [hsince] at hfind
      refine ⟨pending, h.unmatched hd hsince, fun holds => ?_⟩
      simp only [hfind, Option.map_none]
    | some downUs =>
      rw [hsince] at hfind
      refine ⟨_, h.up hd, fun holds => ?_⟩
      simp only [hfind, Option.map_some, Span.duration]
      cases Recorder.duration downUs a.timeUs <;> rfl

/-- **What pairing leaves**: the presses that wait, and the durations of the holds that are not below the bound. -/
theorem foldlM_pair (minMs : Float) (history : List KeyAction) : ∃ pending, Awaits pending history ∧
    history.foldlM (pair minMs) ([], []) =
      ((spans history).mapM Span.timed).map fun timed => (pending, grouped (timed.filter (minMs ≤ ·.2))) := by
  induction history using List.reverseRecOn with
  | nil => exact ⟨[], fun _ => rfl, rfl⟩
  | append_singleton history a ih =>
    obtain ⟨pending, hwait, hfold⟩ := ih
    obtain ⟨pending', hwait', hpair⟩ := hwait.pair minMs a
    refine ⟨pending', hwait', ?_⟩
    rw [List.foldlM_append, hfold, spans_snoc, List.mapM_append]
    cases (spans history).mapM Span.timed with
    | error e => rfl
    | ok timed =>
      show [a].foldlM (pair minMs) (pending, grouped (timed.filter (minMs ≤ ·.2))) = _
      rw [List.foldlM_cons, hpair]
      cases ended history a with
      | none =>
        show _ = Except.ok (pending', grouped ((timed ++ []).filter _))
        rw [List.append_nil]
        rfl
      | some s =>
        show (s.duration.map _ >>= _) = ((s.timed >>= _) >>= _).map _
        unfold Span.timed
        cases s.duration with
        | error e => rfl
        | ok x =>
          show Except.ok (pending', _) = Except.ok (pending', grouped ((timed ++ [(s.key, x)]).filter _))
          rw [grouped_filter_snoc]

/-! ## Durations, key by key -/

/-- the durations of each key, and no key without one -/
structure Lists (times : String → List Float) (holds : Holds) : Prop where
  keys : (holds.map Prod.fst).Nodup
  mem : ∀ k xs, (k, xs) ∈ holds ↔ xs = times k ∧ xs ≠ []

variable {holds : Holds} {times : String → List Float} {key : String} {x : Float} {xs : List Float}

theorem mem_addHold_of_ne (h : k ≠ key) : (k, xs) ∈ addHold key x holds ↔ (k, xs) ∈ holds := by
  induction holds with
  | nil => simp [addHold, h]
  | cons hold holds ih =>
    obtain ⟨j, ys⟩ := hold
    unfold addHold
    by_cases hj : j = key
    · subst hj
      simp [h]
    · rw [if_neg hj, List.mem_cons, List.mem_cons, ih]

/-- the durations of the key are those that it had, if any, and the new one -/
theorem mem_addHold_self (hn : (holds.map Prod.fst).Nodup) : (key, xs) ∈ addHold key x holds ↔
    ∃ ys, xs = ys ++ [x] ∧ ((key, ys) ∈ holds ∨ ys = [] ∧ key ∉ holds.map Prod.fst) := by
  induction holds with
  | nil => simp [addHold]
  | cons hold holds ih =>
    obtain ⟨j, ys⟩ := hold
    rw [List.map_cons, List.nodup_cons] at hn
    obtain ⟨hj, hn⟩ := hn
    unfold addHold
    by_cases hkey : j = key
    · subst hkey
      have hnot : ∀ zs, (j, zs) ∉ holds := fun zs hz => hj (List.mem_map.2 ⟨_, hz, rfl⟩)
      simp [hnot]
    · have hne : ∀ zs, (key, zs) ≠ (j, ys) := fun zs h => hkey (congrArg Prod.fst h).symm
      simp [hkey, hne, ih hn, Ne.symm hkey]

theorem keys_addHold (key : String) (x : Float) (holds : Holds) : (addHold key x holds).map Prod.fst =
    if key ∈ holds.map Prod.fst then holds.map Prod.fst else holds.map Prod.fst ++ [key] := by
  induction holds with
  | nil => rfl
  | cons hold holds ih =>
    obtain ⟨j, ys⟩ := hold
    unfold addHold
    by_cases hkey : j = key
    · subst hkey
      simp
    · rw [if_neg hkey, List.map_cons, ih, List.map_cons]
      simp only [List.mem_cons, Ne.symm hkey, false_or]
      split_ifs <;> rfl

theorem Lists.not_mem_keys_iff (h : Lists times holds) : k ∉ holds.map Prod.fst ↔ times k = [] := by
  constructor
  · intro hk
    by_contra hne
    exact hk (List.mem_map.2 ⟨_, (h.mem k _).2 ⟨rfl, hne⟩, rfl⟩)
  · intro hnil hk
    obtain ⟨⟨j, xs⟩, hmem, rfl⟩ := List.mem_map.1 hk
    obtain ⟨rfl, hne⟩ := (h.mem j xs).1 hmem
    exact hne hnil

/-- **A duration is added** at the end of those of its key. -/
theorem Lists.addHold (h : Lists times holds) (key : String) (x : Float) :
    Lists (fun k => if k = key then times k ++ [x] else times k) (addHold key x holds) := by
  refine ⟨?_, fun k xs => ?_⟩
  · rw [keys_addHold]
    split_ifs with hkey
    · exact h.keys
    · exact h.keys.append (List.nodup_singleton key) (List.disjoint_singleton.2 hkey)
  · by_cases hk : k = key
    · subst hk
      rw [mem_addHold_self h.keys, if_pos rfl, h.not_mem_keys_iff]
      constructor
      · rintro ⟨ys, rfl, hys⟩
        refine ⟨?_, List.append_ne_nil_of_right_ne_nil _ (List.cons_ne_nil _ _)⟩
        rcases hys with hys | ⟨rfl, hnil⟩
        · rw [((h.mem k ys).1 hys).1]
        · rw [hnil]
      · rintro ⟨rfl, -⟩
        refine ⟨times k, rfl, ?_⟩
        by_cases hnil : times k = []
        · exact Or.inr ⟨hnil, hnil⟩
        · exact Or.inl ((h.mem k _).2 ⟨rfl, hnil⟩)
    · rw [mem_addHold_of_ne hk, if_neg hk, h.mem]

/-- the durations of a key among those of all keys -/
def timesOf (timed : List (String × Float)) (k : String) : List Float := (timed.filter (·.1 = k)).map (·.2)

theorem timesOf_snoc (timed : List (String × Float)) (x : String × Float) (k : String) :
    timesOf (timed ++ [x]) k = if k = x.1 then timesOf timed k ++ [x.2] else timesOf timed k := by
  unfold timesOf
  by_cases hk : k = x.1
  · subst hk
    simp
  · simp [hk, Ne.symm hk]

theorem lists_grouped (timed : List (String × Float)) : Lists (timesOf timed) (grouped timed) := by
  induction timed using List.reverseRecOn with
  | nil => exact ⟨List.nodup_nil, fun k xs => by simp [grouped, timesOf]⟩
  | append_singleton timed x ih =>
    rw [grouped_snoc, funext (timesOf_snoc timed x)]
    exact ih.addHold x.1 x.2

/-- the durations of a key are those of its holds -/
theorem mapM_duration {all : List Span} {timed : List (String × Float)} (h : all.mapM Span.timed = .ok timed)
    (k : String) : (all.filter (·.key = k)).mapM Span.duration = .ok (timesOf timed k) := by
  have hall := forall₂_of_mapM h
  clear h
  induction hall with
  | nil => rfl
  | @cons s x all timed hs _ ih =>
    obtain ⟨hkey, hduration⟩ := Span.timed_eq hs
    unfold timesOf at *
    by_cases hk : s.key = k
    · have hown : (s :: all).filter (·.key = k) = s :: all.filter (·.key = k) := by simp [hk]
      have htime : (x :: timed).filter (·.1 = k) = x :: timed.filter (·.1 = k) := by simp [hkey, hk]
      rw [hown, htime, List.mapM_cons, hduration, ih]
      rfl
    · have hother : (s :: all).filter (·.key = k) = all.filter (·.key = k) := by simp [hk]
      have htime : (x :: timed).filter (·.1 = k) = timed.filter (·.1 = k) := by simp [hkey, hk]
      rw [hother, htime, ih]

theorem timesOf_filter (minMs : Float) (timed : List (String × Float)) :
    timesOf (timed.filter (minMs ≤ ·.2)) = fun k => (timesOf timed k).filter (minMs ≤ ·) := by
  funext k
  unfold timesOf
  rw [List.filter_filter, List.filter_map, List.filter_filter]
  simp only [Function.comp_apply, Bool.and_comm]

theorem mem_of_mem_timesOf {timed : List (String × Float)} (h : x ∈ timesOf timed k) : (k, x) ∈ timed := by
  obtain ⟨⟨j, y⟩, hy, rfl⟩ := List.mem_map.1 h
  obtain ⟨hmem, hj⟩ := List.mem_filter.1 hy
  obtain rfl : j = k := of_decide_eq_true hj
  exact hmem

/-! ## Holds that can be told -/

/-- a hold lasts for more microseconds than a double can count -/
def Span.TooLong (s : Span) : Prop := Decimal.ofInt? (s.upUs - s.downUs) = none

theorem Span.duration_tooLong {s : Span} (h : s.TooLong) : s.duration = .error .beyondDoubles := by
  unfold TooLong at h
  unfold duration Recorder.duration toDouble
  rw [h]
  rfl

theorem Span.duration_ok {s : Span} (h : ¬ s.TooLong) :
    ∃ x, Decimal.ofInt? (s.upUs - s.downUs) = some x ∧ s.duration = .ok (x / 1000.0) := by
  obtain ⟨x, hx⟩ := Option.ne_none_iff_exists'.1 h
  refine ⟨x, hx, ?_⟩
  unfold duration Recorder.duration toDouble
  rw [hx]
  rfl

theorem mapM_timed_ok {all : List Span} (h : ∀ s ∈ all, ¬ s.TooLong) : ∃ timed, all.mapM Span.timed = .ok timed := by
  induction all with
  | nil => exact ⟨[], rfl⟩
  | cons s all ih =>
    obtain ⟨hs, hall⟩ := List.forall_mem_cons.1 h
    obtain ⟨timed, htimed⟩ := ih hall
    obtain ⟨x, -, hx⟩ := Span.duration_ok hs
    refine ⟨(s.key, x / 1000.0) :: timed, ?_⟩
    rw [List.mapM_cons, htimed, Span.timed, hx]
    rfl

theorem mapM_timed_error {all : List Span} (h : ∃ s ∈ all, s.TooLong) :
    all.mapM Span.timed = .error .beyondDoubles := by
  induction all with
  | nil =>
    obtain ⟨s, hs, -⟩ := h
    cases hs
  | cons s all ih =>
    rw [List.mapM_cons]
    by_cases hs : s.TooLong
    · rw [Span.timed, Span.duration_tooLong hs]
      rfl
    · obtain ⟨x, -, hx⟩ := Span.duration_ok hs
      obtain ⟨s', hmem, hs'⟩ := h
      have hrest : ∃ s ∈ all, s.TooLong := by
        rcases List.mem_cons.1 hmem with rfl | hmem
        · exact absurd hs' hs
        · exact ⟨s', hmem, hs'⟩
      rw [ih hrest, Span.timed, hx]
      rfl

/-- the number of holds of all keys -/
def Holds.total (holds : Holds) : ℕ := (holds.map (·.2.length)).sum

theorem total_addHold (key : String) (x : Float) (holds : Holds) :
    Holds.total (addHold key x holds) = Holds.total holds + 1 := by
  induction holds with
  | nil => rfl
  | cons hold holds ih =>
    obtain ⟨k, xs⟩ := hold
    unfold Holds.total at *
    unfold addHold
    split_ifs
    · simp only [List.map_cons, List.sum_cons, List.length_append, List.length_singleton]
      omega
    · simp only [List.map_cons, List.sum_cons, ih]
      omega

theorem total_grouped (timed : List (String × Float)) : (grouped timed).total = timed.length := by
  induction timed using List.reverseRecOn with
  | nil => rfl
  | append_singleton timed x ih => rw [grouped_snoc, total_addHold, ih, List.length_append, List.length_singleton]

/-- **No durations are told** if a hold is too long for a double, whatever the bound. -/
theorem holdDurations_error {r : Recorder} (h : ∃ s ∈ spans r.history.toList, s.TooLong) (minMs : Float) :
    r.holdDurations minMs = .error .beyondDoubles := by
  obtain ⟨pending, -, hfold⟩ := foldlM_pair minMs r.history.toList
  rw [holdDurations, hfold, mapM_timed_error h]
  rfl

/-- **The durations told** are those of the holds that are not below the bound, key by key and in their order, and no
key is told of that has none of them. -/
theorem holdDurations_ok {r : Recorder} {timed : List (String × Float)}
    (h : (spans r.history.toList).mapM Span.timed = .ok timed) (minMs : Float) :
    ∃ holds, r.holdDurations minMs = .ok holds ∧ Lists (timesOf (timed.filter (minMs ≤ ·.2))) holds ∧
      holds.total = (timed.filter (minMs ≤ ·.2)).length := by
  obtain ⟨pending, -, hfold⟩ := foldlM_pair minMs r.history.toList
  refine ⟨grouped (timed.filter (minMs ≤ ·.2)), ?_, lists_grouped _, total_grouped _⟩
  rw [holdDurations, hfold, h]
  rfl

/-! ## Histories in order -/

section InOrder

variable {r : Recorder} {timed : List (String × Float)}

/-- a duration is a thousandth of the double of a number that is not negative -/
theorem InOrder.timed_bounds (h : InOrder history) (htimed : (spans history).mapM Span.timed = .ok timed) :
    ∀ y ∈ timed, 0.0 ≤ y.2 ∧ Decimal.Finite y.2 := by
  intro y hy
  obtain ⟨s, hs, hsy⟩ := exists_of_mapM htimed hy
  have hduration := (Span.timed_eq hsy).2
  by_cases hlong : s.TooLong
  · rw [Span.duration_tooLong hlong] at hduration
    cases hduration
  · obtain ⟨x, hx, hthousandth⟩ := Span.duration_ok hlong
    rw [hthousandth] at hduration
    rw [← Except.ok.inj hduration]
    have hle := h.span_le hs
    exact ⟨Decimal.zero_le_thousandth (by omega) hx, Decimal.finite_div_thousand (Decimal.finite_ofInt? hx)⟩

/-- **No duration is below zero**, so with this bound all of them are told. -/
theorem InOrder.holdDurations_zero (h : InOrder r.history.toList)
    (htimed : (spans r.history.toList).mapM Span.timed = .ok timed) :
    ∃ holds, r.holdDurations 0.0 = .ok holds ∧ Lists (timesOf timed) holds ∧ holds.total = timed.length := by
  have hall : timed.filter (0.0 ≤ ·.2) = timed :=
    List.filter_eq_self.2 fun y hy => decide_eq_true (h.timed_bounds htimed y hy).1
  obtain ⟨holds, hholds, hlists, htotal⟩ := holdDurations_ok htimed 0.0
  rw [hall] at hlists htotal
  exact ⟨holds, hholds, hlists, htotal⟩

/-- what is told of the holds of a history -/
structure Told (r : Recorder) : Prop where
  /-- other keys do not matter -/
  own : ∀ k, spansOf k r.history.toList = spans (r.history.toList.filter (·.key = k))
  untold : (∃ s ∈ spans r.history.toList, s.TooLong) → ∀ minMs, r.holdDurations minMs = .error .beyondDoubles
  told : (∀ s ∈ spans r.history.toList, ¬ s.TooLong) → ∃ times : String → List Float,
    (∀ k, (spansOf k r.history.toList).mapM Span.duration = .ok (times k)) ∧
    (∃ holds, r.holdDurations 0.0 = .ok holds ∧ Lists times holds) ∧
    ∀ minMs, ∃ holds, r.holdDurations minMs = .ok holds ∧ Lists (fun k => (times k).filter (minMs ≤ ·)) holds ∧
      (minMs.isNaN = false → Lists (fun k => (times k).filter (¬ · < minMs)) holds)

/-- **What is told of a history in order.** -/
theorem InOrder.told (h : InOrder r.history.toList) : Told r := by
  refine ⟨fun k => (spans_filter k _).symm, holdDurations_error, fun hcount => ?_⟩
  obtain ⟨timed, htimed⟩ := mapM_timed_ok hcount
  obtain ⟨all, hall, hlists, -⟩ := h.holdDurations_zero htimed
  refine ⟨timesOf timed, mapM_duration htimed, ⟨all, hall, hlists⟩, fun minMs => ?_⟩
  obtain ⟨holds, hholds, hlists, -⟩ := holdDurations_ok htimed minMs
  rw [timesOf_filter] at hlists
  refine ⟨holds, hholds, hlists, fun hnan => ?_⟩
  have hkept : (fun k => (timesOf timed k).filter (¬ · < minMs)) = fun k => (timesOf timed k).filter (minMs ≤ ·) := by
    funext k
    refine List.filter_congr fun x hx => decide_eq_decide.2 (Decimal.not_lt_iff_le ?_ hnan)
    exact (h.timed_bounds htimed _ (mem_of_mem_timesOf hx)).2
  rw [hkept]
  exact hlists

end InOrder

end Recorder
end KeyHold
