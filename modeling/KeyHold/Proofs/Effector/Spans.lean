/-
The holds of a history.

A release of a key ends a hold if the key's last action before it is a press, and the hold began with that press. So of
several presses in a row the latest counts, a release after a release ends nothing, and what other keys do does not
matter. Which holds a history has is said here of its actions alone (`spans`).

- `mem_spans_iff`: **where a hold stands**: from a press of its key to the next action with the key, a release.
- `spans_filter`: **the holds of a key** are those of its own actions.
- `spans_snoc`, `spans_append`: one action more, and a history after one in which all keys were let go.
- `InOrder.span_le`: in a history in order no hold ends before it began.
-/
import Mathlib.Tactic
import KeyHold.Effector.Recorder
import KeyHold.Proofs.Sequence

namespace KeyHold

namespace Recorder

/-! ## Holds -/

/-- a hold: its key, and the times of the press and the release -/
structure Span where
  key : String
  downUs : ℤ
  upUs : ℤ
deriving DecidableEq, Repr

/-- how long a hold lasted, in milliseconds -/
def Span.duration (s : Span) : Except Fault Float := Recorder.duration s.downUs s.upUs

/-- an action begins a hold at its time, if it is a press -/
def begins (a : KeyAction) : Option ℤ :=
  match a.direction with
  | .down => some a.timeUs
  | .up => none

/-- since when a key is held: its last action is a press -/
def heldSince (k : String) (before : List KeyAction) : Option ℤ :=
  (before.filter (·.key = k)).getLast?.bind begins

/-- the hold that an action ends -/
def ended (before : List KeyAction) (a : KeyAction) : Option Span :=
  match a.direction with
  | .down => none
  | .up => (heldSince a.key before).map fun downUs => ⟨a.key, downUs, a.timeUs⟩

/-- the holds of a history, in the order of their ends -/
def spans (history : List KeyAction) : List Span :=
  history.zipIdx.filterMap fun (a, i) => ended (history.take i) a

/-- those of one key -/
def spansOf (k : String) (history : List KeyAction) : List Span := (spans history).filter (·.key = k)

variable {history before : List KeyAction} {a : KeyAction} {k : String} {t : ℤ}

@[simp] theorem heldSince_nil (k : String) : heldSince k [] = none := rfl

theorem heldSince_snoc_self (before : List KeyAction) (a : KeyAction) : heldSince a.key (before ++ [a]) = begins a := by
  unfold heldSince
  rw [List.filter_append]
  simp

theorem heldSince_snoc_of_ne (h : a.key ≠ k) : heldSince k (before ++ [a]) = heldSince k before := by
  unfold heldSince
  rw [List.filter_append]
  simp [h]

/-- a key is held since the latest press of it, if nothing was done with it since -/
theorem heldSince_eq_some_iff : heldSince k before = some t ↔
    ∃ pre mid, before = pre ++ ⟨t, .down, k⟩ :: mid ∧ ∀ a ∈ mid, a.key ≠ k := by
  constructor
  · intro h
    induction before using List.reverseRecOn with
    | nil => cases h
    | append_singleton before a ih =>
      by_cases hk : a.key = k
      · subst hk
        rw [heldSince_snoc_self] at h
        obtain ⟨timeUs, direction, key⟩ := a
        cases direction with
        | down =>
          obtain rfl := Option.some.inj h
          exact ⟨before, [], rfl, List.forall_mem_nil _⟩
        | up => cases h
      · rw [heldSince_snoc_of_ne hk] at h
        obtain ⟨pre, mid, rfl, hmid⟩ := ih h
        refine ⟨pre, mid ++ [a], by simp, ?_⟩
        exact List.forall_mem_append.2 ⟨hmid, List.forall_mem_singleton.2 hk⟩
  · rintro ⟨pre, mid, rfl, hmid⟩
    unfold heldSince
    have hnone : mid.filter (·.key = k) = [] := List.filter_eq_nil_iff.2 fun a ha => by simpa using hmid a ha
    simp [List.filter_append, hnone, begins]

theorem heldSince_filter (k : String) (before : List KeyAction) :
    heldSince k (before.filter (·.key = k)) = heldSince k before := by
  unfold heldSince
  rw [List.filter_filter]
  simp

@[simp] theorem spans_nil : spans [] = [] := rfl

theorem spans_snoc (history : List KeyAction) (a : KeyAction) :
    spans (history ++ [a]) = spans history ++ (ended history a).toList :=
  filterMap_zipIdx_snoc ended history a

theorem key_of_ended {s : Span} (h : ended before a = some s) : s.key = a.key := by
  unfold ended at h
  split at h
  · cases h
  · obtain ⟨downUs, -, rfl⟩ := Option.map_eq_some_iff.1 h
    rfl

/-- **The holds of a key** are those of its own actions. -/
theorem spans_filter (k : String) (history : List KeyAction) :
    spans (history.filter (·.key = k)) = spansOf k history := by
  induction history using List.reverseRecOn with
  | nil => rfl
  | append_singleton history a ih =>
    unfold spansOf at *
    rw [spans_snoc, List.filter_append, List.filter_append, ← ih]
    by_cases hk : a.key = k
    · have hended : ended (history.filter (·.key = k)) a = ended history a := by
        unfold ended
        rw [hk, heldSince_filter]
      have hkeep : (ended history a).toList.filter (·.key = k) = (ended history a).toList := by
        refine List.filter_eq_self.2 fun s hs => ?_
        rw [key_of_ended (Option.mem_toList.1 hs), hk, decide_eq_true rfl]
      have hown : [a].filter (·.key = k) = [a] := by simp [hk]
      rw [hown, spans_snoc, hended, hkeep]
    · have hdrop : (ended history a).toList.filter (·.key = k) = [] := by
        refine List.filter_eq_nil_iff.2 fun s hs => ?_
        rw [key_of_ended (Option.mem_toList.1 hs), decide_eq_true_iff]
        exact hk
      have hother : [a].filter (·.key = k) = [] := by simp [hk]
      rw [hother, hdrop, List.append_nil, List.append_nil]

theorem mem_spans {s : Span} :
    s ∈ spans history ↔ ∃ before a after, history = before ++ a :: after ∧ ended before a = some s := by
  constructor
  · intro h
    induction history using List.reverseRecOn with
    | nil => cases h
    | append_singleton history a ih =>
      rw [spans_snoc, List.mem_append, Option.mem_toList] at h
      rcases h with h | h
      · obtain ⟨before, b, after, rfl, hb⟩ := ih h
        exact ⟨before, b, after ++ [a], by simp, hb⟩
      · exact ⟨history, a, [], rfl, h⟩
  · rintro ⟨before, a, after, rfl, h⟩
    induction after using List.reverseRecOn with
    | nil =>
      rw [spans_snoc]
      exact List.mem_append_right _ (Option.mem_toList.2 h)
    | append_singleton after b ih =>
      rw [← List.cons_append, ← List.append_assoc, spans_snoc]
      exact List.mem_append_left _ ih

/-- **Where a hold stands**: from a press of its key to the next action with the key, which is a release. -/
theorem mem_spans_iff {s : Span} : s ∈ spans history ↔ ∃ pre mid post,
    history = pre ++ ⟨s.downUs, .down, s.key⟩ :: mid ++ ⟨s.upUs, .up, s.key⟩ :: post ∧ ∀ a ∈ mid, a.key ≠ s.key := by
  rw [mem_spans]
  constructor
  · rintro ⟨before, ⟨timeUs, direction, key⟩, post, rfl, h⟩
    cases direction with
    | down => cases h
    | up =>
      obtain ⟨downUs, hsince, rfl⟩ := Option.map_eq_some_iff.1 h
      obtain ⟨pre, mid, rfl, hmid⟩ := heldSince_eq_some_iff.1 hsince
      exact ⟨pre, mid, post, rfl, hmid⟩
  · rintro ⟨pre, mid, post, rfl, hmid⟩
    have hsince : heldSince s.key (pre ++ ⟨s.downUs, .down, s.key⟩ :: mid) = some s.downUs :=
      heldSince_eq_some_iff.2 ⟨pre, mid, rfl, hmid⟩
    exact ⟨_, ⟨s.upUs, .up, s.key⟩, post, rfl, Option.map_eq_some_iff.2 ⟨_, hsince, rfl⟩⟩

theorem heldSince_append (h : heldSince k before = none) (rest : List KeyAction) :
    heldSince k (before ++ rest) = heldSince k rest := by
  induction rest using List.reverseRecOn with
  | nil => rw [List.append_nil, h, heldSince_nil]
  | append_singleton rest a ih =>
    rw [← List.append_assoc]
    by_cases hk : a.key = k
    · subst hk
      rw [heldSince_snoc_self, heldSince_snoc_self]
    · rw [heldSince_snoc_of_ne hk, heldSince_snoc_of_ne hk, ih]

/-- after a history in which no key is left held, another one has its own holds -/
theorem spans_append (h : ∀ k, heldSince k before = none) (rest : List KeyAction) :
    spans (before ++ rest) = spans before ++ spans rest := by
  induction rest using List.reverseRecOn with
  | nil => rw [List.append_nil, spans_nil, List.append_nil]
  | append_singleton rest a ih =>
    have hended : ended (before ++ rest) a = ended rest a := by
      unfold ended
      rw [heldSince_append (h a.key)]
    rw [← List.append_assoc, spans_snoc, ih, hended, spans_snoc, List.append_assoc]

/-- a press ends nothing -/
theorem spans_press (history : List KeyAction) (downUs : ℤ) (key : String) :
    spans (history ++ [⟨downUs, .down, key⟩]) = spans history := by
  rw [spans_snoc]
  exact List.append_nil _

/-- a release right after a press ends the hold that began with it -/
theorem spans_release (history : List KeyAction) (downUs upUs : ℤ) (key : String) :
    spans (history ++ [⟨downUs, .down, key⟩] ++ [⟨upUs, .up, key⟩]) = spans history ++ [⟨key, downUs, upUs⟩] := by
  have hsince : heldSince key (history ++ [⟨downUs, .down, key⟩]) = some downUs :=
    heldSince_snoc_self history ⟨downUs, .down, key⟩
  rw [spans_snoc, spans_press, ended]
  dsimp only
  rw [hsince]
  rfl

/-- a press and its release before other actions -/
theorem spans_hold (downUs upUs : ℤ) (key : String) (rest : List KeyAction) :
    spans (⟨downUs, .down, key⟩ :: ⟨upUs, .up, key⟩ :: rest) = ⟨key, downUs, upUs⟩ :: spans rest := by
  have hnone : ∀ k, heldSince k ([] ++ [⟨downUs, .down, key⟩] ++ [⟨upUs, .up, key⟩]) = none := by
    intro k
    by_cases hk : key = k
    · subst hk
      exact heldSince_snoc_self _ ⟨upUs, .up, key⟩
    · rw [heldSince_snoc_of_ne hk, heldSince_snoc_of_ne hk, heldSince_nil]
  have happend := spans_append hnone rest
  rw [spans_release] at happend
  exact happend

/-! ## Histories in order -/

/-- the times of the actions do not decrease -/
def InOrder (history : List KeyAction) : Prop := history.Pairwise fun a b => a.timeUs ≤ b.timeUs

/-- then no hold ends before it began -/
theorem InOrder.span_le {s : Span} (h : InOrder history) (hs : s ∈ spans history) : s.downUs ≤ s.upUs := by
  obtain ⟨pre, mid, post, rfl, -⟩ := mem_spans_iff.1 hs
  unfold InOrder at h
  rw [List.pairwise_append] at h
  have hdown : (⟨s.downUs, .down, s.key⟩ : KeyAction) ∈ pre ++ ⟨s.downUs, .down, s.key⟩ :: mid := by simp
  have hup : (⟨s.upUs, .up, s.key⟩ : KeyAction) ∈ (⟨s.upUs, .up, s.key⟩ : KeyAction) :: post := by simp
  exact h.2.2 _ hdown _ hup

end Recorder
end KeyHold
