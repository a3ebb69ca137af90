/-
The controller at the other end.

The controller reads each line that reaches it as JSON and holds the keys whose last command was a press. What a sender
writes for a press or a release is read as that press or release, whatever the key (`command?_line`). So the keys held
there follow the lines delivered:

- `held_snoc`: a command that is delivered has the effect on the controller that the call has on an effector.
- `excess held down`: the keys that the controller holds and the effector does not have down; `excess_effect`,
  `excess_missed` and `excess_lost` bound it after a call that was delivered, a press that was not, and a release that
  was not.
-/
import Mathlib.Tactic
import KeyHold.Effector.Sender
import KeyHold.Proofs.Json.Texts
import KeyHold.Proofs.Tape

namespace KeyHold.Controller

open Tape

/-- the key action that a line asks for -/
def command? (line : String) : Option (Direction × String) := do
  let j ← Json.read? line
  match j.get? "key", j.get? "action" with
  | some (.str k), some (.str action) =>
    if action = "down" then some (.down, k) else if action = "up" then some (.up, k) else none
  | _, _ => none

/-- what a line does to the keys that the controller holds -/
def obey (keys : List String) (line : String) : List String :=
  match command? line with
  | some (d, k) => effect keys ⟨d, k, true⟩
  | none => keys

/-- the keys that the controller holds after some lines -/
def held (lines : List String) : List String := lines.foldl obey []

/-- **A command is read as it was meant**, whatever its key and time. -/
theorem command?_line (timestamp k : String) (d : Direction) :
    command? (Link.commandLine timestamp k d.name) = some (d, k) := by
  have hend : ∀ c ∈ "\n".toList, Json.isGap c = true := by
    intro c hc
    rw [List.mem_singleton.1 hc]
    rfl
  have hread := Json.read?_texts [("type", "keyboard"), ("key", k), ("action", d.name), ("timestamp", timestamp)] hend
  have hline : Link.commandLine timestamp k d.name = (Json.obj (Json.texts
      [("type", "keyboard"), ("key", k), ("action", d.name), ("timestamp", timestamp)])).line ++ "\n" := rfl
  rw [← hline] at hread
  rw [command?, hread]
  cases d <;> rfl

theorem held_snoc (lines : List String) (timestamp k : String) (d : Direction) :
    held (lines ++ [Link.commandLine timestamp k d.name]) = effect (held lines) ⟨d, k, true⟩ := by
  rw [held, List.foldl_append, List.foldl_cons, List.foldl_nil, obey, command?_line]
  rfl

theorem held_nodup (lines : List String) : (held lines).Nodup := by
  induction lines using List.reverseRecOn with
  | nil => exact List.nodup_nil
  | append_singleton lines line ih =>
    rw [held, List.foldl_append, List.foldl_cons, List.foldl_nil, obey]
    cases command? line with
    | none => exact ih
    | some c => exact effect_nodup ih _

/-! ## Keys held too long -/

/-- the keys held at the other end that are not down at this one -/
def excess (held down : List String) : List String := held.filter (· ∉ down)

variable {held down : List String}

theorem mem_excess {x : String} : x ∈ excess held down ↔ x ∈ held ∧ x ∉ down := by
  simp [excess]

theorem excess_le {held' down' : List String} (hn : held'.Nodup)
    (h : ∀ x ∈ held', x ∉ down' → x ∈ held ∧ x ∉ down) : (excess held' down').length ≤ (excess held down).length := by
  refine (List.subperm_of_subset (hn.filter _) fun x hx => ?_).length_le
  obtain ⟨h1, h2⟩ := mem_excess.1 hx
  exact mem_excess.2 (h x h1 h2)

/-- a call that is delivered does the same at both ends -/
theorem excess_effect (hh : held.Nodup) (hd : down.Nodup) (d : Direction) (k : String) :
    (excess (effect held ⟨d, k, true⟩) (effect down ⟨d, k, true⟩)).length ≤ (excess held down).length := by
  refine excess_le (effect_nodup hh _) fun x hx hx' => ?_
  cases d with
  | down =>
    rw [mem_effect_down] at hx hx'
    rw [not_or] at hx'
    exact ⟨hx.resolve_left hx'.1, hx'.2⟩
  | up =>
    rw [mem_effect_up hh] at hx
    rw [mem_effect_up hd, not_and] at hx'
    exact ⟨hx.2, hx' hx.1⟩

/-- a press that is not delivered is forgotten at the other end -/
theorem excess_missed (hh : held.Nodup) (k : String) :
    (excess held (effect down ⟨.down, k, true⟩)).length ≤ (excess held down).length := by
  refine excess_le hh fun x hx hx' => ⟨hx, ?_⟩
  rw [mem_effect_down, not_or] at hx'
  exact hx'.2

/-- a release that is not delivered leaves one key more -/
theorem excess_lost (hh : held.Nodup) (hd : down.Nodup) (k : String) :
    (excess held (effect down ⟨.up, k, true⟩)).length ≤ (excess held down).length + 1 := by
  have hsub : excess held (effect down ⟨.up, k, true⟩) ⊆ k :: excess held down := by
    intro x hx
    obtain ⟨h1, h2⟩ := mem_excess.1 hx
    rw [mem_effect_up hd, not_and] at h2
    by_cases hk : x = k
    · exact hk ▸ List.mem_cons_self
    · exact List.mem_cons_of_mem k (mem_excess.2 ⟨h1, h2 hk⟩)
  exact (List.subperm_of_subset (hh.filter _) hsub).length_le

end KeyHold.Controller
