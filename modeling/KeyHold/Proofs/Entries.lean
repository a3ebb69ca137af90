/-
Entries whose keys differ.

Mappings and registries are built one entry at a time, and an entry whose key is there takes the place of the old one.
A list whose keys differ (`Apart`) is therefore built as it stands: nothing is replaced and the order is kept.

- `Value.foldl_insert`: a mapping; `Registry.ofList_policies`: a registry.
- `Settings.allDistinct_iff`: the check that values differ.
- `find?_of_pairwise`, `find?_of_nodup`: an item is found by itself, and by its key.
-/
import Mathlib.Tactic
import KeyHold.Settings.Basic
import KeyHold.Proofs.Value

namespace KeyHold

/-- an item is found by itself, if none before it is taken for it -/
theorem find?_of_pairwise {α : Type} {f : α → α → Bool} {xs : List α} (h : xs.Pairwise fun x y => f x y = false) {x : α}
    (hx : x ∈ xs) (hself : f x x = true) : (xs.find? fun y => f y x) = some x := by
  induction xs with
  | nil => cases hx
  | cons y xs ih =>
    obtain ⟨hy, hrest⟩ := List.pairwise_cons.1 h
    rw [List.find?_cons]
    rcases List.mem_cons.1 hx with rfl | hx
    · rw [hself]
    · rw [hy x hx]
      exact ih hrest hx

/-- an item is found by its key, if no other has that key -/
theorem find?_of_nodup {α κ : Type} [BEq κ] [LawfulBEq κ] {key : α → κ} {xs : List α} (h : (xs.map key).Nodup) {x : α}
    (hx : x ∈ xs) : (xs.find? fun y => key y == key x) = some x := by
  have hdiffer : xs.Pairwise fun y z => (key y == key z) = false := by
    refine (List.pairwise_map.1 h).imp ?_
    intro y z hne
    exact beq_eq_false_iff_ne.2 hne
  exact find?_of_pairwise hdiffer hx (beq_self_eq_true (key x))

namespace Value

/-- no two of the values are the same -/
def Apart (vs : List Value) : Prop := vs.Pairwise fun a b => a.same b = false

instance (vs : List Value) : Decidable (Apart vs) := inferInstanceAs (Decidable (List.Pairwise _ _))

variable {β : Type} {key : β → Value} {value : β → Value}

theorem apart_cons {v : Value} {vs : List Value} : Apart (v :: vs) ↔ (∀ w ∈ vs, v.same w = false) ∧ Apart vs :=
  List.pairwise_cons

/-- a new key goes to the end -/
theorem insert_of_new {k v : Value} {es : List (Value × Value)} (h : ∀ e ∈ es, e.1.same k = false) :
    insert k v es = es ++ [(k, v)] := by
  induction es with
  | nil => rfl
  | cons e es ih =>
    obtain ⟨he, hes⟩ := List.forall_mem_cons.1 h
    rw [insert, he, ih hes]
    rfl

/-- **A mapping with keys that differ** is built entry by entry as it stands. -/
theorem foldl_insert (items : List β) (h : Apart (items.map key)) :
    items.foldl (fun es x => insert (key x) (value x) es) [] = items.map fun x => (key x, value x) := by
  suffices H : ∀ es : List (Value × Value), (∀ e ∈ es, ∀ x ∈ items, e.1.same (key x) = false) →
      items.foldl (fun es x => insert (key x) (value x) es) es = es ++ items.map fun x => (key x, value x) from
    H [] (List.forall_mem_nil _)
  induction items with
  | nil => exact fun es _ => (List.append_nil es).symm
  | cons x items ih =>
    obtain ⟨hx, hrest⟩ := apart_cons.1 h
    intro es hes
    rw [List.foldl_cons, insert_of_new fun e he => hes e he x List.mem_cons_self, ih hrest, List.append_assoc]
    · rfl
    · -- the new entry differs from those to come, as the old ones do
      intro e he y hy
      rcases List.mem_append.1 he with he | he
      · exact hes e he y (List.mem_cons_of_mem x hy)
      · rw [List.mem_singleton.1 he]
        exact hx (key y) (List.mem_map_of_mem hy)

end Value

namespace Registry

theorem put_of_new {p : Policy} {ps : List Policy} (h : ∀ q ∈ ps, q.name.same p.name = false) :
    put p ps = ps ++ [p] := by
  induction ps with
  | nil => rfl
  | cons q ps ih =>
    obtain ⟨hq, hps⟩ := List.forall_mem_cons.1 h
    rw [put, hq, ih hps]
    rfl

/-- **A registry of policies whose names differ** keeps them all, in their order. -/
theorem ofList_policies (ps : List Policy) (h : Value.Apart (ps.map Policy.name)) : (ofList ps).policies = ps := by
  suffices H : ∀ r : Registry, (∀ q ∈ r.policies, ∀ p ∈ ps, q.name.same p.name = false) →
      (ps.foldl register r).policies = r.policies ++ ps from H {} (List.forall_mem_nil _)
  induction ps with
  | nil => exact fun r _ => (List.append_nil r.policies).symm
  | cons p ps ih =>
    obtain ⟨hp, hrest⟩ := Value.apart_cons.1 h
    intro r hr
    have hput : (r.register p).policies = r.policies ++ [p] := put_of_new fun q hq => hr q hq p List.mem_cons_self
    rw [List.foldl_cons, ih hrest, hput, List.append_assoc]
    · rfl
    · intro q hq p' hp'
      rw [hput] at hq
      rcases List.mem_append.1 hq with hq | hq
      · exact hr q hq p' (List.mem_cons_of_mem p hp')
      · rw [List.mem_singleton.1 hq]
        exact hp p'.name (List.mem_map_of_mem hp')

end Registry

namespace Settings

/-- values that differ from each other and from all seen before pass, and no others -/
theorem allDistinct_go_iff (seen vs : List Value) : allDistinct.go seen vs = .ok true ↔
    (∀ v ∈ vs, v.hashable = true) ∧ (∀ u ∈ seen, ∀ v ∈ vs, u.same v = false) ∧ Value.Apart vs := by
  induction vs generalizing seen with
  | nil => exact ⟨fun _ => ⟨List.forall_mem_nil _, fun _ _ => List.forall_mem_nil _, List.Pairwise.nil⟩, fun _ => rfl⟩
  | cons v vs ih =>
    unfold allDistinct.go
    split_ifs with hhash hseen
    · exact ⟨fun h => (by cases h), fun h => absurd (h.1 v List.mem_cons_self) (by simpa using hhash)⟩
    · obtain ⟨u, hu, huv⟩ := List.any_eq_true.1 hseen
      constructor
      · intro h
        cases hgo : allDistinct.go seen vs <;> rw [hgo] at h <;> cases h
      · rintro ⟨-, hold, -⟩
        rw [hold u hu v List.mem_cons_self] at huv
        cases huv
    · have hhash : v.hashable = true := by simpa using hhash
      have hseen : ∀ u ∈ seen, u.same v = false := by simpa using hseen
      rw [ih, Value.apart_cons]
      simp only [List.forall_mem_cons]
      constructor
      · rintro ⟨hall, ⟨hv, hold⟩, hvs⟩
        exact ⟨⟨hhash, hall⟩, fun u hu => ⟨hseen u hu, hold u hu⟩, hv, hvs⟩
      · rintro ⟨⟨-, hall⟩, hold, hv, hvs⟩
        exact ⟨hall, ⟨hv, fun u hu => (hold u hu).2⟩, hvs⟩

/-- **Values differ**, and may all be keys, if they pass the check for it. -/
theorem allDistinct_iff (vs : List Value) :
    allDistinct vs = .ok true ↔ (∀ v ∈ vs, v.hashable = true) ∧ Value.Apart vs := by
  unfold allDistinct
  rw [allDistinct_go_iff]
  simp

end Settings
end KeyHold
