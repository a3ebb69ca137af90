/-
Items one after another.

What is recorded grows at its end, and what is read is read item by item.

- `snoc_eq_mid`, `latest_snoc`, `filterMap_zipIdx_snoc`: one item more at the end of a list.
- `ok_of_bind`, `ok_of_mapError`, `forall₂_of_mapM`, `exists_of_mapM`: what came before a result.
-/
import Mathlib.Tactic

namespace KeyHold

variable {α β ε : Type}

/-! ## Lists that grow -/

/-- where an item stands in a list: it is the last one, or it stands before that -/
theorem snoc_eq_mid {xs pre post : List α} {y x : α} (h : xs ++ [y] = pre ++ x :: post) :
    (post = [] ∧ xs = pre ∧ y = x) ∨ ∃ mid, post = mid ++ [y] ∧ xs = pre ++ x :: mid := by
  rcases List.eq_nil_or_concat post with rfl | ⟨mid, z, rfl⟩
  · obtain ⟨h1, h2⟩ := List.append_inj' h rfl
    exact Or.inl ⟨rfl, h1, by simpa using h2⟩
  · rw [List.concat_eq_append, ← List.cons_append, ← List.append_assoc] at h
    obtain ⟨h1, h2⟩ := List.append_inj' h rfl
    obtain rfl : y = z := by simpa using h2
    exact Or.inr ⟨mid, List.concat_eq_append, h1⟩

/-- what the latest of the items that tell anything tells -/
def latest (tells : α → Option β) (xs : List α) : Option β := (xs.filterMap tells).getLast?

theorem latest_snoc (tells : α → Option β) (xs : List α) (x : α) :
    latest tells (xs ++ [x]) = (tells x).or (latest tells xs) := by
  unfold latest
  cases h : tells x <;> simp [h]

/-- what the items are worth, each after those before it, with one item more -/
theorem filterMap_zipIdx_snoc (f : List α → α → Option β) (xs : List α) (x : α) :
    ((xs ++ [x]).zipIdx.filterMap fun (y, i) => f ((xs ++ [x]).take i) y) =
      (xs.zipIdx.filterMap fun (y, i) => f (xs.take i) y) ++ (f xs x).toList := by
  have hbefore : ∀ y ∈ xs.zipIdx, f ((xs ++ [x]).take y.2) y.1 = f (xs.take y.2) y.1 := by
    intro y hy
    have hlt : y.2 < xs.length := by
      have := List.snd_lt_add_of_mem_zipIdx hy
      omega
    rw [List.take_append_of_le_length hlt.le]
  rw [List.zipIdx_append, List.filterMap_append, List.filterMap_congr hbefore]
  cases h : f xs x <;> simp [h]

/-! ## Results -/

theorem ok_of_bind {r : Except ε α} {f : α → Except ε β} {b : β} (h : r >>= f = .ok b) :
    ∃ a, r = .ok a ∧ f a = .ok b := by
  cases r with
  | error e => cases h
  | ok a => exact ⟨a, rfl, h⟩

theorem mapError_eq_ok {ε' : Type} {r : Except ε α} {f : ε → ε'} {a : α} : r.mapError f = .ok a ↔ r = .ok a := by
  cases r with
  | error e => exact ⟨nofun, nofun⟩
  | ok b => exact ⟨fun h => congrArg Except.ok (Except.ok.inj h), fun h => congrArg Except.ok (Except.ok.inj h)⟩

theorem ok_of_mapError {ε' : Type} {r : Except ε α} {f : ε → ε'} {a : α} (h : r.mapError f = .ok a) : r = .ok a :=
  mapError_eq_ok.1 h

/-- steps that return as others do lead to the same end -/
theorem foldlM_ok_mono {f g : β → α → Except ε β} (hfg : ∀ b a c, f b a = .ok c → g b a = .ok c) {xs : List α} {b c : β}
    (h : xs.foldlM f b = .ok c) : xs.foldlM g b = .ok c := by
  induction xs generalizing b with
  | nil => exact h
  | cons x xs ih =>
    rw [List.foldlM_cons] at h ⊢
    obtain ⟨b', hb, h⟩ := ok_of_bind h
    rw [hfg b x b' hb]
    exact ih h

/-- what is mapped over a list is there item by item -/
theorem forall₂_of_mapM {f : α → Except ε β} {xs : List α} {ys : List β} (h : xs.mapM f = .ok ys) :
    List.Forall₂ (fun x y => f x = .ok y) xs ys := by
  induction xs generalizing ys with
  | nil =>
    obtain rfl := Except.ok.inj h
    exact .nil
  | cons x xs ih =>
    rw [List.mapM_cons] at h
    obtain ⟨y, hy, h⟩ := ok_of_bind h
    obtain ⟨ys, hys, h⟩ := ok_of_bind h
    obtain rfl := Except.ok.inj h
    exact .cons hy (ih hys)

theorem mapM_of_forall₂ {f : α → Except ε β} {xs : List α} {ys : List β}
    (h : List.Forall₂ (fun x y => f x = .ok y) xs ys) : xs.mapM f = .ok ys := by
  induction h with
  | nil => rfl
  | cons hx _ ih =>
    rw [List.mapM_cons, hx, ih]
    rfl

/-- all items are read, whatever becomes of faults -/
theorem mapM_mapError_eq_ok {f : α → Except ε β} {g : α → ε → ε} {xs : List α} {ys : List β} :
    xs.mapM (fun x => (f x).mapError (g x)) = .ok ys ↔ xs.mapM f = .ok ys := by
  constructor
  · intro h
    exact mapM_of_forall₂ ((forall₂_of_mapM h).imp fun _ _ => ok_of_mapError)
  · intro h
    exact mapM_of_forall₂ ((forall₂_of_mapM h).imp fun _ _ => mapError_eq_ok.2)

/-- what is read was read from an item -/
theorem exists_of_mapM {f : α → Except ε β} {xs : List α} {ys : List β} {y : β} (h : xs.mapM f = .ok ys) (hy : y ∈ ys) :
    ∃ x ∈ xs, f x = .ok y := by
  have hall := forall₂_of_mapM h
  clear h
  induction hall with
  | nil => cases hy
  | @cons x y' xs ys hx _ ih =>
    rcases List.mem_cons.1 hy with rfl | hy
    · exact ⟨x, List.mem_cons_self, hx⟩
    · obtain ⟨x', hmem, hx'⟩ := ih hy
      exact ⟨x', List.mem_cons_of_mem x hmem, hx'⟩

end KeyHold
