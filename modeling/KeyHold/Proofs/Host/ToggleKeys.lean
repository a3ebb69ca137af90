/-
Toggle keys that can be pressed.

Settings are checked for toggle keys that differ as values. The host keys its table by these values, and the listener
by their lower case. So two keys that differ in case only pass the check, and the listener keeps the later of them; a
key that is no text passes too, and then there is no listener, or no key that could be pressed.

- `toggleTable_eq`, `ofTable_texts`: the host's table and the listener, entry by entry.
- `Reaches`: a press of a mode's toggle key asks for that mode.
- `toggles_reach_iff`: **every mode that has a toggle key is reached** exactly if the keys are texts of which no two have
  one lower case.
- `caseTwins_lose`: two modes on `F1` and `f1`; the first of them is not reached.
-/
import Mathlib.Tactic
import KeyHold.Host.Run
import KeyHold.Proofs.Settings.Written

namespace KeyHold

namespace Listener

/-- a press of the mode's toggle key, while none is down, asks for the mode -/
def Reaches (l : Listener) (p : Policy) : Prop :=
  ∃ t, p.toggleKey = .str t ∧ ∀ l' : Listener, l'.toggles = l.toggles → l'.down = [] →
    ∀ key : KeyReport, key.name = Text.lower t →
      (l'.press key).1.events = l'.events ++ [⟨p.name, Text.lower t⟩]

variable {β : Type} {key : β → String} {mode : β → Value}

/-- a table of texts that differ in lower case, too, is kept entry by entry -/
theorem ofTable_texts {items : List β} (h : (items.map fun x => Text.lower (key x)).Nodup) :
    ∃ l, ofTable (items.map fun x => (.str (key x), mode x)) = .ok l ∧
      l.toggles = items.map fun x => (Text.lower (key x), mode x) := by
  have hfold : ∀ (xs : List β) (es : List (Value × Value)),
      (xs.map fun x => (Value.str (key x), mode x)).foldlM
        (fun es e => (lowerKey e.1).map fun k => Value.insert k e.2 es) es =
      .ok (xs.foldl (fun es x => Value.insert (.str (Text.lower (key x))) (mode x) es) es) := by
    intro xs
    induction xs with
    | nil => exact fun _ => rfl
    | cons x xs ih => exact fun es => ih _
  have hapart : Value.Apart (items.map fun x => Value.str (Text.lower (key x))) := by
    have hmap : (items.map fun x => Value.str (Text.lower (key x))) =
        (items.map fun x => Text.lower (key x)).map Value.str := by rw [List.map_map]; rfl
    rw [hmap, Value.Apart, List.pairwise_map]
    exact h.imp fun hne => by rw [Value.same_str, beq_eq_false_iff_ne]; exact hne
  have hlowered : lowered (items.map fun x => (.str (key x), mode x)) =
      .ok (items.map fun x => (.str (Text.lower (key x)), mode x)) := by
    unfold lowered
    rw [hfold items [], Value.foldl_insert items hapart]
  have htexts : texts (items.map fun x => (.str (Text.lower (key x)), mode x)) =
      items.map fun x => (Text.lower (key x), mode x) := by
    unfold texts
    rw [List.filterMap_map]
    exact congrFun List.filterMap_eq_map' items
  unfold ofTable
  rw [hlowered]
  exact ⟨_, rfl, htexts⟩

/-- a press of one of the keys, while none is down, asks for its mode -/
theorem press_toggle {items : List β} (h : (items.map fun x => Text.lower (key x)).Nodup) {l : Listener}
    (hl : l.toggles = items.map fun x => (Text.lower (key x), mode x)) (hdown : l.down = []) {x : β} (hx : x ∈ items)
    (hmode : mode x ≠ .null) {k : KeyReport} (hk : k.name = Text.lower (key x)) :
    (l.press k).1.events = l.events ++ [⟨mode x, Text.lower (key x)⟩] := by
  have hfind : l.mode? (Text.lower (key x)) = some (mode x) := by
    unfold mode?
    rw [hl, List.find?_map]
    show (Option.map _ (items.find? fun y => Text.lower (key y) == Text.lower (key x))).map _ = _
    rw [find?_of_nodup h hx]
    rfl
  unfold press
  simp only [hk, hfind, hdown]
  rfl

/-- a listener asks for one mode at a press -/
theorem Reaches.name_eq {l : Listener} {p q : Policy} {s t : String} (hp : l.Reaches p) (hq : l.Reaches q)
    (hs : p.toggleKey = .str s) (ht : q.toggleKey = .str t) (hne : s ≠ "") (hlower : Text.lower s = Text.lower t) :
    p.name = q.name := by
  obtain ⟨s', hs', hp⟩ := hp
  obtain ⟨t', ht', hq⟩ := hq
  obtain rfl : s = s' := Value.str.inj (hs.symm.trans hs')
  obtain rfl : t = t' := Value.str.inj (ht.symm.trans ht')
  have hkey : (⟨some s, s⟩ : KeyReport).name = Text.lower s := by
    show (if s = "" then _ else Text.lower s) = Text.lower s
    rw [if_neg hne]
  -- the press of a key of that name, while none is down
  have hevents := (hp { l with down := [] } rfl rfl ⟨some s, s⟩ hkey).symm.trans
    (hq { l with down := [] } rfl rfl ⟨some s, s⟩ (hkey.trans hlower))
  have hevent := List.cons.inj (List.append_cancel_left hevents)
  exact congrArg ToggleEvent.mode hevent.1

end Listener

namespace Host

open Settings

variable {S : Settings}

/-- the modes that have a toggle key -/
def toggled (S : Settings) : List Policy := S.modes.filter fun p => p.toggleKey.truthy

theorem toggleKeys_eq (S : Settings) : S.toggleKeys = (toggled S).map Policy.toggleKey := by
  unfold toggleKeys toggled
  rw [List.filter_map]
  rfl

/-- **The host's table** has the modes with a toggle key, in their order. -/
theorem toggleTable_eq (h : S.Sound) : toggleTable S = (toggled S).map fun p => (p.toggleKey, p.name) := by
  have hapart : Value.Apart ((toggled S).map Policy.toggleKey) := toggleKeys_eq S ▸ (check_inv h.check).2.2
  unfold toggleTable registry
  rw [Registry.ofList_policies _ h.names]
  exact Value.foldl_insert (toggled S) hapart

/-- the text that a value is, if it is one -/
def textOf : Value → String
  | .str t => t
  | _ => ""

theorem str_textOf {v : Value} (h : v.IsText) : .str (textOf v) = v := by
  obtain ⟨t, rfl⟩ := h
  rfl

/-- toggle keys that are texts, in one list -/
theorem toggleKeys_texts (h : ∀ p ∈ toggled S, p.toggleKey.IsText) :
    S.toggleKeys = ((toggled S).map fun p => textOf p.toggleKey).map Value.str := by
  rw [toggleKeys_eq, List.map_map]
  exact List.map_congr_left fun p hp => (str_textOf (h p hp)).symm

/-- **Every mode that has a toggle key is reached**, by a listener that there is, exactly if the toggle keys are texts
of which no two have one lower case. -/
theorem toggles_reach_iff {entries : List (Value × Value)} (hS : ofData (.map entries) = .ok S)
    (hnames : NamesApart entries) (htext : ∀ p ∈ S.modes, p.name.IsText) :
    (∃ l, Listener.ofTable (toggleTable S) = .ok l ∧ ∀ p ∈ S.modes, p.toggleKey.truthy = true → l.Reaches p) ↔
      ∃ keys : List String, S.toggleKeys = keys.map Value.str ∧ (keys.map Text.lower).Nodup := by
  have hsound := sound_of_ofData hS hnames
  have hmem : ∀ p, p ∈ toggled S ↔ p ∈ S.modes ∧ p.toggleKey.truthy = true := fun p => List.mem_filter
  constructor
  · rintro ⟨l, -, hreach⟩
    have hreach : ∀ p ∈ toggled S, l.Reaches p := fun p hp => hreach p ((hmem p).1 hp).1 ((hmem p).1 hp).2
    have htexts : ∀ p ∈ toggled S, p.toggleKey.IsText := fun p hp => ⟨_, (hreach p hp).choose_spec.1⟩
    refine ⟨_, toggleKeys_texts htexts, ?_⟩
    rw [List.map_map, List.Nodup, List.pairwise_map]
    -- two keys of one lower case would ask for two modes at one press
    have hapart : (toggled S).Pairwise fun p q => p.name.same q.name = false :=
      (List.pairwise_map.1 hsound.names).filter _
    refine hapart.imp_of_mem fun {p q} hp hq hne hlower => ?_
    have hp' := (str_textOf (htexts p hp)).symm
    have hq' := (str_textOf (htexts q hq)).symm
    have hset : textOf p.toggleKey ≠ "" := by
      intro hempty
      have := ((hmem p).1 hp).2
      rw [hp', hempty] at this
      cases this
    have heq := (hreach p hp).name_eq (hreach q hq) hp' hq' hset hlower
    obtain ⟨s, hs⟩ := htext p ((hmem p).1 hp).1
    rw [← heq, hs, Value.same_str, beq_self_eq_true] at hne
    cases hne
  · rintro ⟨keys, hkeys, hnodup⟩
    have htexts : ∀ p ∈ toggled S, p.toggleKey.IsText := by
      intro p hp
      have hp : p.toggleKey ∈ keys.map Value.str :=
        hkeys ▸ toggleKeys_eq S ▸ List.mem_map_of_mem hp
      obtain ⟨t, -, ht⟩ := List.mem_map.1 hp
      exact ⟨t, ht.symm⟩
    have hkeys : keys = (toggled S).map fun p => textOf p.toggleKey :=
      List.map_injective_iff.2 (fun _ _ => Value.str.inj) (hkeys.symm.trans (toggleKeys_texts htexts))
    rw [hkeys, List.map_map] at hnodup
    have htable : toggleTable S = (toggled S).map fun p => (.str (textOf p.toggleKey), p.name) := by
      rw [toggleTable_eq hsound]
      exact List.map_congr_left fun p hp => by rw [str_textOf (htexts p hp)]
    obtain ⟨l, hl, htoggles⟩ := @Listener.ofTable_texts Policy (fun p => textOf p.toggleKey) Policy.name _ hnodup
    refine ⟨l, htable ▸ hl, fun p hp hset => ?_⟩
    have hp : p ∈ toggled S := (hmem p).2 ⟨hp, hset⟩
    refine ⟨textOf p.toggleKey, (str_textOf (htexts p hp)).symm, fun l' hl' hdown key hkey => ?_⟩
    refine Listener.press_toggle hnodup (hl'.trans htoggles) hdown hp ?_ hkey
    obtain ⟨s, hs⟩ := htext p ((hmem p).1 hp).1
    rw [hs]
    exact nofun

/-- the built-in modes are reached, on pause and on print screen -/
theorem builtin_reached : ofData (.map []) = .ok {} ∧
    ∃ l, Listener.ofTable (toggleTable {}) = .ok l ∧ l.Reaches Policy.og ∧ l.Reaches Policy.extra := by
  have htext : ∀ p ∈ Policy.builtin, p.name.IsText := by
    simp only [Policy.builtin, List.forall_mem_cons]
    exact ⟨⟨_, rfl⟩, ⟨_, rfl⟩, List.forall_mem_nil _⟩
  obtain ⟨l, hl, hreach⟩ := (toggles_reach_iff ofData_empty (fun _ h => by cases h) htext).2
    ⟨["pause", "print_screen"], by decide +kernel, by decide +kernel⟩
  exact ⟨ofData_empty, l, hl, hreach _ (by simp [Policy.builtin]) rfl, hreach _ (by simp [Policy.builtin]) rfl⟩

/-- two modes on one key, once with a capital letter -/
def caseTwins : Value := .map [(.str "modes", .map [
  (.str "a", .map [(.str "toggle_key", .str "F1"),
    (.str "phases", .list [.map [(.str "key", .str "up"), (.str "mean_ms", .int 500)]])]),
  (.str "b", .map [(.str "toggle_key", .str "f1"),
    (.str "phases", .list [.map [(.str "key", .str "down"), (.str "mean_ms", .int 500)]])])])]

/-- **Of two modes on one key** only the later is reached: a press of F1 asks for the second. -/
theorem caseTwins_lose : ∃ S l, ofData caseTwins = .ok S ∧
    S.modes.map (fun p => (p.name, p.toggleKey)) = [(.str "a", .str "F1"), (.str "b", .str "f1")] ∧
    Listener.ofTable (toggleTable S) = .ok l ∧
    (l.press ⟨none, "Key.f1"⟩).1.events.map ToggleEvent.mode = [.str "b"] := by
  obtain ⟨S, hS, h⟩ := exists_of_any caseTwins (fun S => decide (
    S.modes.map (fun p => (p.name, p.toggleKey)) = [(.str "a", .str "F1"), (.str "b", .str "f1")] ∧
    (Listener.ofTable (toggleTable S)).toOption.map
      (fun l => (l.press ⟨none, "Key.f1"⟩).1.events.map ToggleEvent.mode) = some [.str "b"])) (by decide +kernel)
  obtain ⟨hmodes, hpress⟩ := of_decide_eq_true h
  cases hl : Listener.ofTable (toggleTable S) with
  | error e =>
    rw [hl] at hpress
    cases hpress
  | ok l =>
    rw [hl] at hpress
    exact ⟨S, l, hS, hmodes, hl, Option.some.inj hpress⟩

end Host
end KeyHold
