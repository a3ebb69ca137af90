/-
Edges of the toggle keys.

The keyboard calls the listener at each press and each release of any key, with a press again and again while a key is
held, and the loop polls it in between. The listener drops presses of keys that its table does not have, but it takes
every release; it knows a key by the lower case of its name, and so does a table. What counts as an edge is said here
of the callbacks alone (`edges`): a press of a toggle key of which the latest callback was not a press.

- `held_iff`: a key is held if a press of it was not followed by a release.
- `modeIn_insert_self`, `modeIn_insert_of_ne`, `ofTable_modes`: the listener's modes are those of the table, where the
  last entry of a key counts.
- `Tracks`, `Tracks.handle`, `tracks_run`: what one call preserves, and so a run.
- `edges_delivered`: **polls deliver the edges**, each once and in their order, and the keys that are down are the
  toggle keys whose latest callback is a press.
-/
import Mathlib.Tactic
import KeyHold.Host.Listener
import KeyHold.Proofs.Sequence
import KeyHold.Proofs.Value

namespace KeyHold

namespace Listener

/-! ## The calls -/

/-- a callback of the keyboard, or a poll -/
inductive Call where
  | press (key : KeyReport)
  | release (key : KeyReport)
  | poll
deriving DecidableEq

/-- the listener after a call, and the event that is delivered -/
def handle (l : Listener) : Call → Listener × Option ToggleEvent
  | .press key => ((l.press key).1, none)
  | .release key => (l.release key, none)
  | .poll => (l.poll.2, l.poll.1)

/-- the listener after calls, and the events that were delivered, the first one first -/
def run (l : Listener) (calls : List Call) : Listener × List ToggleEvent :=
  calls.foldl (fun r call => ((r.1.handle call).1, r.2 ++ (r.1.handle call).2.toList)) (l, [])

@[simp] theorem run_nil (l : Listener) : l.run [] = (l, []) := rfl

theorem run_snoc (l : Listener) (calls : List Call) (call : Call) : l.run (calls ++ [call]) =
    (((l.run calls).1.handle call).1, (l.run calls).2 ++ ((l.run calls).1.handle call).2.toList) := by
  unfold run
  rw [List.foldl_append]
  rfl

/-! ## What is an edge -/

/-- whether a call tells that the key of that name is down, or up -/
def Call.sets (name : String) : Call → Option Bool
  | .press key => if key.name = name then some true else none
  | .release key => if key.name = name then some false else none
  | .poll => none

/-- the latest callback of the key of that name is a press -/
def held (calls : List Call) (name : String) : Bool := latest (Call.sets name) calls == some true

theorem held_snoc (calls : List Call) (call : Call) (name : String) :
    held (calls ++ [call]) name = (call.sets name).getD (held calls name) := by
  unfold held
  rw [latest_snoc]
  rcases call.sets name with _ | _ | _ <;> rfl

/-- A key is held exactly if a press of it was not followed by a release of that name. -/
theorem held_iff (calls : List Call) (name : String) : held calls name = true ↔
    ∃ before key after, calls = before ++ .press key :: after ∧ key.name = name ∧
      ∀ key', .release key' ∈ after → key'.name ≠ name := by
  constructor
  · intro h
    induction calls using List.reverseRecOn with
    | nil => cases h
    | append_singleton calls call ih =>
      rw [held_snoc] at h
      cases hset : call.sets name with
      | none =>
        -- a call that tells nothing of the key is no release of it
        rw [hset] at h
        obtain ⟨before, key, after, rfl, hkey, hafter⟩ := ih h
        refine ⟨before, key, after ++ [call], by simp, hkey, fun key' hkey' => ?_⟩
        rcases List.mem_append.1 hkey' with hkey' | hkey'
        · exact hafter key' hkey'
        · rw [← List.mem_singleton.1 hkey'] at hset
          simpa [Call.sets] using hset
      | some b =>
        obtain rfl : b = true := by rwa [hset] at h
        cases call with
        | press key => exact ⟨calls, key, [], rfl, by simpa [Call.sets] using hset, nofun⟩
        | release key => simp [Call.sets] at hset
        | poll => cases hset
  · rintro ⟨before, key, after, rfl, rfl, hafter⟩
    induction after using List.reverseRecOn with
    | nil => simp [held_snoc, Call.sets]
    | append_singleton after call ih =>
      have hrest := ih fun key' hkey' => hafter key' (List.mem_append_left _ hkey')
      rw [← List.cons_append, ← List.append_assoc, held_snoc, hrest]
      cases call with
      | press key' => simp only [Call.sets]; split_ifs <;> rfl
      | release key' => rw [Call.sets, if_neg (hafter key' (by simp))]; rfl
      | poll => rfl

/-- the event that a call is worth after those before -/
def edge (mode : String → Option Value) (before : List Call) : Call → Option ToggleEvent
  | .press key => if held before key.name then none else (mode key.name).map fun m => ⟨m, key.name⟩
  | .release _ => none
  | .poll => none

/-- the events that calls are worth, in their order -/
def edges (mode : String → Option Value) (calls : List Call) : List ToggleEvent :=
  calls.zipIdx.filterMap fun (call, i) => edge mode (calls.take i) call

theorem edges_snoc (mode : String → Option Value) (calls : List Call) (call : Call) :
    edges mode (calls ++ [call]) = edges mode calls ++ (edge mode calls call).toList :=
  filterMap_zipIdx_snoc (edge mode) calls call

/-! ## The modes of a table -/

/-- the mode that an entry of a table gives to the key of that name -/
def gives (name : String) : Value × Value → Option Value
  | (.str s, mode) => if Text.lower s = name then some mode else none
  | _ => none

/-- a mode that is there -/
def given : Option Value → Option Value
  | some .null => none
  | mode => mode

theorem given_eq_some {mode : Option Value} {m : Value} (h : given mode = some m) : mode = some m ∧ m ≠ .null := by
  unfold given at h
  split at h
  · cases h
  · next hnull => exact ⟨h, fun heq => hnull (heq ▸ h)⟩

/-- the mode of the key of that name in a table: the one in the last entry for the key, if it is there -/
def tableMode (table : List (Value × Value)) (name : String) : Option Value := given (latest (gives name) table)

section Modes

variable {k m : Value} {es table : List (Value × Value)} {name : String}

/-- the mode that entries with lower-case keys give to the key of that name -/
def modeIn (es : List (Value × Value)) (name : String) : Option Value :=
  ((texts es).find? (·.1 == name)).map (·.2)

theorem modeIn_cons_self : modeIn ((.str name, m) :: es) name = some m := by
  simp [modeIn, texts]

theorem modeIn_cons_of_ne (h : k ≠ .str name) : modeIn ((k, m) :: es) name = modeIn es name := by
  cases k with
  | str s =>
    have hne : s ≠ name := fun heq => h (congrArg Value.str heq)
    simp [modeIn, texts, hne]
  | _ => rfl

theorem modeIn_insert_self : modeIn (Value.insert (.str name) m es) name = some m := by
  induction es with
  | nil => exact modeIn_cons_self
  | cons e es ih =>
    rw [Value.insert]
    split_ifs with hsame
    · rw [Value.eq_of_same_str hsame]
      exact modeIn_cons_self
    · have hne : e.1 ≠ .str name := by
        intro heq
        rw [heq, Value.same_str, beq_self_eq_true] at hsame
        exact hsame rfl
      rw [modeIn_cons_of_ne hne, ih]

theorem modeIn_insert_of_ne (h : k ≠ .str name) : modeIn (Value.insert k m es) name = modeIn es name := by
  induction es with
  | nil => exact modeIn_cons_of_ne h
  | cons e es ih =>
    have hne : e.1.same k = true → e.1 ≠ .str name := by
      intro hsame heq
      rw [heq] at hsame
      exact h (Value.eq_of_str_same hsame)
    rw [Value.insert]
    split_ifs with hsame
    · rw [modeIn_cons_of_ne (hne hsame), modeIn_cons_of_ne (hne hsame)]
    · by_cases he : e.1 = .str name
      · obtain ⟨key, mode⟩ := e
        obtain rfl : key = .str name := he
        rw [modeIn_cons_self, modeIn_cons_self]
      · rw [modeIn_cons_of_ne he, modeIn_cons_of_ne he, ih]

/-- a value that has a lower case -/
def HasCase (v : Value) : Prop := (∃ s, v = .str s) ∨ ∃ bs, v = .bytes bs

theorem lowered_snoc (h : lowered table = .ok es) (key mode : Value) :
    lowered (table ++ [(key, mode)]) = (lowerKey key).map fun k => Value.insert k mode es := by
  unfold lowered at h ⊢
  rw [List.foldlM_append, h]
  exact bind_pure (m := Except Fault) _

/-- **The entries of a table** by lower-case keys: of two that differ in case only the later counts. -/
theorem lowered_modes (h : ∀ e ∈ table, HasCase e.1) :
    ∃ es, lowered table = .ok es ∧ ∀ name, modeIn es name = latest (gives name) table := by
  induction table using List.reverseRecOn with
  | nil => exact ⟨[], rfl, fun _ => rfl⟩
  | append_singleton table e ih =>
    obtain ⟨es, hes, hmodes⟩ := ih fun e he => h e (List.mem_append_left _ he)
    obtain ⟨key, mode⟩ := e
    rcases h (key, mode) (by simp) with ⟨s, rfl⟩ | ⟨bs, rfl⟩
    · refine ⟨_, lowered_snoc hes _ _, fun name => ?_⟩
      rw [latest_snoc, ← hmodes]
      by_cases hname : Text.lower s = name
      · rw [hname, modeIn_insert_self, gives, if_pos hname]
        rfl
      · rw [modeIn_insert_of_ne fun heq => hname (Value.str.inj heq), gives, if_neg hname]
        rfl
    · refine ⟨_, lowered_snoc hes _ _, fun name => ?_⟩
      have hne : Value.bytes (bs.map lowerByte) ≠ .str name := nofun
      rw [latest_snoc, ← hmodes, modeIn_insert_of_ne hne]
      rfl

theorem ofTable_modes (h : ∀ e ∈ table, HasCase e.1) : ∃ l, ofTable table = .ok l ∧ l.events = [] ∧ l.down = [] ∧
    ∀ name, given (l.mode? name) = tableMode table name := by
  obtain ⟨es, hes, hmodes⟩ := lowered_modes h
  unfold ofTable
  rw [hes]
  exact ⟨_, rfl, rfl, rfl, fun name => congrArg given (hmodes name)⟩

end Modes

/-! ## A run -/

theorem press_of_none {l : Listener} {key : KeyReport} (h : given (l.mode? key.name) = none) :
    (l.press key).1 = l := by
  unfold press
  rcases hmode : l.mode? key.name with _ | mode
  · simp only [hmode]
  · rw [hmode] at h
    cases mode with
    | null => simp only [hmode]
    | _ => cases h

theorem press_of_some {l : Listener} {key : KeyReport} {mode : Value} (h : given (l.mode? key.name) = some mode) :
    (l.press key).1 = if key.name ∈ l.down then l
      else { l with down := l.down ++ [key.name], events := l.events ++ [⟨mode, key.name⟩] } := by
  obtain ⟨hmode, hnull⟩ := given_eq_some h
  unfold press
  simp only [hmode]
  split_ifs <;> simp_all

/-- **What holds after calls** of the listener and of the events that were delivered. -/
structure Tracks (mode : String → Option Value) (calls : List Call) (l : Listener) (delivered : List ToggleEvent) :
    Prop where
  modes : ∀ name, given (l.mode? name) = mode name
  events : delivered ++ l.events = edges mode calls
  once : l.down.Nodup
  down : ∀ name, name ∈ l.down ↔ (mode name).isSome = true ∧ held calls name = true

section Run

variable {mode : String → Option Value} {calls : List Call} {l : Listener} {delivered : List ToggleEvent}

/-- a call that is no edge and changes no toggle key may leave the listener as it is -/
theorem Tracks.same (h : Tracks mode calls l delivered) {call : Call} (hedge : edge mode calls call = none)
    (hheld : ∀ name, (mode name).isSome = true → held (calls ++ [call]) name = held calls name) :
    Tracks mode (calls ++ [call]) l delivered where
  modes := h.modes
  events := by
    rw [edges_snoc, hedge]
    exact h.events.trans (List.append_nil _).symm
  once := h.once
  down name := by
    rw [h.down]
    exact and_congr_right fun hname => by rw [hheld name hname]

theorem held_press (calls : List Call) (key : KeyReport) (name : String) :
    held (calls ++ [.press key]) name = if key.name = name then true else held calls name := by
  rw [held_snoc, Call.sets]
  split_ifs <;> rfl

/-- a press of a toggle key that is not held adds an event, and no other press does -/
theorem Tracks.press (h : Tracks mode calls l delivered) (key : KeyReport) :
    Tracks mode (calls ++ [.press key]) (l.press key).1 delivered := by
  cases hmode : mode key.name with
  | none =>
    rw [press_of_none ((h.modes _).trans hmode)]
    refine h.same (by simp [edge, hmode]) fun name hname => ?_
    have hne : key.name ≠ name := by
      rintro rfl
      rw [hmode] at hname
      cases hname
    rw [held_press, if_neg hne]
  | some m =>
    rw [press_of_some ((h.modes _).trans hmode)]
    by_cases hdown : key.name ∈ l.down
    · have hheld := ((h.down _).1 hdown).2
      rw [if_pos hdown]
      refine h.same (by simp [edge, hheld]) fun name _ => ?_
      rw [held_press]
      split_ifs with hname
      · rw [← hname, hheld]
      · rfl
    · have hup : held calls key.name = false := by
        rw [h.down, hmode] at hdown
        simpa using hdown
      rw [if_neg hdown]
      refine ⟨h.modes, ?_, List.nodup_append.2 ⟨h.once, List.nodup_singleton _, ?_⟩, fun name => ?_⟩
      · rw [edges_snoc, ← List.append_assoc, h.events]
        simp [edge, hup, hmode]
      · rintro name hname _ hkey rfl
        rw [List.mem_singleton.1 hkey] at hname
        exact hdown hname
      · rw [held_press, List.mem_append, h.down, List.mem_singleton]
        split_ifs with hname
        · simp [← hname, hmode]
        · simp [Ne.symm hname]

/-- a release takes the key from those that are down, if it is there -/
theorem Tracks.release (h : Tracks mode calls l delivered) (key : KeyReport) :
    Tracks mode (calls ++ [.release key]) (l.release key) delivered := by
  refine ⟨h.modes, ?_, h.once.erase _, fun name => ?_⟩
  · rw [edges_snoc]
    exact h.events.trans (List.append_nil _).symm
  · show name ∈ l.down.erase key.name ↔ _
    rw [h.once.mem_erase_iff, h.down, held_snoc, Call.sets]
    split_ifs with hname
    · simp [hname]
    · simp [Ne.symm hname]

/-- a poll moves an event, if one waits, to those delivered -/
theorem Tracks.poll (h : Tracks mode calls l delivered) :
    Tracks mode (calls ++ [.poll]) l.poll.2 (delivered ++ l.poll.1.toList) := by
  have hsame : Tracks mode (calls ++ [.poll]) l delivered := h.same rfl fun name _ => held_snoc calls .poll name
  unfold Listener.poll
  cases hevents : l.events with
  | nil =>
    rw [Option.toList_none, List.append_nil]
    exact hsame
  | cons e rest =>
    have hmoved := hsame.events
    rw [hevents, List.append_cons] at hmoved
    exact ⟨hsame.modes, hmoved, hsame.once, hsame.down⟩

/-- **One call.** -/
theorem Tracks.handle (h : Tracks mode calls l delivered) (call : Call) :
    Tracks mode (calls ++ [call]) (l.handle call).1 (delivered ++ (l.handle call).2.toList) := by
  cases call with
  | press key =>
    rw [Listener.handle, Option.toList_none, List.append_nil]
    exact h.press key
  | release key =>
    rw [Listener.handle, Option.toList_none, List.append_nil]
    exact h.release key
  | poll => exact h.poll

/-- **Any calls.** -/
theorem tracks_run (hmodes : ∀ name, given (l.mode? name) = mode name) (hevents : l.events = []) (hdown : l.down = [])
    (calls : List Call) : Tracks mode calls (l.run calls).1 (l.run calls).2 := by
  induction calls using List.reverseRecOn with
  | nil =>
    refine ⟨hmodes, hevents, ?_, fun name => ?_⟩
    · rw [run_nil, hdown]
      exact List.nodup_nil
    · rw [run_nil, hdown]
      simp [held, latest]
  | append_singleton calls call ih =>
    rw [run_snoc]
    exact ih.handle call

/-- a poll delivers the first edge that was not delivered -/
theorem Tracks.poll_eq (h : Tracks mode calls l delivered) : l.poll.1 = (edges mode calls)[delivered.length]? := by
  rw [← h.events, List.getElem?_append_right le_rfl, Nat.sub_self]
  unfold Listener.poll
  cases l.events <;> rfl

theorem poll_events (l : Listener) : l.poll.2.events = l.events.tail := by
  unfold Listener.poll
  cases hevents : l.events with
  | nil => exact hevents
  | cons e rest => rfl

theorem run_polls_events (l : Listener) (calls : List Call) (n : ℕ) :
    (l.run (calls ++ List.replicate n .poll)).1.events = (l.run calls).1.events.drop n := by
  induction n with
  | zero => rw [List.replicate_zero, List.append_nil, List.drop_zero]
  | succ n ih =>
    rw [List.replicate_succ', ← List.append_assoc, run_snoc, ← List.tail_drop, ← ih]
    exact poll_events _

theorem edges_polls (mode : String → Option Value) (calls : List Call) (n : ℕ) :
    edges mode (calls ++ List.replicate n .poll) = edges mode calls := by
  induction n with
  | zero => rw [List.replicate_zero, List.append_nil]
  | succ n ih =>
    rw [List.replicate_succ', ← List.append_assoc, edges_snoc, ih]
    exact List.append_nil _

end Run

/-- **Toggle edges.** Whatever the keyboard and the loop call, the events that polls delivered and those that wait are
the edges of the table's toggle keys in their order, one each; each poll delivers the next edge, and enough of them
deliver all. The keys that are down are the toggle keys whose latest callback is a press. -/
theorem edges_delivered {table : List (Value × Value)} (h : ∀ e ∈ table, HasCase e.1) :
    ∃ l₀, ofTable table = .ok l₀ ∧ ∀ calls : List Call,
      (l₀.run calls).2 ++ (l₀.run calls).1.events = edges (tableMode table) calls ∧
      (l₀.run calls).1.poll.1 = (edges (tableMode table) calls)[(l₀.run calls).2.length]? ∧
      (∀ n, (edges (tableMode table) calls).length ≤ n →
        (l₀.run (calls ++ List.replicate n .poll)).2 = edges (tableMode table) calls) ∧
      (l₀.run calls).1.down.Nodup ∧
      ∀ name, name ∈ (l₀.run calls).1.down ↔ (tableMode table name).isSome = true ∧ held calls name = true := by
  obtain ⟨l₀, hl₀, hevents, hdown, hmodes⟩ := ofTable_modes h
  refine ⟨l₀, hl₀, fun calls => ?_⟩
  have htracks := tracks_run hmodes hevents hdown
  refine ⟨(htracks calls).events, (htracks calls).poll_eq, fun n hn => ?_, (htracks calls).once, (htracks calls).down⟩
  -- no more events wait than there are edges
  have hwait : (l₀.run calls).1.events.drop n = [] := by
    refine List.drop_eq_nil_of_le (le_trans ?_ hn)
    rw [← (htracks calls).events, List.length_append]
    exact Nat.le_add_left _ _
  have hall := (htracks (calls ++ List.replicate n .poll)).events
  rwa [run_polls_events, hwait, List.append_nil, edges_polls] at hall

/-- two keys, one of them named twice, and bytes that no key has for its name -/
def mixedTable : List (Value × Value) :=
  [(.str "F1", .str "a"), (.str "Pause", .str "og"), (.bytes [70], .str "c"), (.str "f1", .str "b")]

/-- presses that repeat, another key, releases without a press, and few polls -/
def mixedCalls : List Call :=
  let f1 : KeyReport := ⟨none, "Key.f1"⟩
  let pause : KeyReport := ⟨none, "Key.pause"⟩
  let x : KeyReport := ⟨some "X", "'x'"⟩
  [.release pause, .press f1, .press f1, .poll, .press x, .press pause, .press f1, .release x, .release f1,
    .press pause, .press f1, .poll]

theorem edges_delivered_mixed : (∀ e ∈ mixedTable, HasCase e.1) ∧ ∃ l₀, ofTable mixedTable = .ok l₀ ∧
    (l₀.run (mixedCalls ++ List.replicate 3 .poll)).2 =
      [⟨.str "b", "f1"⟩, ⟨.str "og", "pause"⟩, ⟨.str "b", "f1"⟩] := by
  have hkeys : ∀ e ∈ mixedTable, HasCase e.1 := by
    simp [mixedTable, HasCase]
  obtain ⟨l₀, hl₀, hrun⟩ := edges_delivered hkeys
  refine ⟨hkeys, l₀, hl₀, ?_⟩
  have hedges : edges (tableMode mixedTable) mixedCalls =
      [⟨.str "b", "f1"⟩, ⟨.str "og", "pause"⟩, ⟨.str "b", "f1"⟩] := by
    rfl
  have hall := (hrun mixedCalls).2.2.1 3
  rw [hedges] at hall
  exact hall le_rfl

end Listener
end KeyHold
