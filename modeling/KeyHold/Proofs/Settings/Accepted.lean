/-
Accepted settings.

Settings that are read have passed their check, so the engine's configuration in them is accepted. The check leaves
numbers through that are not finite: no comparison with a bound refuses an infinite mean or "not a number". It leaves
names of modes through, too, that are too long to be written in an entry of the journal.

- `calls_return`: with finite samples, and names that can be written, every call of one of the modes returns.
- `endless_faults`: with an infinite mean a session starts and faults at its first tick.
-/
import Mathlib.Tactic
import KeyHold.Settings.Data
import KeyHold.Proofs.Sequence
import KeyHold.Proofs.Session.Total

namespace KeyHold

variable {ω α β : Type}

namespace Settings

/-- settings that are read have passed the check -/
theorem check_of_ofData {data : Value} {S : Settings} (h : ofData data = .ok S) : S.check = .ok () := by
  cases data with
  | map entries =>
    unfold ofData ofEntries at h
    dsimp only at h
    split at h
    · obtain ⟨modes, -, h⟩ := ok_of_bind h
      obtain ⟨engine, -, h⟩ := ok_of_bind (ok_of_mapError h)
      obtain ⟨hid, -, h⟩ := ok_of_bind h
      obtain ⟨host, -, h⟩ := ok_of_bind h
      obtain ⟨logging, -, h⟩ := ok_of_bind h
      obtain ⟨_, hcheck, h⟩ := ok_of_bind h
      obtain rfl := Except.ok.inj h
      exact hcheck
    · -- unknown sections are refused
      obtain ⟨_, -, h⟩ := ok_of_bind h
      obtain ⟨_, h, -⟩ := ok_of_bind h
      cases h
  | _ => cases h

/-- in settings that are accepted the engine's configuration is -/
theorem accepted_of_check {S : Settings} (h : S.check = .ok ()) : S.engine.Accepted := by
  obtain ⟨_, he, -⟩ := ok_of_bind h
  unfold EngineConfig.check at he
  cases hf : S.engine.flaw? with
  | none => exact hf
  | some f =>
    rw [hf] at he
    cases he

/-- the names that a call shows are names of the modes -/
theorem named_mem {E : Setup ω} {modes : List Policy} {x : Session} (hx : Session.Numeric modes x) {call : Session.Call}
    (hm : call.Of modes) {name : Value} (h : name ∈ call.named E x) : ∃ p ∈ modes, p.name = name := by
  have hrunning : name ∈ (x.policy.map Policy.name).toList → ∃ p ∈ modes, p.name = name := by
    intro h
    obtain ⟨p, hp, rfl⟩ := Option.map_eq_some_iff.1 (Option.mem_toList.1 h)
    exact ⟨p, hx.policy p hp, rfl⟩
  cases call with
  | start p now entropy =>
    rcases List.mem_append.1 h with h | h
    · exact hrunning h
    · exact ⟨p, hm, (List.mem_singleton.1 h).symm⟩
  | stop => exact hrunning h
  | tick now =>
    unfold Session.Call.named at h
    dsimp only at h
    split_ifs at h
    · exact hrunning h
    · cases h

/-- all names are written if each of them is -/
theorem writeAll_eq_ok_iff {depth : Option ℕ} {names : List Value} :
    (forM names fun name => (Value.writePlain? depth name).map fun _ => ()) = Except.ok () ↔
      ∀ name ∈ names, ∃ text, name.writePlain? depth = .ok text := by
  induction names with
  | nil => exact ⟨fun _ => nofun, fun _ => rfl⟩
  | cons name names ih =>
    rw [List.forM_cons, List.forall_mem_cons, ← ih]
    cases name.writePlain? depth with
    | error e => exact ⟨nofun, fun ⟨⟨_, h⟩, _⟩ => (by cases h)⟩
    | ok text => exact ⟨fun h => ⟨⟨text, rfl⟩, h⟩, fun h => h.2⟩

/-- a call returns if what it does returns, and the names that it shows can be written -/
theorem outcome_eq_ok_iff {E : Setup ω} {depth : Option ℕ} {s : Scene ω} {call : Session.Call} :
    call.outcome E depth s = .ok () ↔ (call.act E s).1 = .ok () ∧
      ∀ name ∈ call.named E s.session, ∃ text, name.writePlain? depth = .ok text := by
  unfold Session.Call.outcome
  rw [← writeAll_eq_ok_iff]
  cases (call.act E s).1 with
  | error e => exact ⟨nofun, fun h => (by cases h.1)⟩
  | ok _ => exact (and_iff_right rfl).symm

/-- **The engine is total on settings that are accepted, as long as its samples are finite** and the names of its modes
can be written. On a rig whose key calls never fault, after any calls at any stamps, every call of one of the modes
returns. -/
theorem calls_return {data : Value} {S : Settings} (hS : ofData data = .ok S) {E : Setup ω} (hE : E.config = S.engine)
    (hR : E.rig.Reliable) (hN : E.SteadySamples S.modes) (depth : Option ℕ)
    (hnames : ∀ p ∈ S.modes, ∃ text, p.name.writePlain? depth = .ok text) (g : Generator) (w : ω)
    (calls : List Session.Call) (call : Session.Call) (hm : ∀ c ∈ call :: calls, c.Of S.modes) :
    call.outcome E depth (Session.run E calls ⟨{ generator := g }, w⟩) = .ok () := by
  have hc : E.config.Accepted := hE ▸ accepted_of_check (check_of_ofData hS)
  obtain ⟨hcall, hcalls⟩ := List.forall_mem_cons.1 hm
  have hx : Session.Numeric S.modes (Session.run E calls ⟨{ generator := g }, w⟩).session :=
    Session.run_numeric hR hN hc hcalls ⟨Decimal.finite_zero, nofun, nofun⟩
  obtain ⟨_, hr, -⟩ := (Session.call_returns hR hN hc hcall _ hx).returns
  refine outcome_eq_ok_iff.2 ⟨hr, fun name hname => ?_⟩
  obtain ⟨p, hp, rfl⟩ := named_mem hx hcall hname
  exact hnames p hp

/-- settings that are read and pass a test -/
theorem exists_of_any (data : Value) (test : Settings → Bool) (h : (ofData data).toOption.any test = true) :
    ∃ S, ofData data = .ok S ∧ test S = true := by
  cases hS : ofData data with
  | error e =>
    rw [hS] at h
    cases h
  | ok S =>
    rw [hS] at h
    exact ⟨S, rfl, h⟩

/-- a start of a mode in the default settings, a tick that ends its first hold, and one past the timeout -/
theorem calls_return_default : ∃ S p, ofData (.map []) = .ok S ∧ p ∈ S.modes ∧
    Session.Call.outcome ⟨S.engine, .mean, .quiet⟩ (some 900) (Session.run ⟨S.engine, .mean, .quiet⟩
      [.start p 0 1, .tick 1000] (⟨{ generator := .default }, ()⟩ : Scene Unit)) (.tick 151000) = .ok () := by
  obtain ⟨S, hS, h⟩ := exists_of_any (.map []) (fun S => decide (S.modes ≠ [] ∧
    (∀ p ∈ S.modes, ((p.name.writePlain? (some 900)).isOk = true)) ∧
    (∀ p ∈ S.modes, ∀ ph ∈ p.phases, Decimal.Finite (Normal.atLeast S.engine.minHoldMs ph.mean)) ∧
    Decimal.Finite (Normal.atLeast S.engine.glitchGapMinMs S.engine.glitchGapMeanMs) ∧
    Decimal.Finite S.engine.travelMeanUs ∧ Decimal.Finite S.engine.bounceOffMeanUs ∧
    Decimal.Finite S.engine.bounceOnMeanUs)) (by decide +kernel)
  obtain ⟨hne, hnames, hhold, hgap, htravel, hoff, hon⟩ := of_decide_eq_true h
  obtain ⟨p, hp⟩ := List.exists_mem_of_ne_nil _ hne
  refine ⟨S, p, hS, hp, calls_return hS (E := ⟨S.engine, .mean, .quiet⟩) rfl Rig.quiet_reliable ?_ (some 900) ?_ _ _ _
    (.tick 151000) ?_⟩
  · exact ⟨Noise.mean_steady _ htravel hoff hon, fun p hp ph hph _ => hhold p hp ph hph, fun _ => hgap⟩
  · intro p hp
    have hname := hnames p hp
    cases hwritten : p.name.writePlain? (some 900) with
    | ok text => exact ⟨text, rfl⟩
    | error e =>
      rw [hwritten] at hname
      cases hname
  · simp [Session.Call.Of, hp]

/-- a mode with a phase that never ends -/
def endless : Value := .map [(.str "modes", .map [(.str "m", .map [
  (.str "toggle_key", .str "x"),
  (.str "phases", .list [.map [(.str "key", .str "a"), (.str "mean_ms", .str "inf")]])])])]

/-- **Accepted settings whose samples are not finite**: on a rig without noise whose key calls never fault, a session of
this mode starts, and then faults at its first tick. -/
theorem endless_faults : ∃ S p, ofData endless = .ok S ∧ p ∈ S.modes ∧
    (Session.start ⟨S.engine, .mean, .quiet⟩ p 0 0 (⟨{}, ()⟩ : Scene Unit)).1.isOk = true ∧
    (Session.tick ⟨S.engine, .mean, .quiet⟩ 2
      (Session.start ⟨S.engine, .mean, .quiet⟩ p 0 0 (⟨{}, ()⟩ : Scene Unit)).2).1.isOk = false := by
  obtain ⟨S, hS, h⟩ := exists_of_any endless (fun S => decide (∃ p ∈ S.modes,
    (Session.start ⟨S.engine, .mean, .quiet⟩ p 0 0 (⟨{}, ()⟩ : Scene Unit)).1.isOk = true ∧
    (Session.tick ⟨S.engine, .mean, .quiet⟩ 2
      (Session.start ⟨S.engine, .mean, .quiet⟩ p 0 0 (⟨{}, ()⟩ : Scene Unit)).2).1.isOk = false)) (by decide +kernel)
  obtain ⟨p, hp, hstart, htick⟩ := of_decide_eq_true h
  exact ⟨S, p, hS, hp, hstart, htick⟩

end Settings
end KeyHold
