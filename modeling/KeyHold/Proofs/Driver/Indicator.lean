/-
The indicator of the mode.

A driver reports the mode at the end of an entry point, when the call on the session has returned. A call that faults
skips the report, and it may have changed the mode before: a stop leaves the session idle also when a release fails, and
a start runs its policy before the first key goes down. So what was reported last is the mode at all times of a run
exactly if no call of it that faults changes the mode (`indicator_iff`).

- `Indicated`: what was reported last is the mode, and no two reports in a row are the same.
- `indicator_stale`: a stop that faults leaves the indicator at a mode that no longer runs, and the next start reports the
  same mode once more.

The names of modes may be any values that a mapping takes as keys.
-/
import Mathlib.Tactic
import KeyHold.Proofs.Driver.Entry
import KeyHold.Proofs.Driver.Leak
import KeyHold.Proofs.Session.Running

namespace KeyHold

variable {ω : Type}

/-- the name of every mode may be a key -/
def Registry.Keyed (r : Registry) : Prop := ∀ p ∈ r.policies, p.name.hashable = true

namespace Driver

open Act Session

/-! ## The indicator -/

/-- what was reported last is the mode, nothing if nothing was; and no two reports in a row are the same -/
structure Indicated (s : Scene (Watched ω)) : Prop where
  shown : s.world.reports.getLastD .null = s.session.mode
  changing : s.world.reports.IsChain fun v w => w.same v = false

variable {D : Driver ω} {s : Scene (Watched ω)} {c : Call}

/-- what is reported next is not the same as what was reported last -/
theorem changing_snoc {reports : List Value} {v : Value} (h : reports.IsChain fun v w => w.same v = false)
    (hv : v.same (reports.getLastD .null) = false) : (reports ++ [v]).IsChain fun v w => w.same v = false := by
  refine h.append (List.isChain_singleton v) fun x hx y hy => ?_
  obtain rfl : v = y := by simpa using hy
  have hlast : reports.getLastD .null = x := by rw [List.getLastD_eq_getLast?, Option.mem_def.1 hx, Option.getD_some]
  rwa [hlast] at hv

theorem Call.onSession_start {D : Driver ω} {s : Scene ω} {w : ω} {p : Policy} {now entropy : ℤ}
    (h : c.onSession D s = .ok (.start p now entropy, w)) :
    s.session.mode.same p.name = false ∧ p ∈ D.registry.policies := by
  rcases Call.onSession_cases h with ⟨-, hof⟩ | ⟨q, hq, hother, hstart, -⟩
  · exact (List.not_mem_nil (hof [])).elim
  · cases hstart
    exact ⟨hother, hq⟩

/-- after a call that returned, the mode is the one before if they are the same -/
theorem mode_eq_of_same (hk : D.registry.Keyed) (hm : s.session.mode.hashable = true) {call : Session.Call}
    {w : Watched ω} (hcall : c.onSession D.watched s = .ok (call, w)) {y : Session}
    (hruns : call.Runs s.session.policy y.policy) (hsame : y.mode.same s.session.mode = true) :
    y.mode = s.session.mode := by
  have hnone : y.policy = none → y.mode = s.session.mode := by
    intro hy
    have hnull : y.mode = .null := by rw [mode, hy]
    rw [hnull] at hsame ⊢
    exact (Value.eq_of_null_same hsame).symm
  cases call with
  | start p now entropy =>
    obtain ⟨hother, hp⟩ := Call.onSession_start hcall
    have hname : y.mode = p.name := by rw [mode, show y.policy = some p from hruns]
    rw [hname, Value.same_comm (hk p hp) hm, hother] at hsame
    cases hsame
  | stop => exact hnone hruns
  | tick now =>
    rcases hruns with hy | hy
    · rw [mode, mode, hy]
    · exact hnone hy

/-- after a call the mode is the one before, none, or that of a policy that is registered -/
theorem mode_hashable (hk : D.registry.Keyed) (hm : s.session.mode.hashable = true) {call : Session.Call}
    {w : Watched ω} (hcall : c.onSession D.watched s = .ok (call, w)) {y : Session}
    (hruns : call.Runs s.session.policy y.policy ∨ y.policy = none) : y.mode.hashable = true := by
  have hnone : y.policy = none → y.mode.hashable = true := by
    intro hy
    rw [mode, hy]
    rfl
  rcases hruns with hruns | hy
  · cases call with
    | start p now entropy =>
      rw [mode, show y.policy = some p from hruns]
      exact hk p (Call.onSession_start hcall).2
    | stop => exact hnone hruns
    | tick now =>
      rcases hruns with hy | hy
      · rwa [mode, hy]
      · exact hnone hy
  · exact hnone hy

/-- **One call**: it leaves the indicator right unless it faults and changes the mode. -/
theorem step_indicated (hk : D.registry.Keyed) (hm : s.session.mode.hashable = true) (h : Indicated s) (c : Call) :
    (D.watched.step s c).session.mode.hashable = true ∧ (Indicated (D.watched.step s c) ↔
      ((c.act D.watched s).1.isOk = false → (D.watched.step s c).session.mode = s.session.mode)) := by
  cases hcall : c.onSession D.watched s with
  | error e =>
    rw [step, act_error _ _ hcall]
    exact ⟨hm, fun _ _ => rfl, fun _ => h⟩
  | ok r =>
    obtain ⟨call, w⟩ := r
    have hact := act_ok D.watched s hcall
    obtain ⟨-, hreports⟩ := written hcall
    have hruns := call_policy (E := D.watched.setup) call ⟨s.session, w⟩
    unfold Ends at hruns
    rcases hs : call.act D.watched.setup ⟨s.session, w⟩ with ⟨e | _, t⟩ <;> rw [hs] at hact hruns
    · -- a fault skips the report
      have hstep : D.watched.step s c = t := congrArg Prod.snd hact
      rw [hstep, hact] at hreports
      rw [hstep, hact]
      refine ⟨mode_hashable hk hm hcall hruns, fun ht _ => ?_, fun hmode => ?_⟩
      · rw [← ht.shown, ← h.shown, hreports]
        exact congrArg (List.getLastD · Value.null) (List.append_nil _)
      · have hsame : t.world.reports = s.world.reports := hreports.trans (List.append_nil _)
        refine ⟨?_, ?_⟩
        · rw [hsame, h.shown, hmode rfl]
        · rw [hsame]
          exact h.changing
    · have hsession : (D.watched.step s c).session = t.session := congrArg (fun r => r.2.session) hact
      have hok : (c.act D.watched s).1 = .ok () := congrArg Prod.fst hact
      rw [hsession, hok] at hreports
      rw [hsession, hok]
      refine ⟨mode_hashable hk hm hcall (Or.inl hruns), fun _ hfault => (by cases hfault), fun _ => ?_⟩
      cases hsame : t.session.mode.same s.session.mode with
      | true =>
        have hkept : (D.watched.step s c).world.reports = s.world.reports := by
          rw [hreports]
          simp [hsame]
        refine ⟨?_, ?_⟩
        · rw [hkept, hsession, h.shown, mode_eq_of_same hk hm hcall hruns hsame]
        · rw [hkept]
          exact h.changing
      | false =>
        have hnew : (D.watched.step s c).world.reports = s.world.reports ++ [t.session.mode] := by
          rw [hreports]
          simp [hsame, Except.isOk, Except.toBool]
        refine ⟨?_, ?_⟩
        · rw [hnew, hsession, List.getLastD_concat]
        · rw [hnew]
          refine changing_snoc h.changing ?_
          rwa [h.shown]

/-! ## Runs -/

/-- no call of a run that faults changes the mode -/
def FaultsKeepMode (D : Driver ω) : List Call → Scene ω → Prop
  | [], _ => True
  | c :: calls, s =>
    ((c.act D s).1.isOk = false → (D.step s c).session.mode = s.session.mode) ∧ FaultsKeepMode D calls (D.step s c)

theorem step_watched (D : Driver ω) (s : Scene (Watched ω)) (c : Call) :
    (D.watched.step s c).unwatched = D.step s.unwatched c := run_watched D [c] s

theorem faultsKeepMode_watched (D : Driver ω) (calls : List Call) (s : Scene (Watched ω)) :
    FaultsKeepMode D.watched calls s ↔ FaultsKeepMode D calls s.unwatched := by
  induction calls generalizing s with
  | nil => exact Iff.rfl
  | cons c calls ih =>
    obtain ⟨hanswer, hsession, -⟩ := operate_alike (r := D.registry) (c := D.config) (N := D.noise)
      D.host.watched_alike (.driver c) s.session s.world s.world.world rfl
    have hanswer : (c.act D.watched s).1 = (c.act D s.unwatched).1 := hanswer
    have hsession : (D.watched.step s c).session = (D.step s.unwatched c).session := hsession
    rw [FaultsKeepMode, FaultsKeepMode, ih, step_watched, hanswer, hsession]
    exact Iff.rfl

theorem run_indicated (hk : D.registry.Keyed) (hm : s.session.mode.hashable = true) (h : Indicated s)
    (calls : List Call) :
    (∀ pre, pre <+: calls → Indicated (D.watched.run pre s)) ↔ FaultsKeepMode D.watched calls s := by
  induction calls generalizing s with
  | nil =>
    refine ⟨fun _ => trivial, fun _ pre hpre => ?_⟩
    rw [List.prefix_nil.1 hpre]
    exact h
  | cons c calls ih =>
    obtain ⟨hm', hstep⟩ := step_indicated hk hm h c
    constructor
    · intro hall
      have hnext : Indicated (D.watched.step s c) := hall [c] ⟨calls, rfl⟩
      refine ⟨hstep.1 hnext, (ih hm' hnext).1 fun pre hpre => ?_⟩
      exact hall (c :: pre) (List.cons_prefix_cons.2 ⟨rfl, hpre⟩)
    · rintro ⟨hkeep, hrest⟩ pre hpre
      cases pre with
      | nil => exact h
      | cons d pre =>
        obtain ⟨rfl, htail⟩ := List.cons_prefix_cons.1 hpre
        have hnext : Indicated (D.watched.step s d) := hstep.2 hkeep
        exact (ih hm' hnext).2 hrest pre htail

/-- **The indicator shows the mode at all times of a run exactly if no call of it that faults changes the mode**: whatever
calls are made, on any host, whichever of its key calls fault. -/
theorem indicator_iff (hk : D.registry.Keyed) (g : Generator) (w : ω) (calls : List Call) :
    (∀ pre, pre <+: calls → Indicated (D.watched.run pre (startWatched g w))) ↔
      FaultsKeepMode D calls ⟨{ generator := g }, w⟩ := by
  have hfresh : Indicated (startWatched g w) := ⟨rfl, List.isChain_nil⟩
  rw [run_indicated hk rfl hfresh, faultsKeepMode_watched]
  exact Iff.rfl

/-- a tick before the timeout keeps the mode, also when it faults -/
theorem tick_keepsMode (D : Driver ω) (s : Scene ω) (now : Option ℤ)
    (h : elapsed (now.getD (D.host.stamp s.world)) s.session.startedAt < D.config.safetyTimeoutMs) :
    (D.step s (.tick now)).session.mode = s.session.mode := by
  have hlast : Lasting s.session (Session.tick D.setup (now.getD (D.host.stamp s.world)) s).2.session :=
    tick_lasts (E := D.setup) h
  have hsession : (D.step s (.tick now)).session =
      (Session.tick D.setup (now.getD (D.host.stamp s.world)) s).2.session := step_session D s (c := .tick now) rfl
  rw [hsession, mode, mode, hlast.policy]

/-- a bench where the first release fails -/
def benchNoFirstUp : Bench := { faulty := fun d n => d = .up && n == 0 }

theorem plain_keyed : plain.registry.Keyed := by
  have hall : (plain.registry.policies.all fun p => p.name.hashable) = true := by decide +kernel
  exact fun p hp => List.all_eq_true.1 hall p hp

/-- a tick whose release fails, a tick that returns, and a toggle -/
theorem indicator_iff_plain :
    let calls : List Call := [.toggle (.str "og") (some 0), .tick (some 900), .tick (some 901), .toggle (.str "og") none]
    ((Call.tick (some 900)).act plain (plain.run (calls.take 1) ⟨{ generator := .default }, benchNoFirstUp⟩)).1.isOk =
        false ∧
      ∀ pre, pre <+: calls → Indicated (plain.watched.run pre (startWatched .default benchNoFirstUp)) := by
  intro calls
  refine ⟨by decide +kernel, (indicator_iff plain_keyed .default benchNoFirstUp calls).2 ?_⟩
  refine ⟨fun hfault => absurd hfault (by decide +kernel), fun _ => ?_, fun hfault => absurd hfault (by decide +kernel),
    fun hfault => absurd hfault (by decide +kernel), trivial⟩
  apply tick_keepsMode
  decide +kernel

/-- **The indicator goes stale.** A session is toggled, toggled again while its release fails, and toggled once more. After
the second call nothing runs, but the mode that was reported last is shown still; the third call reports it again. -/
theorem indicator_stale :
    let og : Call := .toggle (.str "og") none
    let start := startWatched .default benchNoFirstUp
    (plain.watched.run [og, og] start).session.mode = .null ∧
      (plain.watched.run [og, og] start).world.reports = [.str "og"] ∧
      (plain.watched.run [og, og, og] start).world.reports = [.str "og", .str "og"] := by
  intro og start
  refine ⟨?_, ?_, ?_⟩
  · apply Value.eq_of_null_same
    decide +kernel
  · apply Value.eq_of_sameAll_str ["og"]
    decide +kernel
  · apply Value.eq_of_sameAll_str ["og", "og"]
    decide +kernel

end Driver
end KeyHold
