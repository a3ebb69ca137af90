/-
Switching from one policy to another.

A start of a policy while another one runs first lets go of what that one holds, so no two keys are down at once, and
then presses the first key of its own. Nothing of the policy before is left: not its key, its place in the cycle, its
split hold or its gap. So until the next start only keys of the new policy are called, by phases, bounces and presses
after gaps alike.

- `OnlyIn p x`: nothing but `p` runs, and only its keys are held. A move that starts nothing keeps this, and calls keys
  of `p` only (`Move.onlyIn`).
- `start_switches`: **a switch**, from any posture of the policy before.
-/
import Mathlib.Tactic
import KeyHold.Proofs.Session.ScanRate

namespace KeyHold

variable {ω : Type}

namespace Session

open Act Tape

/-- a call that starts no policy -/
def Call.Continues : Call → Prop
  | .start _ _ _ => False
  | _ => True

/-- nothing but `p` runs, and only keys of it are held -/
structure OnlyIn (p : Policy) (x : Session) : Prop where
  policy : ∀ q, x.policy = some q → q = p
  held : ∀ k ∈ x.held, k ∈ p.keys

variable {E : Setup ω} {modes : List Policy} {p : Policy} {x y : Session} {new : Tape}

theorem Released.key_eq {k : String} {n : ℕ} (h : Released k n new) : ∀ a ∈ new, a.key = k := by
  intro a ha
  cases h with
  | plain => simp at ha; simp [ha]
  | bounced => simp at ha; rcases ha with rfl | rfl | rfl <;> rfl

theorem LetGo.key_mem {held : List String} {n : ℕ} (h : LetGo held n new) : ∀ a ∈ new, a.key ∈ held := by
  intro a ha
  cases h with
  | nothing => simp at ha
  | key hr => rw [hr.key_eq a ha]; exact List.mem_singleton_self _

theorem OnlyIn.idled (n : ℕ) (g : Generator) : OnlyIn p (stopped x n g) := ⟨nofun, nofun⟩

theorem Holding.onlyIn (h : Holding p x) : OnlyIn p x := by
  constructor
  · intro q hq
    exact Option.some.inj (hq.symm.trans h.policy)
  · intro k hk
    rw [h.held] at hk
    rw [List.mem_singleton.1 hk]
    exact p.phase_key_mem _

theorem OnlyIn.begun (hx : x.policy = some p) (now : ℤ) (g : Generator) : OnlyIn p (begun E p x now g) :=
  Holding.onlyIn ⟨hx, rfl, rfl⟩

theorem Transition.onlyIn {now : ℤ} (h : Transition E now x y new) (hx : OnlyIn p x) :
    OnlyIn p y ∧ ∀ a ∈ new, a.key ∈ p.keys := by
  cases h with
  | timedOut running late calls =>
    refine ⟨OnlyIn.idled _ _, fun a ha => ?_⟩
    exact hx.held _ (calls.key_mem a ha)
  | parted holding inTime due armed calls share =>
    obtain rfl := hx.policy _ holding.policy
    refine ⟨⟨hx.policy, fun k hk => ?_⟩, fun a ha => ?_⟩
    · exact hx.held k (List.mem_of_mem_erase hk)
    · rw [calls.key_eq a ha]
      exact Policy.phase_key_mem _ _
  | advanced holding inTime due unarmed calls =>
    obtain rfl := hx.policy _ holding.policy
    refine ⟨OnlyIn.begun (by exact holding.policy) _ _, fun a ha => ?_⟩
    rcases List.mem_append.1 ha with ha | ha
    · rw [calls.key_eq a ha]
      exact Policy.phase_key_mem _ _
    · rw [List.mem_singleton.1 ha]
      exact Policy.phase_key_mem _ _
  | skipped waiting inTime pending due spent =>
    obtain rfl := hx.policy _ waiting.policy
    refine ⟨OnlyIn.begun (by exact waiting.policy) _ _, fun a ha => ?_⟩
    rw [List.mem_singleton.1 ha]
    exact Policy.phase_key_mem _ _
  | resumed waiting inTime pending due left mem =>
    obtain rfl := hx.policy _ waiting.policy
    refine ⟨⟨hx.policy, fun k hk => ?_⟩, fun a ha => ?_⟩
    · rw [List.mem_singleton.1 hk]
      exact mem
    · rw [List.mem_singleton.1 ha]
      exact mem

/-- what starts nothing calls keys of the running policy only -/
theorem Move.onlyIn {call : Call} (h : Move E x call y new) (hc : call.Continues) (hx : OnlyIn p x) :
    OnlyIn p y ∧ ∀ a ∈ new, a.key ∈ p.keys := by
  cases h with
  | early => exact ⟨hx, fun a ha => by cases ha⟩
  | tick ht => exact ht.onlyIn hx
  | rest => exact ⟨hx, fun a ha => by cases ha⟩
  | stop running calls => exact ⟨OnlyIn.idled _ _, fun a ha => hx.held _ (calls.key_mem a ha)⟩
  | start => exact hc.elim

theorem run_onlyIn {s : Scene (Taped ω)} (hR : E.rig.Reliable) (hc : E.config.Accepted) (hN : E.SteadySamples modes)
    (h : Smooth modes s) (hx : OnlyIn p s.session) {calls : List Call} (hcont : ∀ call ∈ calls, call.Continues) :
    ∃ more, (run E.taped calls s).world.tape = s.world.tape ++ more ∧ ∀ a ∈ more, a.key ∈ p.keys := by
  induction calls generalizing s with
  | nil => exact ⟨[], (List.append_nil _).symm, fun a ha => by cases ha⟩
  | cons call calls ih =>
    obtain ⟨hcall, hcalls⟩ := List.forall_mem_cons.1 hcont
    have hm : call.Of modes := by
      cases call with
      | start => exact hcall.elim
      | stop => trivial
      | tick => trivial
    obtain ⟨-, hsmooth, new, hmove, htape⟩ := step_moves hR hc hN h hm
    obtain ⟨honly, hnew⟩ := hmove.onlyIn hcall hx
    obtain ⟨more, hrun, hmore⟩ := ih hsmooth honly hcalls
    refine ⟨new ++ more, ?_, fun a ha => ?_⟩
    · calc (run E.taped calls (step E.taped s call)).world.tape
          = (step E.taped s call).world.tape ++ more := hrun
        _ = s.world.tape ++ (new ++ more) := by rw [htape, List.append_assoc]
    · rcases List.mem_append.1 ha with ha | ha
      · exact hnew a ha
      · exact hmore a ha

/-- the first phase of `p` is held since `now`, and so is the session -/
structure AtFirst (p : Policy) (now : ℤ) (x : Session) : Prop where
  holding : Holding p x
  index : x.phaseIndex = 0
  startedAt : x.startedAt = now
  phaseAt : x.phaseAt = now

/-- what a start of `p` at `now` makes of a scene `s` -/
structure Started (p : Policy) (now : ℤ) (s t : Scene (Taped ω)) : Prop where
  /-- what is held is let go, which leaves nothing down, and then the first key goes down -/
  calls : ∃ n new, LetGo s.session.held n new ∧ asserted (s.world.tape ++ new) = [] ∧
    t.world.tape = s.world.tape ++ (new ++ [⟨.down, (p.phase 0).key, true⟩])
  first : AtFirst p now t.session

theorem begun_atFirst (n : ℕ) (now : ℤ) (g : Generator) : AtFirst p now (begun E p (opened p x now n) now g) :=
  ⟨⟨rfl, rfl, rfl⟩, rfl, rfl, rfl⟩

theorem Move.started {now entropy : ℤ} (h : Move E x (.start p now entropy) y new) :
    ∃ n g calls, LetGo x.held n calls ∧ y = begun E p (opened p x now n) now g ∧
      new = calls ++ [⟨.down, (p.phase 0).key, true⟩] := by
  cases h with
  | start calls => exact ⟨_, _, _, calls, rfl, rfl⟩

theorem Smooth.started {s : Scene (Taped ω)} (hR : E.rig.Reliable) (hc : E.config.Accepted)
    (hN : E.SteadySamples modes) (h : Smooth modes s) (hp : p ∈ modes) (now entropy : ℤ) :
    ∃ t, start E.taped p now entropy s = (.ok (), t) ∧ Smooth modes t ∧ Started p now s t := by
  obtain ⟨hr, hsmooth, new, hmove, htape⟩ := step_moves hR hc hN h (show Call.Of modes (.start p now entropy) from hp)
  obtain ⟨n, g, calls, hcalls, hbegun, rfl⟩ := hmove.started
  have hdown : asserted (s.world.tape ++ calls) = [] :=
    (hcalls.grip h.grip).asserted_eq (hcalls.allTaken h.taken).not_faulted
  refine ⟨step E.taped s (.start p now entropy), Prod.ext hr rfl, hsmooth, ⟨n, calls, hcalls, hdown, htape⟩, ?_⟩
  rw [hbegun]
  exact begun_atFirst n now g

/-- **A switch leaves nothing of the policy before.** Take any session that runs a policy `a`, whatever calls have led
to it, on a rig whose key calls never fault and with finite samples: it holds the key of its phase or waits out a gap.
A start of `b` returns; it lets go of the key that is held, if one is, and presses the first key of `b`, whose first
phase begins then. Whatever is called until the next start, only keys of `b` are pressed. -/
theorem start_switches (hR : E.rig.Reliable) (hc : E.config.Accepted) (hN : E.SteadySamples modes) (g : Generator)
    (w : ω) (before : List Call) (hm : ∀ call ∈ before, call.Of modes) (a b : Policy) (hb : b ∈ modes)
    (ha : (run E.taped before (Scene.fresh g w)).session.policy = some a) (now entropy : ℤ) :
    let s := run E.taped before (Scene.fresh g w)
    (Holding a s.session ∨ Waiting a s.session) ∧
      ∃ t, start E.taped b now entropy s = (.ok (), t) ∧ Started b now s t ∧
        ∀ calls : List Call, (∀ call ∈ calls, call.Continues) →
          ∃ more, (run E.taped calls t).world.tape = t.world.tape ++ more ∧ ∀ x ∈ more, x.key ∈ b.keys := by
  intro s
  have h : Smooth modes s := run_smooth hR hc hN (smooth_fresh g w) hm
  obtain ⟨t, hstart, hsmooth, hstarted⟩ := h.started hR hc hN hb now entropy
  have honly : OnlyIn b t.session := hstarted.first.holding.onlyIn
  refine ⟨h.running ha, t, hstart, hstarted, ?_⟩
  intro calls hcalls
  exact run_onlyIn hR hc hN hsmooth honly hcalls

/-- a switch from a policy of two keys to another, that shares one of them, and two ticks of it -/
theorem start_switches_extra :
    let s := run (plain 20).taped [.start .og 0 1, .tick 900] (Scene.fresh .default ())
    ∃ t, start (plain 20).taped .extra 1000 7 s = (.ok (), t) ∧ Started .extra 1000 s t ∧
      ∃ more, (run (plain 20).taped [.tick 1700, .tick 4000] t).world.tape = t.world.tape ++ more ∧
        ∀ x ∈ more, x.key ∈ ["up", "a"] := by
  obtain ⟨a, ha⟩ : ∃ a, (run (plain 20).taped [.start .og 0 1, .tick 900] (Scene.fresh .default ())).session.policy = some a :=
    Option.isSome_iff_exists.1 (by decide +kernel)
  obtain ⟨-, t, hstart, hstarted, hkeys⟩ := start_switches (E := plain 20) Rig.quiet_reliable
    (plain_accepted 20) (plain_samples 20 Policy.builtin (by decide +kernel)) .default () [.start .og 0 1, .tick 900]
    (by simp [Call.Of, Policy.builtin]) a .extra (by simp [Policy.builtin]) ha 1000 7
  exact ⟨t, hstart, hstarted, hkeys [.tick 1700, .tick 4000] (by simp [Call.Continues])⟩

end Session
end KeyHold
