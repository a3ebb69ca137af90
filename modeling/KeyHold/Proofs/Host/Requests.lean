/-
Requests to stop, at any moment.

A stop or a signal does not wait for a pause of the loop: a signal handler runs between any two of its steps. So the loop
is taken apart into its steps, and anything may happen between two of them. A step that calls the driver is one step,
because the driver neither reads nor writes what a request changes: a request that comes within the call is as good as
one right after it.

- `LoopPoint`, `Midway`: where the loop stands, and the loop. `goOn`, `happens`: its next step, and something that happens.
- `runForever_midway`: **the runs of the loop** are among these, with all that happens in a pause at the loop's head.
- `request_kept`: **a request made at any moment after the loop is entered** is not lost: whatever happens later, one more
  turn is counted at most, and when nothing more happens the loop ends by itself.
- `request_forgotten`: a request made before that is lost, because a loop that is entered sets `running` anew: it goes on
  until there is another one.
-/
import Mathlib.Tactic
import KeyHold.Proofs.Host.Turns

namespace KeyHold

variable {ω : Type}

/-- where a loop stands: what it does next -/
inductive LoopPoint where
  /-- before `runForever`, which sets `running` first -/
  | outside
  /-- notes its start -/
  | entered
  /-- looks whether it is to go on -/
  | head
  /-- takes the next event from the queue -/
  | queue
  /-- answers an event that is taken -/
  | event (e : ToggleEvent)
  | tick
  /-- counts the turn -/
  | count
  | sleep
  /-- forces a stop, however the turns ended -/
  | leaving (r : Except Fault Unit)
  | left (r : Except Fault Unit)

/-- a loop between two of its steps -/
structure Midway (ω : Type) where
  place : LoopPoint
  loop : ScanLoop ω

namespace Midway

open ScanLoop

/-- on to a place, unless there was a fault -/
def unlessFault (next : LoopPoint) : Except Fault Unit × ScanLoop ω → Midway ω
  | (.ok (), l) => ⟨next, l⟩
  | (.error e, l) => ⟨.leaving (.error e), l⟩

variable (L : LoopSetup ω)

/-- the next step of the loop -/
def goOn (m : Midway ω) : Midway ω :=
  match m.place with
  | .outside => ⟨.entered, { m.loop with running := true }⟩
  | .entered => ⟨.head, (say L .info ("Scan loop running every " ++ Decimal.text L.intervalMs ++ "ms") m.loop).2⟩
  | .head => ⟨if m.loop.running then .queue else .leaving (.ok ()), m.loop⟩
  | .queue =>
    match m.loop.listener.events with
    | [] => ⟨.tick, m.loop⟩
    | e :: rest => ⟨.event e, { m.loop with listener := { m.loop.listener with events := rest } }⟩
  | .event e => unlessFault .queue (handle L e m.loop)
  | .tick => unlessFault .count (drive L.driver.tick m.loop)
  | .count => ⟨.sleep, { m.loop with iterations := m.loop.iterations + 1 }⟩
  | .sleep => unlessFault .head (pause L [] m.loop)
  | .leaving r =>
    match wrapUp L m.loop with
    | (.ok (), l) => ⟨.left r, l⟩
    | (.error e, l) => ⟨.left (.error e), l⟩
  | .left _ => m

/-- where a fault of something that happens leads: to the forced stop, from where one would follow -/
def broken (e : Fault) : LoopPoint → LoopPoint
  | .outside | .entered | .leaving _ => .left (.error e)
  | .left r => .left r
  | _ => .leaving (.error e)

/-- something happens -/
def happens (x : Happening) (m : Midway ω) : Midway ω :=
  match happen L x m.loop with
  | (.ok (), l) => ⟨m.place, l⟩
  | (.error e, l) => ⟨broken e m.place, l⟩

/-- what comes next: a step of the loop, or something that happens -/
inductive Next where
  | step
  | happening (x : Happening)

def next (m : Midway ω) : Next → Midway ω
  | .step => goOn L m
  | .happening x => happens L x m

def run (nexts : List Next) (m : Midway ω) : Midway ω := nexts.foldl (next L) m

/-! ## The runs of the loop -/

theorem handle_scene (e : ToggleEvent) (l : ScanLoop ω) : ∃ scene, (handle L e l).2 = { l with scene } := by
  unfold handle
  rw [drive_run]
  rcases L.driver.toggle e.mode none l.scene with ⟨f | _, s⟩
  · cases f <;> exact ⟨_, rfl⟩
  · exact ⟨_, rfl⟩

theorem pause_scene (l : ScanLoop ω) : ∃ scene, (pause L [] l).2 = { l with scene } := by
  rw [pause_run]
  cases L.sleep (L.intervalMs / 1000.0) l.scene.world <;> exact ⟨_, rfl⟩

theorem wrapUp_scene (l : ScanLoop ω) : ∃ scene, (wrapUp L l).2 = { l with scene } := by
  rw [wrapUp, bind_run, drive_run]
  rcases L.driver.forceStop l.scene with ⟨f | _, s⟩ <;> exact ⟨_, rfl⟩

def Next.happening? : Next → Option Happening
  | .step => none
  | .happening x => some x

/-- `m` comes to `m'`, and these things happen on the way -/
def Reaches (m m' : Midway ω) (xs : List Happening) : Prop :=
  ∃ nexts : List Next, nexts.filterMap Next.happening? = xs ∧ run L nexts m = m'

section Reaches

variable {L} {m m' m'' : Midway ω} {xs ys : List Happening}

theorem Reaches.refl (m : Midway ω) : Reaches L m m [] := ⟨[], rfl, rfl⟩

theorem Reaches.trans (h : Reaches L m m' xs) (h' : Reaches L m' m'' ys) : Reaches L m m'' (xs ++ ys) := by
  obtain ⟨nexts, rfl, rfl⟩ := h
  obtain ⟨nexts', rfl, rfl⟩ := h'
  exact ⟨nexts ++ nexts', List.filterMap_append, List.foldl_append⟩

theorem Reaches.step (h : Reaches L (goOn L m) m' xs) : Reaches L m m' xs := by
  obtain ⟨nexts, hxs, hrun⟩ := h
  exact ⟨.step :: nexts, hxs, hrun⟩

theorem Reaches.happens {x : Happening} (h : Reaches L (happens L x m) m' xs) : Reaches L m m' (x :: xs) := by
  obtain ⟨nexts, rfl, hrun⟩ := h
  exact ⟨.happening x :: nexts, rfl, hrun⟩

/-- one operation after another, if the first one returns -/
theorem Reaches.bind {act : ScanLoop.Act ω Unit} {f : Unit → ScanLoop.Act ω Unit} {l : ScanLoop ω} {p q : LoopPoint}
    (h : Reaches L m (unlessFault p (act l)) [])
    (hf : ∀ l', act l = (.ok (), l') → Reaches L ⟨p, l'⟩ (unlessFault q (f () l')) []) :
    Reaches L m (unlessFault q ((act >>= f) l)) [] := by
  rw [bind_run]
  rcases hact : act l with ⟨e | _, l'⟩ <;> rw [hact] at h
  · exact h
  · exact h.trans (hf l' hact)

end Reaches

theorem drain_reaches (events : List ToggleEvent) (l : ScanLoop ω) (h : l.listener.events = events) :
    Reaches L ⟨.queue, l⟩ (unlessFault .tick (drain L events l)) [] := by
  induction events generalizing l with
  | nil =>
    apply Reaches.step
    unfold goOn
    dsimp only
    rw [h]
    exact .refl _
  | cons e rest ih =>
    apply Reaches.step
    unfold goOn
    dsimp only
    rw [h]
    rw [drain_cons]
    -- the event is taken; it is answered, and then the rest
    refine Reaches.bind (p := .queue) (Reaches.step (.refl _)) fun l' hl' => ih l' ?_
    obtain ⟨scene, hscene⟩ := handle_scene L e { l with listener := { l.listener with events := rest } }
    rw [hl'] at hscene
    exact congrArg (fun l => l.listener.events) hscene

theorem runOnce_reaches (l : ScanLoop ω) : Reaches L ⟨.queue, l⟩ (unlessFault .sleep (runOnce L l)) [] := by
  rw [runOnce_run]
  refine Reaches.bind (drain_reaches L _ l rfl) fun l' _ => ?_
  refine Reaches.bind (p := .count) (Reaches.step (.refl _)) fun l'' _ => ?_
  exact Reaches.step (.refl _)

/-- a loop that was asked to stop leaves from its head -/
theorem goOn_head_halted {l : ScanLoop ω} (h : l.running = false) : goOn L ⟨.head, l⟩ = ⟨.leaving (.ok ()), l⟩ := by
  unfold goOn
  rw [if_neg (by simp [h])]

theorem goOn_head_running {l : ScanLoop ω} (h : l.running = true) : goOn L ⟨.head, l⟩ = ⟨.queue, l⟩ := by
  unfold goOn
  rw [if_pos h]

/-- what happens in a pause happens at the head, up to a fault -/
theorem happenings_reach (happenings : List Happening) (l : ScanLoop ω) :
    ∃ xs, Reaches L ⟨.head, l⟩ (unlessFault .head (happenings.forM (happen L) l)) xs ∧ xs <+: happenings ∧
      ((happenings.forM (happen L) l).1 = .ok () → xs = happenings) := by
  induction happenings generalizing l with
  | nil => exact ⟨[], .refl _, List.prefix_refl _, fun _ => rfl⟩
  | cons x rest ih =>
    have hforM : (x :: rest).forM (happen L) l = (happen L x >>= fun _ => rest.forM (happen L)) l := rfl
    have hhappens : happens L x ⟨.head, l⟩ = unlessFault .head (happen L x l) := by
      unfold happens
      rcases happen L x l with ⟨e | _, l'⟩ <;> rfl
    rw [hforM, bind_run]
    rcases hx : happen L x l with ⟨e | _, l'⟩ <;> rw [hx] at hhappens
    · refine ⟨[x], Reaches.happens ?_, by simp, nofun⟩
      rw [hhappens]
      exact .refl _
    · obtain ⟨xs, hreach, hpre, hall⟩ := ih l'
      refine ⟨x :: xs, Reaches.happens ?_, List.cons_prefix_cons.2 ⟨rfl, hpre⟩, fun hok => by rw [hall hok]⟩
      rw [hhappens]
      exact hreach

theorem pause_reaches (happenings : List Happening) (l : ScanLoop ω) :
    ∃ xs, Reaches L ⟨.sleep, l⟩ (unlessFault .head (pause L happenings l)) xs ∧ xs <+: happenings ∧
      ((pause L happenings l).1 = .ok () → xs = happenings) := by
  have hsleep : goOn L ⟨.sleep, l⟩ = unlessFault .head (pause L [] l) := rfl
  rw [pause_run] at hsleep ⊢
  cases hs : L.sleep (L.intervalMs / 1000.0) l.scene.world with
  | error e =>
    rw [hs] at hsleep
    refine ⟨[], Reaches.step ?_, List.nil_prefix, nofun⟩
    rw [hsleep]
    exact .refl _
  | ok world =>
    rw [hs] at hsleep
    obtain ⟨xs, hreach, hrest⟩ := happenings_reach L happenings { l with scene := { l.scene with world } }
    refine ⟨xs, Reaches.step ?_, hrest⟩
    rw [hsleep]
    exact hreach

/-- where a loop stands whose turns ended so -/
def afterTurns : Ending × ScanLoop ω → Midway ω
  | (.ended r, l) => ⟨.leaving r, l⟩
  | (.unfinished, l) => ⟨.head, l⟩

/-- where a loop stands that ended so -/
def afterRun : Ending × ScanLoop ω → Midway ω
  | (.ended r, l) => ⟨.left r, l⟩
  | (.unfinished, l) => ⟨.head, l⟩

theorem turns_halted {l : ScanLoop ω} (h : l.running = false) (pauses : List (List Happening)) :
    Reaches L ⟨.head, l⟩ (afterTurns (turns L pauses l)) [] := by
  rw [turns_stopped L h]
  apply Reaches.step
  rw [goOn_head_halted L h]
  exact .refl _

theorem turns_reach (pauses : List (List Happening)) (l : ScanLoop ω) :
    ∃ xs, Reaches L ⟨.head, l⟩ (afterTurns (turns L pauses l)) xs ∧ xs <+: pauses.flatten := by
  induction pauses generalizing l with
  | nil =>
    cases hr : l.running with
    | false => exact ⟨[], turns_halted L hr [], List.nil_prefix⟩
    | true =>
      refine ⟨[], ?_, List.nil_prefix⟩
      rw [turns, if_neg (by simp [hr])]
      exact .refl _
  | cons happenings rest ih =>
    cases hr : l.running with
    | false => exact ⟨[], turns_halted L hr _, List.nil_prefix⟩
    | true =>
      have hhead := goOn_head_running L hr
      have hturn := runOnce_reaches L l
      rw [turns_running L hr, bind_run]
      rcases hone : runOnce L l with ⟨e | _, l'⟩ <;> rw [hone] at hturn
      · refine ⟨[], Reaches.step ?_, List.nil_prefix⟩
        rw [hhead]
        exact hturn
      · obtain ⟨xs, hpause, hpre, hall⟩ := pause_reaches L happenings l'
        dsimp only
        rcases hp : pause L happenings l' with ⟨e | _, l''⟩ <;> rw [hp] at hpause hall
        · refine ⟨xs, Reaches.step ?_, hpre.trans (List.prefix_append _ _)⟩
          rw [hhead]
          exact hturn.trans hpause
        · obtain ⟨ys, hrest, hys⟩ := ih l''
          refine ⟨xs ++ ys, Reaches.step ?_, ?_⟩
          · rw [hhead]
            exact (hturn.trans hpause).trans hrest
          · rw [hall rfl, List.flatten_cons]
            exact (List.prefix_append_right_inj _).2 hys

/-- **The runs of the loop are among these**: with all that is given of its pauses, up to a fault. -/
theorem runForever_midway (pauses : List (List Happening)) (l : ScanLoop ω) :
    ∃ xs, Reaches L ⟨.outside, l⟩ (afterRun (runForever L pauses l)) xs ∧ xs <+: pauses.flatten := by
  obtain ⟨xs, hturns, hpre⟩ := turns_reach L pauses (entered L l)
  refine ⟨xs, Reaches.step (Reaches.step ?_), hpre⟩
  show Reaches L ⟨.head, entered L l⟩ _ _
  rw [runForever_eq]
  rcases ht : turns L pauses (entered L l) with ⟨r | _, l'⟩ <;> rw [ht] at hturns
  · have hleave : goOn L ⟨.leaving r, l'⟩ = afterRun (endWith r (wrapUp L) l') := by
      unfold goOn endWith
      dsimp only
      rcases wrapUp L l' with ⟨e | _, l''⟩ <;> rfl
    have hleft : Reaches L ⟨.leaving r, l'⟩ (afterRun (endWith r (wrapUp L) l')) [] := by
      apply Reaches.step
      rw [hleave]
      exact .refl _
    have hrun := hturns.trans hleft
    rwa [List.append_nil] at hrun
  · exact hturns

/-! ## A request -/

/-- asks the loop to stop: a stop, or the first signal that reaches it -/
def Requests (l : ScanLoop ω) : Happening → Prop
  | .stop => True
  | .signal number => L.handled number = true ∧ l.signals = 0
  | _ => False

/-- the turn that is begun and not yet counted -/
def begunTurns : LoopPoint → ℕ
  | .queue | .event _ | .tick | .count => 1
  | _ => 0

/-- the loop was asked to stop, when it had counted `n` turns: it has not begun another one since -/
structure Asked (n : ℕ) (m : Midway ω) : Prop where
  halted : m.loop.running = false
  inside : m.place ≠ .outside
  bound : m.loop.iterations + begunTurns m.place ≤ n + 1

variable {L} {m : Midway ω} {n : ℕ}

theorem broken_ne_outside (e : Fault) (p : LoopPoint) : broken e p ≠ .outside := by
  cases p <;> nofun

theorem begunTurns_broken (e : Fault) (p : LoopPoint) : begunTurns (broken e p) = 0 := by
  cases p <;> rfl

/-- nothing that happens sets `running` or counts a turn -/
theorem halted_endures (n : ℕ) : Endures L fun l => l.running = false ∧ l.iterations = n where
  note _ _ h := h
  forceStop _ h := h
  sleep _ _ _ h := h
  stop _ h := ⟨rfl, h.2⟩
  rest _ _ _ _ h := h

theorem Asked.happens (h : Asked n m) (x : Happening) : Asked n (happens L x m) := by
  obtain ⟨hhalted, hcount⟩ := (halted_endures m.loop.iterations).happen x m.loop ⟨h.halted, rfl⟩
  unfold Midway.happens
  rcases hx : happen L x m.loop with ⟨e | _, l⟩ <;> rw [hx] at hhalted hcount
  · refine ⟨hhalted, broken_ne_outside _ _, ?_⟩
    calc l.iterations + begunTurns (broken e m.place) = m.loop.iterations := by rw [begunTurns_broken]; exact hcount
      _ ≤ m.loop.iterations + begunTurns m.place := Nat.le_add_right _ _
      _ ≤ n + 1 := h.bound
  · refine ⟨hhalted, h.inside, ?_⟩
    calc l.iterations + begunTurns m.place = m.loop.iterations + begunTurns m.place := congrArg (· + _) hcount
      _ ≤ n + 1 := h.bound

/-- the loop after a step that only acts on the scene, or faults -/
theorem Asked.unlessFault (h : Asked n m) {r : Except Fault Unit × ScanLoop ω} {place : LoopPoint}
    (hr : ∃ scene, r.2 = { m.loop with scene }) (hp : place ≠ .outside) (hb : begunTurns place ≤ begunTurns m.place) :
    Asked n (unlessFault place r) := by
  obtain ⟨r, l⟩ := r
  obtain ⟨scene, rfl⟩ : ∃ scene, l = { m.loop with scene } := hr
  have hbound := h.bound
  cases r with
  | error e => exact ⟨h.halted, nofun, (Nat.le_add_right _ _).trans hbound⟩
  | ok u => exact ⟨h.halted, hp, (Nat.add_le_add_left hb _).trans hbound⟩

theorem Asked.goOn (h : Asked n m) : Asked n (goOn L m) := by
  have hbound := h.bound
  obtain ⟨place, l⟩ := m
  cases place with
  | outside => exact absurd rfl h.inside
  | entered => exact ⟨h.halted, nofun, hbound⟩
  | head =>
    rw [goOn_head_halted L h.halted]
    exact ⟨h.halted, nofun, hbound⟩
  | queue =>
    unfold Midway.goOn
    dsimp only
    cases l.listener.events with
    | nil => exact ⟨h.halted, nofun, hbound⟩
    | cons e rest => exact ⟨h.halted, nofun, hbound⟩
  | event e => exact h.unlessFault (handle_scene L e l) nofun le_rfl
  | tick => exact h.unlessFault ⟨_, rfl⟩ nofun le_rfl
  | count => exact ⟨h.halted, nofun, hbound⟩
  | sleep => exact h.unlessFault (pause_scene L l) nofun le_rfl
  | leaving r =>
    unfold Midway.goOn
    obtain ⟨scene, hs⟩ := wrapUp_scene L l
    rcases hw : wrapUp L l with ⟨e | _, l'⟩ <;> rw [hw] at hs <;> obtain rfl : l' = { l with scene } := hs
    · exact ⟨h.halted, nofun, hbound⟩
    · exact ⟨h.halted, nofun, hbound⟩
  | left r => exact h

theorem Asked.run (h : Asked n m) (nexts : List Next) : Asked n (run L nexts m) := by
  induction nexts generalizing m with
  | nil => exact h
  | cons x nexts ih =>
    cases x with
    | step => exact ih h.goOn
    | happening x => exact ih (h.happens x)

/-- the first signal only stops the loop -/
theorem happen_firstSignal {number : ℤ} {l : ScanLoop ω} (hhandled : L.handled number = true) (hnone : l.signals = 0) :
    ∃ scene, happen L (.signal number) l = (.ok (), { l with scene, running := false, signals := l.signals + 1 }) := by
  have hone : ¬ l.signals + 1 ≥ 2 := by omega
  rw [happen, if_pos hhandled, handleSignal, bind_run]
  show ∃ scene, (if l.signals + 1 ≥ 2 then _ else _ : ScanLoop.Act ω Unit) { l with signals := l.signals + 1 } = _
  rw [if_neg hone]
  exact ⟨_, rfl⟩

/-- a request asks -/
theorem asked_of_request {x : Happening} (hx : Requests L m.loop x) (hm : m.place ≠ .outside) :
    Asked m.loop.iterations (Midway.happens L x m) := by
  have hturn : begunTurns m.place ≤ 1 := by
    cases m.place <;> simp [begunTurns]
  cases x with
  | stop => exact ⟨rfl, hm, Nat.add_le_add_left hturn _⟩
  | signal number =>
    obtain ⟨hhandled, hnone⟩ := hx
    obtain ⟨scene, hfirst⟩ := happen_firstSignal hhandled hnone
    unfold Midway.happens
    rw [hfirst]
    exact ⟨rfl, hm, Nat.add_le_add_left hturn _⟩
  | event | interrupt | press | release => exact hx.elim

/-! ## The way out -/

/-- how many steps it takes to leave at most, once the loop was asked to stop and nothing more happens -/
def rank (m : Midway ω) : ℕ :=
  match m.place with
  | .left _ => 0
  | .leaving _ => 1
  | .outside | .head => 2
  | .entered | .sleep => 3
  | .count => 4
  | .tick => 5
  | .queue => 6 + 2 * m.loop.listener.events.length
  | .event _ => 7 + 2 * m.loop.listener.events.length

theorem rank_unlessFault {r : Except Fault Unit × ScanLoop ω} {place : LoopPoint} {k : ℕ} (hk : 1 < k)
    (hr : rank ⟨place, r.2⟩ < k) : rank (unlessFault place r) < k := by
  obtain ⟨e | u, l⟩ := r
  · exact hk
  · exact hr

/-- a step is one nearer to the end -/
theorem Asked.rank_lt (h : Asked n m) (hl : ∀ r, m.place ≠ .left r) : rank (Midway.goOn L m) < rank m := by
  obtain ⟨place, l⟩ := m
  cases place with
  | outside => exact absurd rfl h.inside
  | entered => exact Nat.lt_succ_self 2
  | head =>
    rw [goOn_head_halted L h.halted]
    exact Nat.lt_succ_self 1
  | queue =>
    unfold Midway.goOn rank
    dsimp only
    cases l.listener.events with
    | nil => exact Nat.lt_succ_self 5
    | cons e rest =>
      simp only [List.length_cons]
      omega
  | event e =>
    obtain ⟨scene, hs⟩ := handle_scene L e l
    refine rank_unlessFault (by simp only [rank]; omega) ?_
    rw [hs]
    simp only [rank]
    omega
  | tick => exact rank_unlessFault (by simp [rank]) (Nat.lt_succ_self 4)
  | count => exact Nat.lt_succ_self 3
  | sleep => exact rank_unlessFault (by simp [rank]) (Nat.lt_succ_self 2)
  | leaving r =>
    unfold Midway.goOn
    rcases wrapUp L l with ⟨e | _, l'⟩
    · exact Nat.lt_succ_self 0
    · exact Nat.lt_succ_self 0
  | left r => exact absurd rfl (hl r)

/-- once it was asked to stop, the loop leaves by itself -/
theorem Asked.leaves (h : Asked n m) : ∃ k r, ((Midway.goOn L)^[k] m).place = .left r := by
  obtain ⟨k, hk⟩ : ∃ k, rank m ≤ k := ⟨_, le_rfl⟩
  induction k generalizing m with
  | zero =>
    obtain ⟨place, l⟩ := m
    cases place with
    | left r => exact ⟨0, r, rfl⟩
    | _ => simp [rank] at hk
  | succ k ih =>
    by_cases hl : ∃ r, m.place = .left r
    · obtain ⟨r, hr⟩ := hl
      exact ⟨0, r, hr⟩
    · have hlt := h.rank_lt (L := L) fun r hr => hl ⟨r, hr⟩
      obtain ⟨j, r, hj⟩ := ih (h.goOn (L := L)) (by omega)
      exact ⟨j + 1, r, hj⟩

/-- **A request that is made once the loop is entered is kept.** Let the loop stand between any two of its steps, with any
queue and any session, on any host, and let it be asked to stop there: by a stop or by the first signal. Whatever happens
later, it counts one turn more at most; and at any time later it leaves by itself, with no other request. The runs of the
loop are among these (`runForever_midway`). -/
theorem request_kept (L : LoopSetup ω) (m : Midway ω) (hm : m.place ≠ .outside) (x : Happening)
    (hx : Requests L m.loop x) (later : List Next) :
    let t := run L later (Midway.happens L x m)
    t.loop.iterations ≤ m.loop.iterations + 1 ∧ ∃ k r, ((Midway.goOn L)^[k] t).place = .left r := by
  intro t
  have h : Asked m.loop.iterations t := (asked_of_request hx hm).run later
  exact ⟨(Nat.le_add_right _ _).trans h.bound, h.leaves⟩

/-- a signal while an event waits, and an event that comes after it -/
theorem request_kept_still :
    let m : Midway Unit :=
      ⟨.queue, { scene := ⟨{}, ()⟩, running := true, listener := { events := [⟨.str "og", "pause"⟩] } }⟩
    let t := run still [.step, .happening (.event (.str "extra")), .step] (Midway.happens still (.signal 2) m)
    t.loop.iterations ≤ 1 ∧ ∃ k r, ((Midway.goOn still)^[k] t).place = .left r := by
  intro m t
  have hm : m.place ≠ .outside := by simp [m]
  exact request_kept still m hm (.signal 2) ⟨rfl, rfl⟩ _

/-- whatever `running` was before, a loop that is entered does not know of it -/
theorem request_forgotten (L : LoopSetup ω) (l : ScanLoop ω) (running : Bool) (pauses : List (List Happening)) :
    runForever L pauses { l with running } = runForever L pauses l := rfl

/-- **A request that is made before is lost.** The first signal comes before the loop is entered. Nothing else happens, and
the loop makes three turns. -/
theorem request_lost :
    let m : Midway Unit := ⟨.outside, { scene := ⟨{}, ()⟩ }⟩
    Requests still m.loop (.signal 2) ∧
      ((Midway.goOn still)^[17] (Midway.happens still (.signal 2) m)).loop.iterations = m.loop.iterations + 3 := by
  intro m
  refine ⟨⟨rfl, rfl⟩, ?_⟩
  decide +kernel

end Midway
end KeyHold
