/-
The operations of the scan loop.

- The `_run` lemmas say what the loop's operations leave, whether they return or fault.
- `Keeps P act`: `P` outlives `act`. What outlives the few things that can be done to a loop from outside outlives
  everything that can happen to it (`Endures.happen`, `Endures.pause`).
- `runForever_taped`: taping the host changes nothing of the loop.
-/
import Mathlib.Tactic
import KeyHold.Host.ScanLoop
import KeyHold.Proofs.Driver.Operation

namespace KeyHold

variable {ω : Type}

/-- the loop's setup with its host taped -/
def LoopSetup.taped (L : LoopSetup ω) : LoopSetup (Taped ω) where
  driver := L.driver.taped
  intervalMs := L.intervalMs
  sleep seconds w := (L.sleep seconds w.world).map fun v => { w with world := v }
  handled := L.handled

namespace ScanLoop

/-! ## What operations leave -/

/-- the loop once its start is noted -/
def entered (L : LoopSetup ω) (l : ScanLoop ω) : ScanLoop ω :=
  (say L .info ("Scan loop running every " ++ Decimal.text L.intervalMs ++ "ms") { l with running := true }).2

theorem drive_run {α : Type} (act : KeyHold.Act ω α) (l : ScanLoop ω) :
    drive act l = ((act l.scene).1, { l with scene := (act l.scene).2 }) := rfl

theorem pause_run (L : LoopSetup ω) (happenings : List Happening) (l : ScanLoop ω) :
    pause L happenings l = match L.sleep (L.intervalMs / 1000.0) l.scene.world with
      | .ok world => happenings.forM (happen L) { l with scene := { l.scene with world } }
      | .error e => (.error e, l) := by
  rw [pause, bind_run]
  cases L.sleep (L.intervalMs / 1000.0) l.scene.world <;> rfl

theorem drain_cons (L : LoopSetup ω) (e : ToggleEvent) (rest : List ToggleEvent) (l : ScanLoop ω) :
    drain L (e :: rest) l = (handle L e >>= fun _ => drain L rest)
      { l with listener := { l.listener with events := rest } } := rfl

theorem runOnce_run (L : LoopSetup ω) (l : ScanLoop ω) :
    runOnce L l = (drain L l.listener.events >>= fun _ => drive L.driver.tick >>= fun _ =>
      modify fun l => { l with iterations := l.iterations + 1 }) l := rfl

theorem turns_running (L : LoopSetup ω) {l : ScanLoop ω} (h : l.running = true) (happenings : List Happening)
    (rest : List (List Happening)) :
    turns L (happenings :: rest) l = match (do runOnce L; pause L happenings : Act ω Unit) l with
      | (.ok (), l) => turns L rest l
      | (.error e, l) => (.ended (.error e), l) := by
  have hgoes : ¬ (!l.running) = true := by simp [h]
  rw [turns]
  exact if_neg hgoes

theorem turns_stopped (L : LoopSetup ω) {l : ScanLoop ω} (h : l.running = false) (pauses : List (List Happening)) :
    turns L pauses l = (.ended (.ok ()), l) := by
  unfold turns
  rw [if_pos (by simp [h])]

theorem runForever_eq (L : LoopSetup ω) (pauses : List (List Happening)) (l : ScanLoop ω) :
    runForever L pauses l = match turns L pauses (entered L l) with
      | (.ended r, l) => endWith r (wrapUp L) l
      | (.unfinished, l) => (.unfinished, l) := rfl

/-! ## What outlives all that happens -/

section Keeps

variable {α β : Type} {P : ScanLoop ω → Prop}

/-- `P` outlives `act`, whether it returns or faults -/
def Keeps (P : ScanLoop ω → Prop) (act : Act ω α) : Prop := ∀ l, P l → P (act l).2

theorem Keeps.bind {act : Act ω α} {f : α → Act ω β} (ha : Keeps P act) (hf : ∀ a, Keeps P (f a)) :
    Keeps P (act >>= f) := by
  intro l hl
  have h := ha l hl
  rw [bind_run]
  rcases hr : act l with ⟨e | a, m⟩ <;> rw [hr] at h
  · exact h
  · exact hf a m h

theorem keeps_modify {f : ScanLoop ω → ScanLoop ω} (hf : ∀ l, P l → P (f l)) : Keeps P (modify f) := hf

theorem keeps_get {f : ScanLoop ω → Act ω β} (hf : ∀ l, Keeps P (f l)) : Keeps P (get >>= f) := fun l hl => hf l l hl

theorem keeps_forM {f : α → Act ω Unit} (hf : ∀ a, Keeps P (f a)) (as : List α) : Keeps P (as.forM f) := by
  induction as with
  | nil => exact fun _ hl => hl
  | cons a as ih => exact (hf a).bind fun _ => ih

/-- `P` outlives what can be done to a loop from outside -/
structure Endures (L : LoopSetup ω) (P : ScanLoop ω → Prop) : Prop where
  note : ∀ e, Keeps P (note L e)
  forceStop : Keeps P (drive L.driver.forceStop)
  sleep : ∀ l world, L.sleep (L.intervalMs / 1000.0) l.scene.world = .ok world → P l →
    P { l with scene := { l.scene with world } }
  stop : ∀ l, P l → P { l with running := false }
  rest : ∀ l listener signals exits, P l → P { l with listener, signals, exits }

variable {L : LoopSetup ω}

theorem Endures.handleSignal (h : Endures L P) (number : ℤ) : Keeps P (handleSignal L number) := by
  have hstop : Keeps P (do
      say L .info ("Received signal " ++ toString number ++ ", stopping... (send again to force)")
      ScanLoop.stop) := (h.note _).bind fun _ => keeps_modify h.stop
  refine Keeps.bind (keeps_modify fun l hl => h.rest l _ _ _ hl) fun _ => keeps_get fun l => ?_
  dsimp only
  split_ifs
  · -- the second signal forces a stop first
    refine (h.note _).bind fun _ => h.forceStop.bind fun _ => ?_
    exact Keeps.bind (keeps_modify fun l hl => h.rest l _ _ _ hl) fun _ => hstop
  · exact hstop

theorem Endures.onListener (h : Endures L P) (f : Listener → Listener × List Entry) : Keeps P (onListener L f) := by
  refine keeps_get fun l => Keeps.bind (keeps_modify fun l hl => h.rest l _ _ _ hl) fun _ => ?_
  exact keeps_forM h.note _

/-- whatever happens -/
theorem Endures.happen (h : Endures L P) (x : Happening) : Keeps P (happen L x) := by
  cases x with
  | event mode => exact fun l hl => h.rest l _ _ _ hl
  | stop => exact keeps_modify h.stop
  | signal number =>
    rw [ScanLoop.happen]
    split_ifs
    · exact h.handleSignal number
    · exact fun _ hl => hl
  | interrupt => exact fun _ hl => hl
  | press key => exact h.onListener (Listener.press key)
  | release key => exact h.onListener fun l => (l.release key, [])

/-- whatever happens in a pause, and whether its sleep faults or not -/
theorem Endures.pause (h : Endures L P) (happenings : List Happening) : Keeps P (pause L happenings) := by
  intro l hl
  rw [pause_run]
  cases hs : L.sleep (L.intervalMs / 1000.0) l.scene.world with
  | error e => exact hl
  | ok world => exact keeps_forM h.happen happenings _ (h.sleep l world hs hl)

end Keeps

/-! ## The tape -/

/-- what a loop is without its tape -/
def untaped (l : ScanLoop (Taped ω)) : ScanLoop ω :=
  ⟨l.scene.untaped, l.listener, l.running, l.iterations, l.signals, l.exits⟩

/-- but for the tape, `act` does what `act'` does -/
def Untapes {α : Type} (act : Act (Taped ω) α) (act' : Act ω α) : Prop :=
  ∀ l, act' l.untaped = ((act l).1, (act l).2.untaped)

section Untapes

variable {α β : Type}

theorem Untapes.bind {act : Act (Taped ω) α} {act' : Act ω α} {f : α → Act (Taped ω) β} {f' : α → Act ω β}
    (ha : Untapes act act') (hf : ∀ a, Untapes (f a) (f' a)) : Untapes (act >>= f) (act' >>= f') := by
  intro l
  rw [bind_run, bind_run, ha l]
  rcases act l with ⟨e | a, m⟩
  · rfl
  · exact hf a m

theorem untapes_modify {f : ScanLoop (Taped ω) → ScanLoop (Taped ω)} {f' : ScanLoop ω → ScanLoop ω}
    (hf : ∀ l, f' l.untaped = (f l).untaped) : Untapes (modify f) (modify f') :=
  fun l => Prod.ext rfl (hf l)

theorem untapes_drive {act : KeyHold.Act (Taped ω) α} {act' : KeyHold.Act ω α}
    (h : KeyHold.Act.Alike (fun v w => v.world = w) act act') : Untapes (drive act) (drive act') := by
  intro l
  obtain ⟨h1, h2, h3⟩ := h l.scene.session l.scene.world l.scene.world.world rfl
  rw [drive_run, drive_run]
  refine Prod.ext h1.symm ?_
  have hscene : (act' l.untaped.scene).2 = (act l.scene).2.untaped := congrArg₂ Scene.mk h2.symm h3.symm
  dsimp only
  rw [hscene]
  rfl

theorem untapes_forM {f : α → Act (Taped ω) Unit} {f' : α → Act ω Unit} (hf : ∀ a, Untapes (f a) (f' a))
    (as : List α) : Untapes (as.forM f) (as.forM f') := by
  induction as with
  | nil => exact fun _ => rfl
  | cons a as ih => exact (hf a).bind fun _ => ih

/-- what is done once the state is looked at, which is the same but for the tape -/
theorem untapes_get {f : ScanLoop (Taped ω) → Act (Taped ω) β} {f' : ScanLoop ω → Act ω β}
    (hf : ∀ l, Untapes (f l) (f' l.untaped)) : Untapes (get >>= f) (get >>= f') := fun l => hf l l

variable (L : LoopSetup ω)

theorem note_untapes (e : Entry) : Untapes (note L.taped e) (note L e) :=
  untapes_drive (KeyHold.Act.alike_outside fun _ _ h => congrArg (L.driver.host.note e) h)

theorem forceStop_untapes : Untapes (drive L.taped.driver.forceStop) (drive L.driver.forceStop) :=
  untapes_drive (Driver.forceStop_alike L.driver.host.taped_alike)

theorem handle_untapes (e : ToggleEvent) : Untapes (handle L.taped e) (handle L e) := by
  intro l
  have htoggle : drive (L.driver.toggle e.mode) l.untaped = ((drive (L.taped.driver.toggle e.mode) l).1,
      (drive (L.taped.driver.toggle e.mode) l).2.untaped) :=
    untapes_drive (Driver.toggle_alike L.driver.host.taped_alike e.mode none) l
  unfold handle
  rw [htoggle]
  rcases drive (L.taped.driver.toggle e.mode) l with ⟨e | _, m⟩
  · cases e with
    | unknownMode name => exact note_untapes L _ m
    | _ => rfl
  · rfl

theorem drain_untapes (events : List ToggleEvent) : Untapes (drain L.taped events) (drain L events) := by
  induction events with
  | nil => exact fun _ => rfl
  | cons e rest ih => exact (untapes_modify fun _ => rfl).bind fun _ => (handle_untapes L e).bind fun _ => ih

theorem runOnce_untapes : Untapes (runOnce L.taped) (runOnce L) := by
  refine untapes_get fun l => (drain_untapes L l.listener.events).bind fun _ => ?_
  refine (untapes_drive (Driver.tick_alike L.driver.host.taped_alike none)).bind fun _ => ?_
  exact untapes_modify fun _ => rfl

theorem handleSignal_untapes (number : ℤ) : Untapes (handleSignal L.taped number) (handleSignal L number) := by
  have hstop : Untapes (do
        say L.taped .info ("Received signal " ++ toString number ++ ", stopping... (send again to force)")
        stop)
      (do
        say L .info ("Received signal " ++ toString number ++ ", stopping... (send again to force)")
        stop) := (note_untapes L _).bind fun _ => untapes_modify fun _ => rfl
  refine Untapes.bind (untapes_modify fun _ => rfl) fun _ => untapes_get fun l => ?_
  show Untapes (if l.signals ≥ 2 then _ else _) (if l.signals ≥ 2 then _ else _)
  split_ifs
  · refine (note_untapes L _).bind fun _ => (forceStop_untapes L).bind fun _ => ?_
    exact Untapes.bind (untapes_modify fun _ => rfl) fun _ => hstop
  · exact hstop

theorem onListener_untapes (f : Listener → Listener × List Entry) : Untapes (onListener L.taped f) (onListener L f) := by
  refine untapes_get fun l => Untapes.bind (untapes_modify fun _ => rfl) fun _ => ?_
  exact untapes_forM (note_untapes L) _

theorem happen_untapes (x : Happening) : Untapes (happen L.taped x) (happen L x) := by
  cases x with
  | event mode => exact untapes_modify fun _ => rfl
  | stop => exact untapes_modify fun _ => rfl
  | signal number =>
    show Untapes (if L.handled number then _ else _) (if L.handled number then _ else _)
    split_ifs
    · exact handleSignal_untapes L number
    · exact fun _ => rfl
  | interrupt => exact fun _ => rfl
  | press key => exact onListener_untapes L (Listener.press key)
  | release key => exact onListener_untapes L fun l => (l.release key, [])

theorem pause_untapes (happenings : List Happening) : Untapes (pause L.taped happenings) (pause L happenings) := by
  intro l
  rw [pause_run, pause_run]
  cases hs : L.sleep (L.intervalMs / 1000.0) l.scene.world.world with
  | error e =>
    have hsleep : L.taped.sleep (L.taped.intervalMs / 1000.0) l.scene.world = .error e := by
      simp only [LoopSetup.taped, hs]
      rfl
    rw [hsleep, show L.sleep (L.intervalMs / 1000.0) l.untaped.scene.world = .error e from hs]
  | ok v =>
    have hsleep : L.taped.sleep (L.taped.intervalMs / 1000.0) l.scene.world = .ok { l.scene.world with world := v } := by
      simp only [LoopSetup.taped, hs]
      rfl
    rw [hsleep, show L.sleep (L.intervalMs / 1000.0) l.untaped.scene.world = .ok v from hs]
    exact untapes_forM (happen_untapes L) happenings
      { l with scene := { l.scene with world := { l.scene.world with world := v } } }

theorem wrapUp_untapes : Untapes (wrapUp L.taped) (wrapUp L) :=
  (forceStop_untapes L).bind fun _ => untapes_get fun _ => note_untapes L _

theorem turns_untaped (pauses : List (List Happening)) (l : ScanLoop (Taped ω)) :
    turns L pauses l.untaped = ((turns L.taped pauses l).1, (turns L.taped pauses l).2.untaped) := by
  induction pauses generalizing l with
  | nil =>
    unfold turns
    show (if !l.running then _ else _) = _
    split_ifs <;> rfl
  | cons happenings rest ih =>
    cases hr : l.running with
    | false => rw [turns_stopped L (l := l.untaped) hr, turns_stopped L.taped hr]
    | true =>
      have hturn := (runOnce_untapes L).bind (fun _ => pause_untapes L happenings) l
      rw [turns_running L (l := l.untaped) hr, turns_running L.taped hr, hturn]
      rcases (runOnce L.taped >>= fun _ => pause L.taped happenings) l with ⟨e | _, m⟩
      · rfl
      · exact ih m

theorem endWith_untaped (r : Except Fault Unit) (l : ScanLoop (Taped ω)) :
    endWith r (wrapUp L) l.untaped = ((endWith r (wrapUp L.taped) l).1, (endWith r (wrapUp L.taped) l).2.untaped) := by
  unfold endWith
  rw [wrapUp_untapes L l]
  rcases wrapUp L.taped l with ⟨e | _, m⟩ <;> rfl

/-- **Taping changes nothing of the loop**: it ends in the same way, and but for the tape it is left the same. -/
theorem runForever_taped (pauses : List (List Happening)) (l : ScanLoop (Taped ω)) :
    runForever L pauses l.untaped = ((runForever L.taped pauses l).1, (runForever L.taped pauses l).2.untaped) := by
  have hentered : entered L l.untaped = (entered L.taped l).untaped := rfl
  rw [runForever_eq, runForever_eq, hentered, turns_untaped]
  rcases turns L.taped pauses (entered L.taped l) with ⟨r | _, m⟩
  · exact endWith_untaped L r m
  · rfl

end Untapes

end ScanLoop
end KeyHold
