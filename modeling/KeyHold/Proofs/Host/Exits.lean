/-
What a run of the host leaves behind.

A run connects first and cleans up last. Once its loop runs, it ends with the forced stop, the stop of the listener and
the end of the connection, however the loop ended and whatever the network did before, a connection made anew by the
last release included. An end before the loop cleans up nothing: without a toggle key, and with one that no listener
takes, the connection that was just made stays, and a listener whose toggle keys cannot be listed goes on listening.

- `Safe W`: a session that runs nothing is idle, in a world as the host keeps it; turns keep this, and the loop's end
  makes the session idle.
- `ofTable_isOk_iff`, `listing_isOk_iff`: which toggle keys a listener takes, and which it can list.
- `run_cleansUp_iff`: **nothing is left behind**, exactly if the loop was reached or nothing was opened.
- `bare_stays_connected`: a configuration without a toggle key leaves the connection open.
-/
import Mathlib.Tactic
import KeyHold.Proofs.Driver.Entry
import KeyHold.Proofs.Effector.WireFormat
import KeyHold.Proofs.Host.Controller
import KeyHold.Proofs.Host.Loop
import KeyHold.Proofs.Host.ToggleEdges
import KeyHold.Proofs.Host.ToggleKeys
import KeyHold.Proofs.Session.Running
import KeyHold.Proofs.Settings.Accepted

namespace KeyHold

variable {ω : Type}

namespace Driver

open Session

variable {D : Driver ω} {s : Scene ω}

theorem act_tidy (h : Tidy s.session) (c : Call) : Tidy (c.act D s).2.session := by
  cases hc : c.onSession D s with
  | error e =>
    rw [act_error D s hc]
    exact h
  | ok r =>
    obtain ⟨call, w⟩ := r
    have hsession : (c.act D s).2.session = (call.act D.setup ⟨s.session, w⟩).2.session := step_session D s hc
    rw [hsession]
    exact call_tidy (s := ⟨s.session, w⟩) h call

/-- after a forced stop the session is idle -/
theorem forceStop_idle (h : Tidy s.session) : Idle (forceStop D s).2.session := by
  have hsession : (forceStop D s).2.session = (stop D.setup s).2.session := step_session D s (c := .forceStop) rfl
  rw [hsession]
  exact (stop_idle h).after

end Driver

/-! ## The loop -/

namespace ScanLoop

open Session

variable {L : LoopSetup ω} {W : ω → Prop} {l : ScanLoop ω}

/-- the world is as the host keeps it, and a session that runs nothing is idle -/
structure Safe (W : ω → Prop) (l : ScanLoop ω) : Prop where
  world : W l.scene.world
  session : Tidy l.scene.session

/-- an entry point of the driver -/
theorem drive_keeps (hW : L.driver.host.Keeps W) (c : Driver.Call) : Keeps (Safe W) (drive (c.act L.driver)) := by
  intro l hl
  have hworld : W (c.act L.driver l.scene).2.world := Driver.run_keeps hW hl.world [.driver c]
  exact ⟨hworld, Driver.act_tidy hl.session c⟩

theorem note_keeps (hW : L.driver.host.Keeps W) (e : Entry) : Keeps (Safe W) (note L e) := by
  intro l hl
  exact ⟨hW.rig.note e _ hl.world, hl.session⟩

theorem safe_endures (hW : L.driver.host.Keeps W) (hsleep : ∀ x w w', L.sleep x w = .ok w' → W w → W w') :
    Endures L (Safe W) where
  note := note_keeps hW
  forceStop := drive_keeps hW .forceStop
  sleep _ _ hs hl := ⟨hsleep _ _ _ hs hl.world, hl.session⟩
  stop _ hl := ⟨hl.world, hl.session⟩
  rest _ _ _ _ hl := ⟨hl.world, hl.session⟩

/-- an event, also one of an unknown mode -/
theorem handle_keeps (hW : L.driver.host.Keeps W) (e : ToggleEvent) : Keeps (Safe W) (handle L e) := by
  intro l hl
  have htoggled : Safe W (drive (L.driver.toggle e.mode) l).2 := drive_keeps hW (.toggle e.mode none) l hl
  unfold handle
  rcases hr : drive (L.driver.toggle e.mode) l with ⟨e | _, m⟩ <;> rw [hr] at htoggled
  · cases e with
    | unknownMode name => exact note_keeps hW _ m htoggled
    | _ => exact htoggled
  · exact htoggled

theorem runOnce_keeps (hW : L.driver.host.Keeps W) : Keeps (Safe W) (runOnce L) := by
  have hdrain : ∀ events, Keeps (Safe W) (drain L events) := by
    intro events
    induction events with
    | nil => exact fun _ hl => hl
    | cons e rest ih =>
      refine Keeps.bind (keeps_modify ?_) fun _ => (handle_keeps hW e).bind fun _ => ih
      exact fun _ hl => ⟨hl.world, hl.session⟩
  refine keeps_get fun l => (hdrain _).bind fun _ => (drive_keeps hW (.tick none)).bind fun _ => ?_
  exact keeps_modify fun _ hl => ⟨hl.world, hl.session⟩

/-- turn after turn, whatever happens in the pauses -/
theorem turns_keeps (hW : L.driver.host.Keeps W) (hsleep : ∀ x w w', L.sleep x w = .ok w' → W w → W w')
    (hl : Safe W l) (pauses : List (List Happening)) : Safe W (turns L pauses l).2 := by
  induction pauses generalizing l with
  | nil =>
    unfold turns
    split_ifs
    · exact hl
    · exact hl
  | cons happenings rest ih =>
    cases hrun : l.running with
    | false =>
      rw [turns_stopped L hrun]
      exact hl
    | true =>
      have hturn := (runOnce_keeps hW).bind (fun _ => (safe_endures hW hsleep).pause happenings) l hl
      rw [turns_running L hrun]
      rcases hr : (runOnce L >>= fun _ => pause L happenings) l with ⟨e | _, m⟩ <;> rw [hr] at hturn
      · exact hturn
      · exact ih hturn

/-- **The loop's end**, however it came about, leaves the session idle in a world that the host kept. -/
theorem runForever_ended (hW : L.driver.host.Keeps W) (hsleep : ∀ x w w', L.sleep x w = .ok w' → W w → W w')
    (hl : Safe W l) {pauses : List (List Happening)} {r : Except Fault Unit} {m : ScanLoop ω}
    (h : runForever L pauses l = (.ended r, m)) : W m.scene.world ∧ Idle m.scene.session := by
  have hentered : Safe W (entered L l) := note_keeps hW _ { l with running := true } ⟨hl.world, hl.session⟩
  have hturns := turns_keeps hW hsleep hentered pauses
  rw [runForever_eq] at h
  rcases ht : turns L pauses (entered L l) with ⟨r' | _, m'⟩ <;> rw [ht] at h hturns
  · have hforced : Safe W (drive L.driver.forceStop m').2 := drive_keeps hW .forceStop m' hturns
    have hidle : Idle (drive L.driver.forceStop m').2.scene.session := Driver.forceStop_idle hturns.session
    have hwrapped : W (wrapUp L m').2.scene.world ∧ Idle (wrapUp L m').2.scene.session := by
      unfold wrapUp
      rw [bind_run]
      rcases hf : drive L.driver.forceStop m' with ⟨e | _, m''⟩ <;> rw [hf] at hforced hidle
      · exact ⟨hforced.world, hidle⟩
      · exact ⟨hW.rig.note _ _ hforced.world, hidle⟩
    dsimp only [endWith] at h
    rcases hw : wrapUp L m' with ⟨e | _, m''⟩ <;> rw [hw] at h hwrapped <;> cases h <;> exact hwrapped
  · cases h

end ScanLoop
/-! ## Toggle keys that a listener takes -/

namespace Listener

variable {table : List (Value × Value)}

theorem lowerKey_ok {v k : Value} (h : lowerKey v = .ok k) : HasCase v ∧ (k.IsText ↔ v.IsText) := by
  cases v with
  | str s =>
    obtain rfl := Except.ok.inj h
    exact ⟨Or.inl ⟨s, rfl⟩, iff_of_true ⟨_, rfl⟩ ⟨_, rfl⟩⟩
  | bytes bs =>
    obtain rfl := Except.ok.inj h
    exact ⟨Or.inr ⟨bs, rfl⟩, iff_of_false (fun ⟨_, h⟩ => by cases h) (fun ⟨_, h⟩ => by cases h)⟩
  | _ => cases h

/-- the keys of a mapping with one more entry, as texts -/
theorem insert_texts {k mode : Value} {es : List (Value × Value)} :
    (∀ e ∈ Value.insert k mode es, e.1.IsText) ↔ (∀ e ∈ es, e.1.IsText) ∧ k.IsText := by
  induction es with
  | nil => simp [Value.insert]
  | cons e es ih =>
    rw [Value.insert]
    by_cases hsame : e.1.same k = true
    · -- the entry keeps its key, which is a text if the new one is
      have hkey : e.1.IsText ↔ k.IsText := by
        constructor
        · rintro ⟨t, ht⟩
          rw [ht] at hsame
          exact ⟨t, Value.eq_of_str_same hsame⟩
        · rintro ⟨t, rfl⟩
          exact ⟨t, Value.eq_of_same_str hsame⟩
      simp only [hsame, if_true, List.forall_mem_cons, hkey]
      tauto
    · simp only [hsame, Bool.false_eq_true, if_false, List.forall_mem_cons, ih]
      tauto

/-- a table that is taken has keys with a lower case, and is left with texts alone if it has texts alone -/
theorem lowered_texts {out : List (Value × Value)} (h : lowered table = .ok out) :
    (∀ e ∈ table, HasCase e.1) ∧ ((∀ e ∈ out, e.1.IsText) ↔ ∀ e ∈ table, e.1.IsText) := by
  induction table using List.reverseRecOn generalizing out with
  | nil =>
    obtain rfl := Except.ok.inj h
    exact ⟨List.forall_mem_nil _, Iff.rfl⟩
  | append_singleton table e ih =>
    obtain ⟨es, hes, -⟩ : ∃ es, lowered table = .ok es ∧ _ := by
      unfold lowered at h
      rw [List.foldlM_append] at h
      exact ok_of_bind h
    obtain ⟨hcase, htexts⟩ := ih hes
    rw [lowered_snoc hes] at h
    cases hk : lowerKey e.1 with
    | error fault =>
      rw [hk] at h
      cases h
    | ok k =>
      rw [hk] at h
      obtain rfl := Except.ok.inj h
      obtain ⟨hkcase, hktext⟩ := lowerKey_ok hk
      simp only [List.forall_mem_append, List.forall_mem_singleton, insert_texts, htexts, hktext]
      exact ⟨⟨hcase, hkcase⟩, trivial⟩

/-- **A listener takes texts and bytes** as toggle keys, -/
theorem ofTable_isOk_iff : (∃ l, ofTable table = .ok l) ↔ ∀ e ∈ table, HasCase e.1 := by
  constructor
  · rintro ⟨l, hl⟩
    unfold ofTable at hl
    cases hout : lowered table with
    | error e =>
      rw [hout] at hl
      cases hl
    | ok out => exact (lowered_texts hout).1
  · intro h
    obtain ⟨l, hl, -⟩ := ofTable_modes h
    exact ⟨l, hl⟩

/-- and lists texts. -/
theorem listing_isOk_iff {l : Listener} (h : ofTable table = .ok l) :
    (∃ text, l.listing = .ok text) ↔ ∀ e ∈ table, e.1.IsText := by
  unfold ofTable at h
  cases hout : lowered table with
  | error e =>
    rw [hout] at h
    cases h
  | ok out =>
    rw [hout] at h
    obtain rfl := Except.ok.inj h
    rw [← (lowered_texts hout).2]
    show (∃ text, Value.listed (out.map (·.1)) = .ok text) ↔ _
    rw [Value.listed_iff, List.forall_mem_map]

end Listener

/-! ## The host's world -/

namespace Link

open Wire

/-- whether a connection is made is what the network has next for an attempt -/
theorem connect_answer (l : Link) :
    Ends connect l (fun b _ => b = true ↔ (take l.wire.connects).1 = .success) (fun _ _ => True) := by
  have hanswer : ∀ host port timeout, (∃ n, (l.wire.connect host port timeout).1 = .ok n) ↔
      (take l.wire.connects).1 = .success := by
    intro host port timeout
    unfold Wire.connect
    rcases take l.wire.connects with ⟨_ | o, rest⟩ <;> simp
  unfold connect
  rw [ends_bind, ends_get, ends_bind]
  refine request_answered.mono (fun r l₁ h => ?_) fun _ _ h => h
  obtain ⟨hr, rfl⟩ := h
  rw [← hanswer l.sender.host l.sender.port l.sender.timeout, ← hr]
  cases r with
  | ok n =>
    have hconnected : true = true ↔ ∃ m, (Except.ok n : Except Outage ℕ) = .ok m := iff_of_true rfl ⟨n, rfl⟩
    exact hconnected
  | error o =>
    refine (ends_denied (P := fun _ => False)).mono (fun b _ hb => ?_) fun _ _ h => h
    exact iff_of_false hb fun ⟨n, hn⟩ => by cases hn

end Link

namespace Station

open Wire

variable {script : List KeyHold.Outcome} {s : Station}

/-- key actions go to a network whose failures can all be expected -/
structure Wet (script : List KeyHold.Outcome) (s : Station) : Prop where
  wet : s.dry = false
  fair : Fair script s.forwarder.outlet.wire

theorem wet_keeps : Station.rig.Keeps (Wet script) where
  rig :=
    { down := by
        intro k s h
        obtain ⟨f, hf, -, hspoken | hsilent⟩ := key_down h.wet h.fair k
        · exact (congrArg Prod.snd hf).symm ▸ ⟨h.wet, hspoken.fair⟩
        · exact (congrArg Prod.snd hf).symm ▸ ⟨h.wet, hsilent.fair⟩
      up := by
        intro k s h
        obtain ⟨f, hf, ⟨-, hspoken⟩ | ⟨-, hsilent⟩⟩ := key_up h.wet h.fair k
        · exact (congrArg Prod.snd hf).symm ▸ ⟨h.wet, hspoken.fair⟩
        · exact (congrArg Prod.snd hf).symm ▸ ⟨h.wet, hsilent.fair⟩
      wait := fun _ _ h => ⟨h.wet, h.fair⟩
      note := fun _ _ h => ⟨h.wet, h.fair⟩ }
  entropy := fun _ h => ⟨h.wet, h.fair⟩
  changed := fun _ _ h => ⟨h.wet, h.fair⟩

theorem Wet.sleep {seconds : Float} {s' : Station} (hs : sleep seconds s = .ok s') (h : Wet script s) : Wet script s' := by
  unfold Station.sleep at hs
  cases hclock : s.clock.advance (seconds * 1000.0) with
  | error e =>
    rw [hclock] at hs
    cases hs
  | ok clock =>
    rw [hclock] at hs
    obtain rfl := Except.ok.inj hs
    exact ⟨h.wet, h.fair⟩

theorem Wet.notes (h : Wet script s) (entries : List Entry) : Wet script (entries.foldl (fun s e => s.note e) s) := by
  induction entries generalizing s with
  | nil => exact h
  | cons e entries ih => exact ih ⟨h.wet, h.fair⟩

/-- the sender is not connected and holds no socket -/
structure Freed (s : Station) : Prop where
  disconnected : s.forwarder.outlet.sender.connected = false
  unplugged : s.forwarder.outlet.sender.socket = none

/-- the first attempt to connect, which leaves a connection exactly if the network takes it -/
theorem Wet.connect (h : Wet script s) : ∃ b s', s.onLink Link.connect = (.ok b, s') ∧ Wet script s' ∧
    (b = true ↔ (take s.forwarder.outlet.wire.connects).1 = .success) ∧ (s'.Freed ↔ b = false) := by
  obtain ⟨b, hb, hdid⟩ := (Link.connect_ways h.fair).returns
  have hanswer := Link.connect_answer s.forwarder.outlet
  unfold Ends at hanswer
  rcases hc : Link.connect s.forwarder.outlet with ⟨e | b', l⟩ <;> rw [hc] at hb hdid hanswer <;> cases hb
  have hlink : s.onLink Link.connect = (.ok b, { s with forwarder := { s.forwarder with outlet := l } }) := by
    unfold Station.onLink
    rw [hc]
  refine ⟨b, _, hlink, ?_, hanswer, ?_⟩
  · cases b with
    | true => exact ⟨h.wet, hdid.wire.fair⟩
    | false => exact ⟨h.wet, hdid.wire.fair⟩
  · cases b with
    | true =>
      refine iff_of_false (fun hfreed => ?_) (by simp)
      have hconnected : l.sender.connected = false := hfreed.disconnected
      rw [hdid.sender] at hconnected
      cases hconnected
    | false =>
      refine iff_of_true ?_ rfl
      constructor
      · show l.sender.connected = false
        rw [hdid.sender]
        rfl
      · show l.sender.socket = none
        rw [hdid.sender]
        rfl

/-- letting go of the connection -/
theorem Wet.disconnect (h : Wet script s) : ∃ s', s.onLink Link.disconnect = (.ok (), s') ∧ s'.Freed := by
  obtain ⟨_, hreturned, hdid⟩ := (Link.disconnect_ways h.fair).returns
  refine ⟨(s.onLink Link.disconnect).2, Prod.ext hreturned rfl, ?_⟩
  have hsender : (s.onLink Link.disconnect).2.forwarder.outlet.sender = Link.without s.forwarder.outlet.sender :=
    hdid.sender
  constructor
  · rw [hsender]
    rfl
  · rw [hsender]
    rfl

end Station

/-! ## The run -/

namespace Host

open Settings Station Session

variable {S : Settings} {noise : Noise} {pauses : List (List Happening)} {script : List KeyHold.Outcome} {s : Station}

/-- nothing is left behind -/
structure CleanedUp (o : Outcome) : Prop where
  freed : o.station.Freed
  idle : Idle o.session
  silent : o.listener.listening = false

/-- some mode has a toggle key, and all toggle keys are texts -/
def Watched (S : Settings) : Prop := toggled S ≠ [] ∧ ∀ p ∈ toggled S, p.toggleKey.IsText

/-- some mode has a toggle key, and all toggle keys are texts or bytes -/
def Hooked (S : Settings) : Prop := toggled S ≠ [] ∧ ∀ p ∈ toggled S, Listener.HasCase p.toggleKey

/-- the end of a run lets go of the connection and stops the listener -/
theorem close_frees (h : Wet script s) (r : Except Fault ℤ) (listener : Listener) :
    (close r listener s).2.1.listening = false ∧ (close r listener s).2.2.Freed := by
  have hstopped : listener.stop.1.listening = false := by
    unfold Listener.stop
    cases hl : listener.listening with
    | false => simpa using hl
    | true => rfl
  have hnoted := h.notes listener.stop.2
  have hwet : ¬ (listener.stop.2.foldl (fun s e => s.note e) s).dry = true := by simp [hnoted.wet]
  unfold close
  dsimp only
  rw [if_neg hwet]
  obtain ⟨s', hs', hfreed⟩ := Wet.disconnect (s := note .info ("Sender stats: " ++ Link.statsText
    (listener.stop.2.foldl (fun s e => s.note e) s).forwarder.outlet.sender)
    (listener.stop.2.foldl (fun s e => s.note e) s)) ⟨hnoted.wet, hnoted.fair⟩
  rw [hs']
  exact ⟨hstopped, hfreed⟩

/-- toggle keys that cannot be listed leave the listener as it is -/
theorem watch_unlisted {listener : Listener} {e : Fault} (h : listener.listing = .error e) :
    (watch S noise pauses listener s).listener.listening = true := by
  have hlisting : listener.start.1.listing = .error e := h
  unfold watch
  dsimp only
  rw [hlisting]
  rfl

/-- once the loop runs, its end cleans up -/
theorem watch_listed (hw : Wet script s) {listener : Listener} {text : String} (h : listener.listing = .ok text)
    {r : Except Fault ℤ} (hr : (watch S noise pauses listener s).result = some r) :
    CleanedUp (watch S noise pauses listener s) := by
  have hlisting : listener.start.1.listing = .ok text := h
  have hsleep : ∀ x w w', Station.sleep x w = .ok w' → Wet script w → Wet script w' := fun _ _ _ hs hw => hw.sleep hs
  unfold watch at hr ⊢
  dsimp only at hr ⊢
  rw [hlisting] at hr ⊢
  dsimp only at hr ⊢
  rcases hrun : ScanLoop.runForever (setup S noise) pauses _ with ⟨r' | _, m⟩ <;> rw [hrun] at hr <;> dsimp only at hr ⊢
  · obtain ⟨hworld, hidle⟩ := ScanLoop.runForever_ended (L := setup S noise) wet_keeps hsleep
      ⟨hw.notes _, fun _ => ⟨rfl, rfl, rfl, rfl, rfl⟩⟩ hrun
    obtain ⟨hsilent, hfreed⟩ := close_frees hworld (r'.map fun _ => 0) m.listener
    exact ⟨hfreed, hidle, hsilent⟩
  · cases hr

theorem Watched.hooked (h : Watched S) : Hooked S :=
  ⟨h.1, fun p hp => Or.inl (h.2 p hp)⟩

/-- a listener takes the toggle keys of hooked settings, -/
theorem ofTable_toggleTable_iff (hS : S.Sound) (hsome : toggled S ≠ []) :
    (∃ l, Listener.ofTable (toggleTable S) = .ok l) ↔ Hooked S := by
  rw [Listener.ofTable_isOk_iff, toggleTable_eq hS, List.forall_mem_map]
  exact ⟨fun h => ⟨hsome, h⟩, And.right⟩

/-- and can list those of watched ones. -/
theorem listing_toggleTable_iff (hS : S.Sound) (hsome : toggled S ≠ []) {l : Listener}
    (hl : Listener.ofTable (toggleTable S) = .ok l) : (∃ text, l.listing = .ok text) ↔ Watched S := by
  rw [Listener.listing_isOk_iff hl, toggleTable_eq hS, List.forall_mem_map]
  exact ⟨fun h => ⟨hsome, h⟩, And.right⟩

/-- without a listener nothing is left behind if nothing was opened -/
theorem unhooked_cleansUp_iff (h : ¬ Hooked S) {o : Outcome} (hfreed : o.station.Freed ↔ s.Freed) (hidle : Idle o.session)
    (hsilent : o.listener.listening = false) : CleanedUp o ↔ Watched S ∨ (s.Freed ∧ ¬ Hooked S) := by
  constructor
  · intro hclean
    exact Or.inr ⟨hfreed.1 hclean.freed, h⟩
  · rintro (hwatched | ⟨hs, -⟩)
    · exact absurd hwatched.hooked h
    · exact ⟨hfreed.2 hs, hidle, hsilent⟩

/-- with a listener nothing is left behind if it can list its toggle keys -/
theorem watch_cleansUp_iff (hw : Wet script s) {l : Listener} {r : Except Fault ℤ}
    (hr : (watch S noise pauses l s).result = some r) :
    CleanedUp (watch S noise pauses l s) ↔ ∃ text, l.listing = .ok text := by
  cases hlisting : l.listing with
  | error fault =>
    have hlistening : (watch S noise pauses l s).listener.listening = true := watch_unlisted hlisting
    refine iff_of_false (fun h => ?_) (fun ⟨text, h⟩ => by cases h)
    rw [h.silent] at hlistening
    cases hlistening
  | ok text => exact iff_of_true (watch_listed hw hlisting hr) ⟨text, rfl⟩

/-- from a chosen effector on, a run cleans up if its loop is reached; before, only what was not opened is closed -/
theorem runWith_cleansUp_iff (hS : S.Sound) (hw : Wet script s) {r : Except Fault ℤ}
    (hr : (runWith S noise pauses s).result = some r) :
    CleanedUp (runWith S noise pauses s) ↔ Watched S ∨ (s.Freed ∧ ¬ Hooked S) := by
  have htable := toggleTable_eq hS
  have hidle : Idle ({} : Session) := ⟨rfl, rfl, rfl, rfl, rfl⟩
  unfold runWith at hr ⊢
  by_cases hnone : toggled S = []
  · rw [hnone, List.map_nil] at htable
    rw [htable]
    apply unhooked_cleansUp_iff
    · exact fun h => h.1 hnone
    · exact ⟨fun h => ⟨h.disconnected, h.unplugged⟩, fun h => ⟨h.disconnected, h.unplugged⟩⟩
    · exact hidle
    · rfl
  have hmatch : toggleTable S ≠ [] := by simp [htable, hnone]
  have hhooked := ofTable_toggleTable_iff hS hnone
  have hwatched (l : Listener) := listing_toggleTable_iff hS hnone (l := l)
  generalize toggleTable S = table at hr hmatch hhooked hwatched ⊢
  cases table with
  | nil => exact absurd rfl hmatch
  | cons e table =>
    dsimp only at hr ⊢
    cases hl : Listener.ofTable (e :: table) with
    | error fault =>
      have hunhooked : ¬ Hooked S := by
        intro h
        obtain ⟨l, hl'⟩ := hhooked.2 h
        rw [hl] at hl'
        cases hl'
      exact unhooked_cleansUp_iff hunhooked Iff.rfl hidle rfl
    | ok l =>
      rw [hl] at hr
      rw [watch_cleansUp_iff hw hr, hwatched l hl]
      have hhook : Hooked S := hhooked.1 ⟨l, hl⟩
      exact ⟨Or.inl, fun h => h.resolve_right fun h => h.2 hhook⟩

/-- a station as a process begins with it: key actions are not just noted, and nothing was asked yet of a network whose
failures can all be expected -/
structure Begun (s : Station) : Prop where
  wet : s.dry = false
  unasked : s.forwarder.outlet.wire.calls = #[]
  mild : s.forwarder.outlet.wire.AllMild

/-- the network takes the first attempt to connect -/
def Reached (s : Station) : Prop := (Wire.take s.forwarder.outlet.wire.connects).1 = .success

/-- **What is left behind.** A run that is not dry, on a network whose failures can all be expected, ends with the sender
not connected and without a socket, the session idle and the listener stopped, exactly if its loop was reached, since some
mode has a toggle key and all toggle keys are texts, or if the controller was not, and the run ended before its listener
was started. Otherwise it leaves the connection open, the listener running, or both. -/
theorem run_cleansUp_iff {entries : List (Value × Value)} (hS : ofData (.map entries) = .ok S) (hnames : NamesApart entries)
    {dryRun : Bool} (hdry : (dryRun || S.host.dryRun) = false) (hs : Begun s) {r : Except Fault ℤ}
    (hr : (run S noise dryRun pauses s).result = some r) :
    CleanedUp (run S noise dryRun pauses s) ↔
      Watched S ∨ (¬ Reached s ∧ (S.hid.autoReconnect = false ∨ ¬ Hooked S)) := by
  have hsound := sound_of_ofData hS hnames
  have hwet : Wet s.forwarder.outlet.wire.sends { s with
      forwarder := { s.forwarder with outlet := { s.forwarder.outlet with sender := sender S.hid } } } :=
    ⟨hs.wet, (Wire.fair_fresh hs.unasked hs.mild).1⟩
  obtain ⟨b, s', hconnect, hwet, hreached, hfreed⟩ := hwet.connect
  have hreached : b = true ↔ Reached s := hreached
  unfold run at hr ⊢
  rw [if_neg (by simp [hdry])] at hr ⊢
  dsimp only at hr ⊢
  rw [hconnect] at hr ⊢
  dsimp only at hr ⊢
  by_cases hends : (!b && !S.hid.autoReconnect) = true
  · -- no connection, and none is to be tried again
    obtain ⟨rfl, hauto⟩ : b = false ∧ S.hid.autoReconnect = false := by simpa using hends
    have hfreed : s'.Freed := hfreed.2 rfl
    have hunreached : ¬ Reached s := by
      intro h
      cases hreached.2 h
    rw [if_pos hends]
    refine iff_of_true ⟨⟨hfreed.disconnected, hfreed.unplugged⟩, ⟨rfl, rfl, rfl, rfl, rfl⟩, rfl⟩ ?_
    exact Or.inr ⟨hunreached, Or.inl hauto⟩
  · rw [if_neg hends] at hr ⊢
    rw [runWith_cleansUp_iff hsound hwet hr, hfreed, ← hreached]
    cases b with
    | true => simp
    | false =>
      have hauto : S.hid.autoReconnect = true := by simpa using hends
      simp [hauto]

theorem returned_of_toOption {result : Option (Except Fault ℤ)} {code : ℤ}
    (h : result.bind Except.toOption = some code) : result = some (.ok code) := by
  rcases result with _ | _ | r
  · cases h
  · cases h
  · exact congrArg (some ∘ Except.ok) (Option.some.inj h)

/-- a network that refuses the first connection and breaks the next at its second command -/
def rough : Station := { forwarder := { outlet := { wire := {
  connects := [.failure ⟨"ConnectionRefusedError", "refused"⟩]
  sends := [.success, .failure ⟨"BrokenPipeError", "gone"⟩] } } } }

/-- a run of the built-in modes: pause is pressed during the first sleep, and the process interrupted in the third -/
theorem rough_cleansUp : ofData (.map []) = .ok {} ∧ Begun rough ∧
    let o := run {} .mean false [[.press ⟨none, "Key.pause"⟩], [], [.signal 2]] rough
    o.result = some (.ok 0) ∧ CleanedUp o := by
  have hbegun : Begun rough := ⟨rfl, rfl, by decide⟩
  have hwatched : Watched {} := by
    refine ⟨by simp [toggled, Policy.builtin, Policy.og, Value.truthy], fun p hp => ?_⟩
    have hp : p ∈ Policy.builtin := (List.mem_filter.1 hp).1
    simp only [Policy.builtin, List.mem_cons, List.not_mem_nil, or_false] at hp
    rcases hp with rfl | rfl
    · exact ⟨_, rfl⟩
    · exact ⟨_, rfl⟩
  have hresult : (run {} .mean false [[.press ⟨none, "Key.pause"⟩], [], [.signal 2]] rough).result = some (.ok 0) :=
    returned_of_toOption (by decide +kernel)
  refine ⟨ofData_empty, hbegun, hresult, ?_⟩
  exact (run_cleansUp_iff ofData_empty (fun _ h => by cases h) rfl hbegun hresult).2 (Or.inl hwatched)

/-- a mode without a toggle key -/
def bare : Value := .map [(.str "modes", .map [(.str "bare", .map [
  (.str "phases", .list [.map [(.str "key", .str "up"), (.str "mean_ms", .int 500)]])])])]

/-- **Without a toggle key the connection stays open**: the configuration is accepted, the controller answers, and the run
returns 1 with its sender connected. -/
theorem bare_stays_connected : ∃ S, ofData bare = .ok S ∧ S.host.dryRun = false ∧ Begun {} ∧
    (run S .mean false [] {}).result = some (.ok 1) ∧
    (run S .mean false [] {}).station.forwarder.outlet.sender.connected = true ∧
    (run S .mean false [] {}).station.forwarder.outlet.sender.socket = some 1 := by
  obtain ⟨S, hS, h⟩ := exists_of_any bare (fun S => decide (S.host.dryRun = false ∧
    (run S .mean false [] {}).result.bind Except.toOption = some 1 ∧
    (run S .mean false [] {}).station.forwarder.outlet.sender.connected = true ∧
    (run S .mean false [] {}).station.forwarder.outlet.sender.socket = some 1)) (by decide +kernel)
  obtain ⟨hdry, hresult, hconnected, hsocket⟩ := of_decide_eq_true h
  exact ⟨S, hS, hdry, ⟨rfl, rfl, by decide⟩, returned_of_toOption hresult, hconnected, hsocket⟩

end Host
end KeyHold
