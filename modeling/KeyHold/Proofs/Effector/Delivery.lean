/-
What reaches the other side of a network.

Sends use up a list of outcomes, one each. Played against that list the requests made of a network tell which lines
were delivered: a send delivers its line if its outcome is a success and nothing otherwise. On a network whose failures
are all expected no operation faults, and:

- `disconnect_ways`, `connect_ways`, `write_ways`: how an operation ends, with the requests made (`Moved`) and the sender
  it leaves (`Did`).
- `sendKey_ends`: a command that is answered with true delivered its line, one answered with false delivered nothing.
- `keyDown_ends`, `keyUp_ends`: a press delivers its line or nothing; a release delivers its line, or delivers nothing
  and counts as lost.
-/
import Mathlib.Tactic
import KeyHold.Effector.Sender
import KeyHold.Proofs.Ends

namespace KeyHold

/-- a success, or a failure that can be expected -/
def Outcome.Mild : Outcome → Prop
  | .success => True
  | .failure o => o.expected = true

instance : DecidablePred Outcome.Mild
  | .success => isTrue trivial
  | .failure o => inferInstanceAs (Decidable (o.expected = true))

namespace Wire

/-- the outcomes of sends not used yet and the lines delivered, after one more request -/
def account (s : List Outcome × List String) (call : NetCall) : List Outcome × List String :=
  match call with
  | .send _ line =>
    match take s.1 with
    | (.success, rest) => (rest, s.2 ++ [line])
    | (.failure _, rest) => (rest, s.2)
  | _ => s

/-- the requests of a network played against the outcomes of its sends -/
def played (script : List Outcome) (w : Wire) : List Outcome × List String :=
  w.calls.toList.foldl account (script, [])

/-- the lines delivered -/
def delivered (script : List Outcome) (w : Wire) : List String := (played script w).2

/-- a network whose failures are mild, and whose sends so far had the first outcomes of `script` -/
structure Fair (script : List Outcome) (w : Wire) : Prop where
  connects : ∀ o ∈ w.connects, o.Mild
  sends : ∀ o ∈ w.sends, o.Mild
  closes : ∀ o ∈ w.closes, o.Mild
  left : (played script w).1 = w.sends

variable {script : List Outcome} {w : Wire}

theorem take_mild {os : List Outcome} (h : ∀ o ∈ os, o.Mild) : (take os).1.Mild ∧ ∀ o ∈ (take os).2, o.Mild := by
  cases os with
  | nil => exact ⟨trivial, h⟩
  | cons o os => exact ⟨h o List.mem_cons_self, fun o' ho' => h o' (List.mem_cons_of_mem o ho')⟩

theorem played_push {w' : Wire} {c : NetCall} (h : w'.calls = w.calls.push c) :
    played script w' = account (played script w) c := by
  rw [played, h, Array.toList_push, List.foldl_append]
  rfl

/-- no failure to come is an unexpected one -/
def AllMild (w : Wire) : Prop := ∀ o ∈ w.connects ++ w.sends ++ w.closes, o.Mild

instance (w : Wire) : Decidable w.AllMild :=
  inferInstanceAs (Decidable (∀ o ∈ w.connects ++ w.sends ++ w.closes, o.Mild))

theorem fair_fresh {w : Wire} (hc : w.calls = #[]) (h : w.AllMild) : Fair w.sends w ∧ delivered w.sends w = [] := by
  refine ⟨⟨fun o ho => h o (by simp [ho]), fun o ho => h o (by simp [ho]), fun o ho => h o (by simp [ho]), ?_⟩, ?_⟩
  · rw [played, hc]
    rfl
  · rw [delivered, played, hc]
    rfl

/-- what was asked of a network: the requests, the lines they delivered, and how many connections it then has opened -/
structure Moved (script : List Outcome) (w : Wire) (requests : List NetCall) (lines : List String) (opened : ℕ)
    (w' : Wire) : Prop where
  fair : Fair script w'
  calls : w'.calls.toList = w.calls.toList ++ requests
  lines : delivered script w' = delivered script w ++ lines
  opened : w'.opened = opened
  timestamp : w'.timestamp = w.timestamp
  seconds : w'.seconds = w.seconds

theorem Moved.refl (h : Fair script w) : Moved script w [] [] w.opened w :=
  ⟨h, (List.append_nil _).symm, (List.append_nil _).symm, rfl, rfl, rfl⟩

theorem Moved.trans {w₁ w₂ : Wire} {rs rs' : List NetCall} {ls ls' : List String} {n n' : ℕ}
    (h : Moved script w rs ls n w₁) (h' : Moved script w₁ rs' ls' n' w₂) :
    Moved script w (rs ++ rs') (ls ++ ls') n' w₂ where
  fair := h'.fair
  calls := by rw [h'.calls, h.calls, List.append_assoc]
  lines := by rw [h'.lines, h.lines, List.append_assoc]
  opened := h'.opened
  timestamp := h'.timestamp.trans h.timestamp
  seconds := h'.seconds.trans h.seconds

end Wire

namespace Link

open Wire

variable {script : List Outcome} {l : Link} {F : Fault → Link → Prop}

/-! ## Requests -/

/-- nothing was delivered -/
structure Silent (script : List Outcome) (w w' : Wire) : Prop where
  fair : Fair script w'
  same : delivered script w' = delivered script w

/-- one line was delivered -/
structure Spoken (script : List Outcome) (key action : String) (w w' : Wire) : Prop where
  fair : Fair script w'
  line : ∃ timestamp, delivered script w' = delivered script w ++ [commandLine timestamp key action]

theorem Silent.refl {w : Wire} (h : Fair script w) : Silent script w w := ⟨h, rfl⟩

theorem Silent.trans {w w₁ w₂ : Wire} (h : Silent script w w₁) (h' : Silent script w₁ w₂) : Silent script w w₂ :=
  ⟨h'.fair, h'.same.trans h.same⟩

theorem Silent.spoken {key action : String} {w w₁ w₂ : Wire} (h : Silent script w w₁)
    (h' : Spoken script key action w₁ w₂) : Spoken script key action w w₂ := by
  obtain ⟨timestamp, ht⟩ := h'.line
  exact ⟨h'.fair, timestamp, ht.trans (congrArg (· ++ _) h.same)⟩

/-- a request that is not a send delivers nothing -/
theorem moved_push {w w' : Wire} {c : NetCall} {n : ℕ} (hw : Fair script w) (h : w'.calls = w.calls.push c)
    (hc : account (played script w) c = played script w) (h1 : ∀ o ∈ w'.connects, o.Mild) (h2 : w'.sends = w.sends)
    (h3 : ∀ o ∈ w'.closes, o.Mild) (hn : w'.opened = n) (ht : w'.timestamp = w.timestamp)
    (hs : w'.seconds = w.seconds) : Moved script w [c] [] n w' := by
  have hp : played script w' = played script w := (played_push h).trans hc
  exact ⟨⟨h1, h2 ▸ hw.sends, h3, by rw [hp, h2, hw.left]⟩, by rw [h, Array.toList_push],
    (congrArg Prod.snd hp).trans (List.append_nil _).symm, hn, ht, hs⟩

theorem Silent.of_moved {w w' : Wire} {rs : List NetCall} {n : ℕ} (h : Moved script w rs [] n w') :
    Silent script w w' := ⟨h.fair, h.lines.trans (List.append_nil _)⟩

/-- a request for a connection gives the next one, or none -/
theorem connect_request {host : String} {port : ℤ} {timeout : Float} (hw : Fair script l.wire) :
    Ends (request (Wire.connect host port timeout)) l (fun r l' => ∃ w, l' = { l with wire := w } ∧ match r with
      | .ok n => n = l.wire.opened + 1 ∧
        Moved script l.wire [.connect host port timeout] [] (l.wire.opened + 1) w
      | .error _ => Moved script l.wire [.connect host port timeout] [] l.wire.opened w) F := by
  obtain ⟨ho, hrest⟩ := take_mild hw.connects
  unfold Ends request Wire.connect
  rcases ht : take l.wire.connects with ⟨_ | o, rest⟩
  · rw [ht] at hrest
    exact ⟨_, rfl, rfl, moved_push hw rfl rfl hrest rfl hw.closes rfl rfl rfl⟩
  · rw [ht] at ho hrest
    simp only [show o.expected = true from ho, if_true]
    exact ⟨_, rfl, moved_push hw rfl rfl hrest rfl hw.closes rfl rfl rfl⟩

theorem close_request {n : ℕ} (hw : Fair script l.wire) :
    Ends (request (Wire.close n)) l
      (fun _ l' => ∃ w, l' = { l with wire := w } ∧ Moved script l.wire [.close n] [] l.wire.opened w) F := by
  obtain ⟨ho, hrest⟩ := take_mild hw.closes
  unfold Ends request Wire.close
  rcases ht : take l.wire.closes with ⟨_ | o, rest⟩
  · rw [ht] at hrest
    exact ⟨_, rfl, moved_push hw rfl rfl hw.connects rfl hrest rfl rfl rfl⟩
  · rw [ht] at ho hrest
    simp only [show o.expected = true from ho, if_true]
    exact ⟨_, rfl, moved_push hw rfl rfl hw.connects rfl hrest rfl rfl rfl⟩

/-- a send delivers its line if it succeeds, and nothing otherwise -/
theorem send_request {n : ℕ} {line : String} (hw : Fair script l.wire) :
    Ends (request (Wire.send n line)) l (fun r l' => ∃ w, l' = { l with wire := w } ∧ match r with
      | .ok () => Moved script l.wire [.send n line] [line] l.wire.opened w
      | .error _ => Moved script l.wire [.send n line] [] l.wire.opened w) F := by
  obtain ⟨ho, hrest⟩ := take_mild hw.sends
  have hp : ∀ w', w'.calls = l.wire.calls.push (.send n line) →
      played script w' = account (played script l.wire) (.send n line) := fun w' h => played_push h
  simp only [account, hw.left] at hp
  unfold Ends request Wire.send
  rcases ht : take l.wire.sends with ⟨_ | o, rest⟩
  · rw [ht] at hrest hp
    exact ⟨_, rfl, ⟨hw.connects, hrest, hw.closes, congrArg Prod.fst (hp _ rfl)⟩, Array.toList_push,
      congrArg Prod.snd (hp _ rfl), rfl, rfl, rfl⟩
  · rw [ht] at ho hrest hp
    simp only [show o.expected = true from ho, if_true]
    exact ⟨_, rfl, ⟨hw.connects, hrest, hw.closes, congrArg Prod.fst (hp _ rfl)⟩, Array.toList_push,
      (congrArg Prod.snd (hp _ rfl)).trans (List.append_nil _).symm, rfl, rfl, rfl⟩

/-! ## Operations of the sender -/

/-- the link moved like its network, with the sender as given -/
structure Did (script : List Outcome) (l : Link) (requests : List NetCall) (lines : List String) (opened : ℕ)
    (s : Sender) (l' : Link) : Prop where
  wire : Moved script l.wire requests lines opened l'.wire
  sender : l'.sender = s

/-- the request that lets go of the connection, if there is one -/
def letGo (s : Sender) : List NetCall := s.socket.toList.map NetCall.close

/-- a sender without a connection -/
def without (s : Sender) : Sender := { s with socket := none, connected := false }

/-- an entry, if there is one, changes neither the sender nor the network -/
theorem ends_sayIf {c : Prop} [Decidable c] {level : Level} {text : String} {Q : Unit → Link → Prop}
    {F : Fault → Link → Prop} (hQ : ∀ journal, Q () { l with journal }) :
    Ends (if c then say level text else pure ()) l Q F := by
  split_ifs
  · exact hQ _
  · exact hQ _

/-- **Letting go** closes the connection, if there is one, however that ends. -/
theorem disconnect_ways (hw : Fair script l.wire) :
    Ends disconnect l (fun _ l' => Did script l (letGo l.sender) [] l.wire.opened (without l.sender) l')
      (fun _ _ => False) := by
  rcases l with ⟨⟨host, port, timeout, auto, _ | n, connected, sent, errors, reconnects, lastSend⟩, w, journal⟩
  · -- nothing to close
    unfold disconnect
    rw [ends_bind, ends_get, ends_bind, change, ends_modify]
    exact ends_sayIf fun journal => ⟨Moved.refl hw, rfl⟩
  · unfold disconnect
    rw [ends_bind, ends_get, ends_bind, change, ends_modify]
    dsimp only
    rw [ends_bind]
    let l : Link := ⟨⟨host, port, timeout, auto, some n, false, sent, errors, reconnects, lastSend⟩, w, journal⟩
    refine (close_request (l := l) hw).mono (fun r l₁ h => ?_) (fun _ _ h => h)
    obtain ⟨w₁, rfl, h⟩ := h
    rw [ends_bind, change, ends_modify]
    exact ends_sayIf fun journal => ⟨h, rfl⟩

/-- a sender with its newest connection -/
def holding (s : Sender) (n : ℕ) : Sender := { s with socket := some n, connected := true }

/-- the request for a connection -/
def asks (s : Sender) : NetCall := .connect s.host s.port s.timeout

/-- **Connecting** leaves the sender with a new connection, whatever it had, or with none. -/
theorem connect_ways (hw : Fair script l.wire) :
    Ends connect l (fun b l' => if b then
        Did script l [asks l.sender] [] (l.wire.opened + 1) (holding l.sender (l.wire.opened + 1)) l'
      else Did script l (asks l.sender :: letGo l.sender) [] l.wire.opened (without l.sender) l')
      (fun _ _ => False) := by
  unfold connect
  rw [ends_bind, ends_get, ends_bind]
  refine (connect_request hw).mono (fun r l₁ h => ?_) (fun _ _ h => h)
  obtain ⟨w₁, rfl, h⟩ := h
  cases r with
  | ok n =>
    obtain ⟨rfl, h⟩ := h
    exact ⟨h, rfl⟩
  | error o =>
    rw [ends_bind, say, ends_modify, ends_bind]
    let l₁ : Link := note ⟨.error, .sender, "Connection failed: " ++ o.text⟩ { l with wire := w₁ }
    refine (disconnect_ways (l := l₁) h.fair).mono (fun _ l₂ h₂ => ?_) (fun _ _ h => h)
    exact ⟨h.trans (h.opened ▸ h₂.wire), h₂.sender⟩

/-- a sender that has delivered one more command -/
def credited (s : Sender) (seconds : Float) : Sender :=
  { s with commandsSent := s.commandsSent + 1, lastSend := seconds }

/-- a sender with one more error -/
def blamed (s : Sender) : Sender := { s with errors := s.errors + 1 }

/-- a sender whose connection has failed; it keeps the socket -/
def broken (s : Sender) : Sender := { blamed s with connected := false }

/-- a command, at the network's time -/
def lineAt (w : Wire) (key action : String) : String := commandLine w.timestamp key action

/-- **Writing** is one send on the connection that is held. -/
theorem write_ways (hw : Fair script l.wire) {n : ℕ} (hn : l.sender.socket = some n) (key action : String) :
    Ends (write key action) l (fun b l' => if b then
        Did script l [.send n (lineAt l.wire key action)] [lineAt l.wire key action] l.wire.opened
          (credited l.sender l.wire.seconds) l'
      else Did script l [.send n (lineAt l.wire key action)] [] l.wire.opened (broken l.sender) l')
      (fun _ _ => False) := by
  unfold write
  rw [ends_bind, ends_get, hn]
  dsimp only
  rw [ends_bind]
  refine (send_request hw).mono (fun r l₁ h => ?_) (fun _ _ h => h)
  obtain ⟨w₁, rfl, h⟩ := h
  cases r with
  | ok u => exact ⟨h, rfl⟩
  | error o => exact ⟨h, rfl⟩

theorem connect_ends (hw : Fair script l.wire) :
    Ends connect l (fun _ l' => Silent script l.wire l'.wire) (fun _ _ => False) := by
  refine (connect_ways hw).mono (fun b l' h => ?_) (fun _ _ h => h)
  split_ifs at h
  · exact Silent.of_moved h.wire
  · exact Silent.of_moved h.wire

theorem ensureConnected_ends (hw : Fair script l.wire) :
    Ends ensureConnected l (fun _ l' => Silent script l.wire l'.wire) (fun _ _ => False) := by
  unfold ensureConnected
  rw [ends_bind, ends_get]
  dsimp only
  split_ifs
  · exact Silent.refl hw
  · rw [ends_bind, say, ends_modify, ends_bind, change, ends_modify]
    apply Ends.mono (connect_ends _)
    · exact fun _ _ h => h
    · exact fun _ _ h => h
    · exact hw
  · exact Silent.refl hw

/-- a written command is answered with true and delivered, or with false and not -/
theorem write_ends (hw : Fair script l.wire) (key action : String) :
    Ends (write key action) l
      (fun b l' => if b then Spoken script key action l.wire l'.wire else Silent script l.wire l'.wire)
      (fun _ _ => False) := by
  cases hn : l.sender.socket with
  | none =>
    unfold write
    rw [ends_bind, ends_get, hn]
    exact Silent.refl hw
  | some n =>
    refine (write_ways hw hn key action).mono (fun b l' h => ?_) (fun _ _ h => h)
    split_ifs at h ⊢
    · exact ⟨h.wire.fair, _, h.wire.lines⟩
    · exact Silent.of_moved h.wire

/-- **A command is answered with true and delivered, or with false and not.** -/
theorem sendKey_ends (hw : Fair script l.wire) (key action : String) :
    Ends (sendKey key action) l
      (fun b l' => if b then Spoken script key action l.wire l'.wire else Silent script l.wire l'.wire)
      (fun _ _ => False) := by
  unfold sendKey
  rw [ends_bind]
  refine (ensureConnected_ends hw).mono (fun b l₁ h₁ => ?_) (fun _ _ h => h)
  split_ifs
  · refine (write_ends h₁.fair key action).mono (fun b l₂ h₂ => ?_) (fun _ _ h => h)
    split_ifs at h₂ ⊢
    · exact h₁.spoken h₂
    · exact h₁.trans h₂
  · exact ⟨h₁.fair, h₁.same⟩

end Link

/-! ## Key calls -/

namespace Forwarder

open Wire Link

variable {script : List Outcome} {f : Forwarder Link}

theorem send_ends (hw : Fair script f.outlet.wire) (k : String) (d : Direction) :
    Ends (send Link.outlet k d) f
      (fun b f' => f'.lost = f.lost ∧ if b then Spoken script k d.name f.outlet.wire f'.outlet.wire
        else Silent script f.outlet.wire f'.outlet.wire)
      (fun _ _ => False) := by
  have h := sendKey_ends hw k d.name
  unfold Ends at h ⊢
  unfold send
  dsimp only [Link.outlet]
  rcases hr : sendKey k d.name f.outlet with ⟨e | b, l⟩
  · rw [hr] at h
    exact h
  · rw [hr] at h
    exact ⟨rfl, h⟩

/-- **A press** delivers its line or nothing. -/
theorem keyDown_ends (hw : Fair script f.outlet.wire) (k : String) :
    Ends (keyDown Link.outlet k) f
      (fun _ f' => f'.lost = f.lost ∧
        (Spoken script k "down" f.outlet.wire f'.outlet.wire ∨ Silent script f.outlet.wire f'.outlet.wire))
      (fun _ _ => False) := by
  unfold keyDown
  rw [ends_bind]
  refine (send_ends hw k .down).mono (fun b f' h => ?_) (fun _ _ h => h)
  obtain ⟨hlost, h⟩ := h
  split_ifs at h
  · exact ⟨hlost, Or.inl h⟩
  · exact ⟨hlost, Or.inr h⟩

/-- **A release** delivers its line, or delivers nothing and counts as lost. -/
theorem keyUp_ends (hw : Fair script f.outlet.wire) (k : String) :
    Ends (keyUp Link.outlet k) f
      (fun _ f' => (f'.lost = f.lost ∧ Spoken script k "up" f.outlet.wire f'.outlet.wire) ∨
        (f'.lost = f.lost + 1 ∧ Silent script f.outlet.wire f'.outlet.wire))
      (fun _ _ => False) := by
  unfold keyUp
  rw [ends_bind]
  refine (send_ends hw k .up).mono (fun b f₁ h₁ => ?_) (fun _ _ h => h)
  obtain ⟨hlost₁, h₁⟩ := h₁
  split_ifs at h₁ ⊢
  · exact Or.inl ⟨hlost₁, h₁⟩
  · rw [ends_bind, say, ends_modify, ends_bind]
    -- the entry changes neither the network nor the count
    refine (send_ends (f := { f₁ with outlet := Link.outlet.note _ f₁.outlet }) h₁.fair k .up).mono
      (fun b f₂ h₂ => ?_) (fun _ _ h => h)
    obtain ⟨hlost₂, h₂⟩ := h₂
    split_ifs at h₂ ⊢
    · exact Or.inl ⟨hlost₂.trans hlost₁, h₁.spoken h₂⟩
    · exact Or.inr ⟨congrArg (· + 1) (hlost₂.trans hlost₁), h₁.trans h₂⟩

end Forwarder
end KeyHold
