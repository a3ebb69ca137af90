/-
The books of a sender.

A sender counts the commands it has delivered, its errors, and its attempts to connect again. It does so on several
ways through its operations, and one way out of a send counts nothing; that one is never taken, because a sender is
connected only while it has a socket.

- `Orderly`: what is so of every call. It returns; what it delivers goes through the newest connection, and only for a
  send that is answered with true; a send asks for at most one connection and sends at most once, and asks for nothing
  if it may not connect.
- `books_kept`: after any calls of a sender whose network has mild failures only, **its books are the numbers of its
  calls**.
-/
import Mathlib.Tactic
import KeyHold.Proofs.Effector.Minutes

namespace KeyHold

def NetCall.isConnect : NetCall → Bool
  | .connect .. => true
  | _ => false

def NetCall.isSend : NetCall → Bool
  | .send .. => true
  | _ => false

namespace Turn

/-- a send that is answered with true -/
def confirmed (t : Turn) : Bool :=
  match t.call, t.answer with
  | .send .., .ok (some true) => true
  | _, _ => false

/-- a send that is answered with false -/
def denied (t : Turn) : Bool :=
  match t.call, t.answer with
  | .send .., .ok (some false) => true
  | _, _ => false

/-- a send of a sender that is not connected and may connect again -/
def retries (t : Turn) : Bool :=
  match t.call with
  | .send .. => !t.before.sender.connected && t.before.sender.autoReconnect
  | _ => false

/-- the line that the answer stands for -/
def line? (t : Turn) : Option String :=
  match t.call, t.answer with
  | .send key action, .ok (some true) => some (Link.lineAt t.before.wire key action)
  | _, _ => none

/-- what was asked of the network -/
def requests (t : Turn) : List NetCall := t.after.wire.calls.toList.drop t.before.wire.calls.size

/-- what is so of every call -/
structure Orderly (script : List Outcome) (t : Turn) : Prop where
  returns : ∃ a, t.answer = .ok a
  /-- the sender is connected only with a socket -/
  held : t.after.sender.connected = true → t.after.sender.socket.isSome = true
  asked : t.after.wire.calls.toList = t.before.wire.calls.toList ++ t.requests
  delivered : Wire.delivered script t.after.wire = Wire.delivered script t.before.wire ++ t.line?.toList
  /-- a line goes last, and through the newest connection -/
  newest : ∀ line, t.line? = some line → t.requests.getLast? = some (.send t.after.wire.opened line)
  /-- a send is modest in what it asks for -/
  modest : ∀ key action, t.call = .send key action →
    t.requests.countP NetCall.isConnect ≤ 1 ∧ t.requests.countP NetCall.isSend ≤ 1 ∧
      (t.before.sender.connected = false → t.before.sender.autoReconnect = false → t.requests = [])

/-- a call that is no send counts for nothing -/
theorem quiet (t : Turn) (h : ∀ key action, t.call ≠ .send key action) :
    t.confirmed = false ∧ t.denied = false ∧ t.retries = false ∧ t.line? = none := by
  obtain ⟨c, before, answer, after⟩ := t
  cases c with
  | send key action => exact absurd rfl (h key action)
  | _ => exact ⟨rfl, rfl, rfl, rfl⟩

end Turn

namespace Link

/-- a sender is connected only with a socket, and its socket is the newest connection -/
structure Firm (l : Link) : Prop where
  held : l.sender.connected = true → l.sender.socket.isSome = true
  newest : ∀ n, l.sender.socket = some n → n = l.wire.opened

variable {script : List Outcome} {l l' : Link} {rs : List NetCall} {ls : List String} {n : ℕ} {s : Sender} {c : Call}
  {a : Option Bool}

theorem Did.requests (h : Did script l rs ls n s l') (c : Call) (a : Except Fault (Option Bool)) :
    (⟨c, l, a, l'⟩ : Turn).requests = rs := by
  unfold Turn.requests
  dsimp only
  rw [h.wire.calls, ← Array.length_toList, List.drop_left]

theorem letGo_requests (s : Sender) :
    (letGo s).countP NetCall.isConnect = 0 ∧ (letGo s).countP NetCall.isSend = 0 := by
  unfold letGo
  cases s.socket with
  | none => exact ⟨rfl, rfl⟩
  | some n => exact ⟨rfl, rfl⟩

/-- a call that delivers nothing is orderly, if it leaves the sender firm -/
theorem Did.orderly_silent (h : Did script l rs [] n s l') (hheld : s.connected = true → s.socket.isSome = true)
    (hline : (⟨c, l, .ok a, l'⟩ : Turn).line? = none)
    (hmodest : ∀ key action, c = .send key action → rs.countP NetCall.isConnect ≤ 1 ∧ rs.countP NetCall.isSend ≤ 1 ∧
      (l.sender.connected = false → l.sender.autoReconnect = false → rs = [])) :
    Turn.Orderly script ⟨c, l, .ok a, l'⟩ where
  returns := ⟨a, rfl⟩
  held := h.sender ▸ hheld
  asked := by rw [h.requests]; exact h.wire.calls
  delivered := by rw [hline]; exact h.wire.lines
  newest := by rw [hline]; exact nofun
  modest := by rw [h.requests]; exact hmodest

theorem Did.orderly_quiet (h : Did script l rs [] n s l') (hheld : s.connected = true → s.socket.isSome = true)
    (hc : ∀ key action, c ≠ .send key action) : Turn.Orderly script ⟨c, l, .ok a, l'⟩ :=
  h.orderly_silent hheld (Turn.quiet _ hc).2.2.2 fun key action hkey => absurd hkey (hc key action)

/-- a send that delivers its line through the connection it leaves the sender with -/
theorem Did.orderly_spoken {key action : String} (rs : List NetCall)
    (h : Did script l (rs ++ [.send n (lineAt l.wire key action)]) [lineAt l.wire key action] n s l')
    (hheld : s.connected = true → s.socket.isSome = true) (hconnects : rs.countP NetCall.isConnect ≤ 1)
    (hsends : rs.countP NetCall.isSend = 0)
    (hup : ¬ (l.sender.connected = false ∧ l.sender.autoReconnect = false)) :
    Turn.Orderly script ⟨.send key action, l, .ok (some true), l'⟩ where
  returns := ⟨_, rfl⟩
  held := h.sender ▸ hheld
  asked := by rw [h.requests]; exact h.wire.calls
  delivered := h.wire.lines
  newest := by
    rintro line hline
    rw [h.requests, List.getLast?_concat, ← Option.some.inj hline]
    exact congrArg (some <| NetCall.send · _) h.wire.opened.symm
  modest := by
    rintro _ _ -
    rw [h.requests, List.countP_append, List.countP_append, hsends]
    exact ⟨hconnects, Nat.le_refl 1, fun h1 h2 => absurd ⟨h1, h2⟩ hup⟩

theorem Did.firm (h : Did script l rs ls n s l') (hheld : s.connected = true → s.socket.isSome = true)
    (hnewest : ∀ k, s.socket = some k → k = n) : Firm l' where
  held := h.sender ▸ hheld
  newest k hk := (hnewest k (h.sender ▸ hk)).trans h.wire.opened.symm

theorem not_send_of_opens {b : Bool} (h : c = .connect ∧ a = some b ∨ c = .enter ∧ a = none) :
    ∀ key action, c ≠ .send key action := by
  rcases h with ⟨rfl, -⟩ | ⟨rfl, -⟩
  · exact nofun
  · exact nofun

theorem not_send_of_closes (h : c = .disconnect ∨ c = .leave) : ∀ key action, c ≠ .send key action := by
  rcases h with rfl | rfl
  · exact nofun
  · exact nofun

/-- **Every call is orderly**, and leaves a firm sender firm. -/
theorem Way.orderly (h : Way script l l' c a) (hl : Firm l) : Turn.Orderly script ⟨c, l, .ok a, l'⟩ ∧ Firm l' := by
  obtain ⟨hconnects, hsends⟩ := letGo_requests l.sender
  cases h with
  | opened c a asked did =>
    exact ⟨did.orderly_quiet (fun _ => rfl) (not_send_of_opens asked),
      did.firm (fun _ => rfl) fun k hk => (Option.some.inj hk).symm⟩
  | refused c a asked did =>
    exact ⟨did.orderly_quiet nofun (not_send_of_opens asked), did.firm nofun nofun⟩
  | closed c asked did =>
    exact ⟨did.orderly_quiet nofun (not_send_of_closes asked), did.firm nofun nofun⟩
  | sent key action b sending =>
    cases sending with
    | delivered n up held did =>
      obtain rfl := hl.newest n held
      exact ⟨Did.orderly_spoken [] did hl.held (Nat.zero_le 1) rfl (by simp [up]), did.firm hl.held hl.newest⟩
    | failed n up held did =>
      exact ⟨did.orderly_silent nofun rfl fun _ _ _ => ⟨Nat.zero_le 1, Nat.le_refl 1, by simp [up]⟩,
        did.firm nofun hl.newest⟩
    | dropped up auto did =>
      refine ⟨did.orderly_silent hl.held rfl fun _ _ _ => ⟨Nat.zero_le 1, Nat.zero_le 1, fun _ _ => rfl⟩,
        did.firm hl.held hl.newest⟩
    | refused up auto did =>
      refine ⟨did.orderly_silent nofun rfl fun _ _ _ => ⟨?_, ?_, by simp [auto]⟩, did.firm nofun nofun⟩
      · rw [List.countP_cons, hconnects]
        exact Nat.le_refl 1
      · rw [List.countP_cons, hsends]
        exact Nat.zero_le 1
    | revived up auto did =>
      exact ⟨Did.orderly_spoken [asks l.sender] did (fun _ => rfl) (Nat.le_refl 1) rfl (by simp [auto]),
        did.firm (fun _ => rfl) fun k hk => (Option.some.inj hk).symm⟩
    | inVain up auto did =>
      exact ⟨did.orderly_silent nofun rfl fun _ _ _ => ⟨Nat.le_refl 1, Nat.le_refl 1, by simp [auto]⟩,
        did.firm nofun fun k hk => (Option.some.inj hk).symm⟩

/-- **Every call is counted** for what it was answered with. -/
theorem Way.counted (h : Way script l l' c a) :
    l'.sender.commandsSent = l.sender.commandsSent + (if (⟨c, l, .ok a, l'⟩ : Turn).confirmed then 1 else 0) ∧
    l'.sender.errors = l.sender.errors + (if (⟨c, l, .ok a, l'⟩ : Turn).denied then 1 else 0) ∧
    l'.sender.reconnects = l.sender.reconnects + (if (⟨c, l, .ok a, l'⟩ : Turn).retries then 1 else 0) := by
  cases h with
  | opened c a asked did | refused c a asked did =>
    obtain ⟨h1, h2, h3, -⟩ := Turn.quiet ⟨c, l, .ok a, l'⟩ (not_send_of_opens asked)
    rw [did.sender, h1, h2, h3]
    exact ⟨rfl, rfl, rfl⟩
  | closed c asked did =>
    obtain ⟨h1, h2, h3, -⟩ := Turn.quiet ⟨c, l, .ok none, l'⟩ (not_send_of_closes asked)
    rw [did.sender, h1, h2, h3]
    exact ⟨rfl, rfl, rfl⟩
  | sent key action b sending =>
    have hretries : ∀ b, (⟨.send key action, l, .ok (some b), l'⟩ : Turn).retries =
        (!l.sender.connected && l.sender.autoReconnect) := fun _ => rfl
    cases sending with
    | delivered n up held did | failed n up held did =>
      rw [hretries, up, did.sender]
      exact ⟨rfl, rfl, rfl⟩
    | dropped up auto did | refused up auto did | revived up auto did | inVain up auto did =>
      rw [hretries, up, auto, did.sender]
      exact ⟨rfl, rfl, rfl⟩

end Link

namespace Turn

/-- a turn owes a line exactly if it is a send answered with true -/
theorem isSome_line? (t : Turn) : t.line?.isSome = t.confirmed := by
  unfold line? confirmed
  split <;> simp_all

end Turn

namespace Minuted

open Link

/-- the books agree with the minutes -/
structure Balanced (script : List Outcome) (m : Minuted) : Prop where
  fair : Wire.Fair script m.link.wire
  firm : m.link.Firm
  turns : ∀ t ∈ m.turns, t.Orderly script
  commandsSent : m.link.sender.commandsSent = m.turns.countP Turn.confirmed
  errors : m.link.sender.errors = m.turns.countP Turn.denied
  reconnects : m.link.sender.reconnects = m.turns.countP Turn.retries
  delivered : Wire.delivered script m.link.wire = m.turns.filterMap Turn.line?

variable {script : List Outcome} {m : Minuted}

/-- a call of a firm sender returns, in one of its ways, and is minuted -/
theorem call_minuted (hfair : Wire.Fair script m.link.wire) (hfirm : m.link.Firm) (c : Call) :
    ∃ a l', (m.call c).2 = ⟨l', m.turns ++ [⟨c, m.link, .ok a, l'⟩]⟩ ∧ Way script m.link l' c a := by
  obtain ⟨a, hanswer, hway⟩ := (call_ways hfair hfirm.held c).returns
  refine ⟨a, (c.act m.link).2, ?_, hway⟩
  rw [← hanswer]
  rfl

/-- **A call keeps the balance.** -/
theorem Balanced.call (h : Balanced script m) (c : Call) : Balanced script (m.call c).2 := by
  obtain ⟨a, l', hm, hway⟩ := call_minuted h.fair h.firm c
  obtain ⟨horderly, hfirm⟩ := hway.orderly h.firm
  obtain ⟨hsent, herrors, hreconnects⟩ := hway.counted
  rw [hm]
  refine ⟨hway.fair, hfirm, ?_, ?_, ?_, ?_, ?_⟩
  · intro t ht
    rcases List.mem_append.1 ht with ht | ht
    · exact h.turns t ht
    · exact List.mem_singleton.1 ht ▸ horderly
  · rw [List.countP_append, List.countP_singleton, ← h.commandsSent]
    exact hsent
  · rw [List.countP_append, List.countP_singleton, ← h.errors]
    exact herrors
  · rw [List.countP_append, List.countP_singleton, ← h.reconnects]
    exact hreconnects
  · have hdelivered : Wire.delivered script l'.wire = Wire.delivered script m.link.wire ++ _ := horderly.delivered
    rw [hdelivered, h.delivered, filterMap_concat]

theorem balanced_keeps (script : List Outcome) : Keeps (Balanced script) where
  call c _ h := h.call c
  note _ _ h := ⟨h.fair, ⟨h.firm.held, h.firm.newest⟩, h.turns, h.commandsSent, h.errors, h.reconnects, h.delivered⟩

theorem firm_fresh {l : Link} (hl : l.Fresh) : l.Firm where
  held h := absurd (hl.connected.symm.trans h) nofun
  newest _ h := absurd (hl.socket.symm.trans h) nofun

theorem balanced_fresh {l : Link} (hl : l.Fresh) (hw : l.wire.AllMild) : Balanced l.wire.sends ⟨l, []⟩ where
  fair := (Wire.fair_fresh hl.calls hw).1
  firm := firm_fresh hl
  turns _ ht := absurd ht List.not_mem_nil
  commandsSent := hl.commandsSent
  errors := hl.errors
  reconnects := hl.reconnects
  delivered := (Wire.fair_fresh hl.calls hw).2

end Minuted

/-- **The books of a sender are the numbers of its calls.** From a fresh link whose network has mild failures only, after
any uses of the sender, every call is orderly: none faults, and none leaves the sender connected without a socket. The
commands counted as sent are the sends answered with true, and the lines delivered are theirs, one each, in order;
the errors are the sends answered with false, and the reconnects those that found the sender unconnected and let to
connect again. -/
theorem books_kept {l : Link} (hl : l.Fresh) (hw : l.wire.AllMild) (uses : List Use) (lost : ℕ) :
    let m := (Use.minutes uses ⟨⟨l, []⟩, lost⟩).outlet
    m.link = (Use.run uses ⟨l, lost⟩).outlet ∧
      (∀ t ∈ m.turns, t.Orderly l.wire.sends) ∧
      m.link.sender.commandsSent = m.turns.countP Turn.confirmed ∧
      Wire.delivered l.wire.sends m.link.wire = m.turns.filterMap Turn.line? ∧
      (Wire.delivered l.wire.sends m.link.wire).length = m.link.sender.commandsSent ∧
      m.link.sender.errors = m.turns.countP Turn.denied ∧
      m.link.sender.reconnects = m.turns.countP Turn.retries := by
  intro m
  have h : Minuted.Balanced l.wire.sends m :=
    Use.minutes_keeps (Minuted.balanced_keeps l.wire.sends) uses ⟨⟨l, []⟩, lost⟩ (Minuted.balanced_fresh hl hw)
  refine ⟨Use.link_minutes uses l lost, h.turns, h.commandsSent, h.delivered, ?_, h.errors, h.reconnects⟩
  rw [h.delivered, h.commandsSent, List.length_filterMap_eq_countP]
  exact List.countP_congr fun t _ => by rw [Turn.isSome_line?]

/-- a network that breaks at the first line -/
def brokenOnce : Link := { wire := { sends := [.failure ⟨"BrokenPipeError", "gone"⟩] } }

theorem brokenOnce_fresh : brokenOnce.Fresh := ⟨rfl, rfl, rfl, rfl, rfl, rfl, rfl⟩

/-- a sender in a context, with one release through an effector -/
def oneRelease : List Use := [.call .enter, .keyUp "up", .call .leave]

/-- a release that breaks the connection and is then delivered: one error, one reconnect, one command -/
theorem brokenOnce_books :
    let m := (Use.minutes oneRelease ⟨⟨brokenOnce, []⟩, 0⟩).outlet
    m.turns.length = 4 ∧ (∀ t ∈ m.turns, t.Orderly brokenOnce.wire.sends) ∧ m.link.sender.commandsSent = 1 ∧
      (Wire.delivered brokenOnce.wire.sends m.link.wire).length = 1 ∧ m.link.sender.errors = 1 ∧
      m.link.sender.reconnects = 1 := by
  obtain ⟨-, horderly, hsent, -, hlines, herrors, hreconnects⟩ := books_kept brokenOnce_fresh (by decide) oneRelease 0
  have hconfirmed : (Use.minutes oneRelease ⟨⟨brokenOnce, []⟩, 0⟩).outlet.turns.countP Turn.confirmed = 1 := by
    decide +kernel
  refine ⟨by decide +kernel, horderly, hsent.trans hconfirmed, hlines.trans (hsent.trans hconfirmed),
    herrors.trans ?_, hreconnects.trans ?_⟩
  · decide +kernel
  · decide +kernel

end KeyHold
