/-
The connections that a sender has opened.

A sender holds one connection at most, and closes it when it lets go of it. It does not when it opens another one: a
connection that has failed stays in its place until then, and so does one that is connected when the sender is told to
connect. What is overwritten is never closed.

- `Handled`, `Way.handled`: a call leaves the connection alone, takes a new one in its place, or lets go of it.
- `Owned`: no connection is closed twice, and those opened and not closed are **the ones that were replaced, and the one
  that is held**; one call at a time.
- `single_connection_iff`: a sender has one connection open at most, and none once it has let go, **exactly if it never
  opens one while it holds one**; `connection_left`: it does.
-/
import Mathlib.Tactic
import KeyHold.Proofs.Effector.Books

namespace KeyHold

/-- whether a request closes the `n`th connection -/
def NetCall.isClose (n : ℕ) : NetCall → Bool
  | .close k => k == n
  | _ => false

namespace Wire

/-- how often the `n`th connection was closed -/
def closings (w : Wire) (n : ℕ) : ℕ := w.calls.toList.countP (NetCall.isClose n)

/-- the connections opened and never closed -/
def unclosed (w : Wire) : List ℕ := (List.range' 1 w.opened).filter fun n => w.closings n == 0

variable {script : List Outcome} {w w' : Wire}

theorem Moved.closings {rs : List NetCall} {ls : List String} {k : ℕ} (h : Moved script w rs ls k w') (n : ℕ) :
    w'.closings n = w.closings n + rs.countP (NetCall.isClose n) := by
  rw [Wire.closings, h.calls, List.countP_append]
  rfl

theorem nodup_unclosed (w : Wire) : w.unclosed.Nodup := List.Nodup.filter _ List.nodup_range'

theorem unclosed_congr (hopened : w'.opened = w.opened) (hclosings : ∀ n, w'.closings n = w.closings n) :
    w'.unclosed = w.unclosed := by
  unfold unclosed
  rw [hopened]
  exact List.filter_congr fun n _ => by rw [hclosings]

/-- a new connection is the last of those not closed -/
theorem unclosed_opened (hopened : w'.opened = w.opened + 1) (hclosings : ∀ n, w'.closings n = w.closings n)
    (hfresh : w.closings (w.opened + 1) = 0) : w'.unclosed = w.unclosed ++ [w.opened + 1] := by
  unfold unclosed
  have hlast : 1 + w.opened = w.opened + 1 := Nat.add_comm 1 w.opened
  rw [hopened, List.range'_concat, List.filter_append, Nat.one_mul, hlast, List.filter_singleton, hclosings, hfresh]
  congr 1
  exact List.filter_congr fun n _ => by rw [hclosings]

/-- a connection that is closed is not among them any more -/
theorem unclosed_closed {k : ℕ} (hopened : w'.opened = w.opened)
    (hclosings : ∀ n, w'.closings n = w.closings n + if k = n then 1 else 0) :
    w'.unclosed = w.unclosed.filter (· ≠ k) := by
  unfold unclosed
  rw [hopened, List.filter_filter]
  refine List.filter_congr fun n _ => ?_
  rw [hclosings]
  by_cases h : k = n
  · simp [h]
  · simp [h, Ne.symm h]

end Wire

/-! ## What a call does with the connection -/

namespace Link

/-- the connection is left alone, is replaced by a new one, or is let go of -/
inductive Handled (l l' : Link) : Prop
  | kept (closings : ∀ n, l'.wire.closings n = l.wire.closings n) (opened : l'.wire.opened = l.wire.opened)
      (socket : l'.sender.socket = l.sender.socket)
  | taken (closings : ∀ n, l'.wire.closings n = l.wire.closings n) (opened : l'.wire.opened = l.wire.opened + 1)
      (socket : l'.sender.socket = some (l.wire.opened + 1))
  | freed (closings : ∀ n, l'.wire.closings n = l.wire.closings n + if l.sender.socket = some n then 1 else 0)
      (opened : l'.wire.opened = l.wire.opened) (socket : l'.sender.socket = none)

variable {script : List Outcome} {l l' : Link} {rs : List NetCall} {ls : List String} {n : ℕ} {s : Sender} {c : Call}
  {a : Option Bool}

theorem countP_isClose_letGo (s : Sender) (n : ℕ) :
    (letGo s).countP (NetCall.isClose n) = if s.socket = some n then 1 else 0 := by
  unfold letGo
  cases s.socket with
  | none => rfl
  | some k => simp [NetCall.isClose, List.countP_singleton]

theorem Did.kept (h : Did script l rs ls l.wire.opened s l') (hrs : ∀ n, rs.countP (NetCall.isClose n) = 0)
    (hs : s.socket = l.sender.socket) : Handled l l' :=
  .kept (fun n => by rw [h.wire.closings, hrs, Nat.add_zero]) h.wire.opened (h.sender ▸ hs)

theorem Did.taken (h : Did script l rs ls (l.wire.opened + 1) s l') (hrs : ∀ n, rs.countP (NetCall.isClose n) = 0)
    (hs : s.socket = some (l.wire.opened + 1)) : Handled l l' :=
  .taken (fun n => by rw [h.wire.closings, hrs, Nat.add_zero]) h.wire.opened (h.sender ▸ hs)

theorem Did.freed (h : Did script l rs ls l.wire.opened s l')
    (hrs : ∀ n, rs.countP (NetCall.isClose n) = (letGo l.sender).countP (NetCall.isClose n)) (hs : s.socket = none) :
    Handled l l' :=
  .freed (fun n => by rw [h.wire.closings, hrs, countP_isClose_letGo]) h.wire.opened (h.sender ▸ hs)

/-- **A call** does one of three things with the connection. -/
theorem Way.handled (h : Way script l l' c a) : Handled l l' := by
  cases h with
  | opened _ _ _ did => exact did.taken (fun _ => rfl) rfl
  | refused _ _ _ did => exact did.freed (fun _ => rfl) rfl
  | closed _ _ did => exact did.freed (fun _ => rfl) rfl
  | sent key action b sending =>
    cases sending with
    | delivered n up held did | failed n up held did => exact did.kept (fun _ => rfl) rfl
    | dropped up auto did => exact did.kept (fun _ => rfl) rfl
    | refused up auto did => exact did.freed (fun _ => rfl) rfl
    | revived up auto did | inVain up auto did => exact did.taken (fun _ => rfl) rfl

/-- **Letting go** leaves nothing held. -/
theorem Way.socket_none (h : Way script l l' c a) (hc : c = .disconnect ∨ c = .leave) : l'.sender.socket = none := by
  cases h with
  | opened _ _ asked _ | refused _ _ asked _ => rcases hc with rfl | rfl <;> simp at asked
  | closed _ _ did => rw [did.sender]; rfl
  | sent key action b sending => rcases hc with hc | hc <;> cases hc

end Link

/-! ## The connections of a run -/

/-- the connection that was held and has been replaced by a new one -/
def Link.replaced? (l l' : Link) : Option ℕ := if l.wire.opened < l'.wire.opened then l.sender.socket else none

/-- the connection that a call has replaced -/
def Turn.replaced? (t : Turn) : Option ℕ := Link.replaced? t.before t.after

/-- what is so after a call, with the calls before it -/
structure Turn.Settled (earlier : List Turn) (t : Turn) : Prop where
  unclosed : t.after.wire.unclosed = (earlier ++ [t]).filterMap Turn.replaced? ++ t.after.sender.socket.toList
  freed : t.call = .disconnect ∨ t.call = .leave → t.after.sender.socket = none
  taken : t.replaced?.isSome → t.after.sender.socket.isSome

namespace Minuted

open Link

/-- no connection is closed twice, or before it is opened; those not closed were replaced, or the last one is held -/
structure Owned (script : List Outcome) (m : Minuted) : Prop where
  fair : Wire.Fair script m.link.wire
  firm : m.link.Firm
  once : ∀ n, m.link.wire.closings n ≤ 1
  beyond : ∀ n, m.link.wire.opened < n → m.link.wire.closings n = 0
  unclosed : m.link.wire.unclosed = m.turns.filterMap Turn.replaced? ++ m.link.sender.socket.toList
  turns : ∀ earlier t later, m.turns = earlier ++ t :: later → t.Settled earlier

variable {script : List Outcome} {m : Minuted}

/-- the connection that is held has not been closed -/
theorem Owned.held (h : Owned script m) {n : ℕ} (hn : m.link.sender.socket = some n) : m.link.wire.closings n = 0 := by
  have hmem : n ∈ m.link.wire.unclosed := by
    rw [h.unclosed, hn]
    exact List.mem_append_right _ (List.mem_singleton_self n)
  exact beq_iff_eq.1 (List.mem_filter.1 hmem).2

/-- the connection that is held is not one that was replaced -/
theorem Owned.filter_replaced (h : Owned script m) {n : ℕ} (hn : m.link.sender.socket = some n) :
    m.link.wire.unclosed.filter (· ≠ n) = m.turns.filterMap Turn.replaced? := by
  have hnodup := m.link.wire.nodup_unclosed
  rw [h.unclosed, hn] at hnodup ⊢
  have hnew : n ∉ m.turns.filterMap Turn.replaced? := fun hmem =>
    List.disjoint_of_nodup_append hnodup hmem (List.mem_singleton_self n)
  have hold : (m.turns.filterMap Turn.replaced?).filter (· ≠ n) = m.turns.filterMap Turn.replaced? :=
    List.filter_eq_self.2 fun k hk => decide_eq_true fun (hkn : k = n) => hnew (hkn ▸ hk)
  rw [Option.toList_some, List.filter_append, hold]
  simp

/-- the connections after one more call -/
theorem Owned.handled (h : Owned script m) {l' : Link} (hl : Handled m.link l') :
    (∀ n, l'.wire.closings n ≤ 1) ∧ (∀ n, l'.wire.opened < n → l'.wire.closings n = 0) ∧
      l'.wire.unclosed = m.turns.filterMap Turn.replaced? ++ (Link.replaced? m.link l').toList ++
        l'.sender.socket.toList ∧
      ((Link.replaced? m.link l').isSome → l'.sender.socket.isSome) := by
  unfold Link.replaced?
  cases hl with
  | kept closings opened socket =>
    rw [opened, socket, if_neg (Nat.lt_irrefl _), Option.toList_none, List.append_nil]
    refine ⟨fun n => closings n ▸ h.once n, fun n hn => closings n ▸ h.beyond n hn, ?_, nofun⟩
    exact (Wire.unclosed_congr opened closings).trans h.unclosed
  | taken closings opened socket =>
    rw [opened, socket, if_pos (Nat.lt_succ_self _), ← h.unclosed]
    refine ⟨fun n => closings n ▸ h.once n, fun n hn => closings n ▸ h.beyond n (by omega), ?_, fun _ => rfl⟩
    exact Wire.unclosed_opened opened closings (h.beyond _ (Nat.lt_succ_self _))
  | freed closings opened socket =>
    rw [opened, socket, if_neg (Nat.lt_irrefl _), Option.toList_none, List.append_nil, List.append_nil]
    cases hsocket : m.link.sender.socket with
    | none =>
      have hsame : ∀ n, l'.wire.closings n = m.link.wire.closings n := fun n => by rw [closings, hsocket]; rfl
      refine ⟨fun n => hsame n ▸ h.once n, fun n hn => hsame n ▸ h.beyond n hn, ?_, nofun⟩
      rw [Wire.unclosed_congr opened hsame, h.unclosed, hsocket, Option.toList_none, List.append_nil]
    | some k =>
      have hclosings : ∀ n, l'.wire.closings n = m.link.wire.closings n + if k = n then 1 else 0 := fun n => by
        simp only [closings, hsocket, Option.some.injEq]
      have hopened : k = m.link.wire.opened := h.firm.newest k hsocket
      refine ⟨fun n => ?_, fun n hn => ?_, ?_, nofun⟩
      · rw [hclosings]
        split_ifs with hk
        · rw [← hk, h.held hsocket]
        · exact h.once n
      · rw [hclosings, h.beyond n hn, if_neg (by omega)]
      · rw [Wire.unclosed_closed opened hclosings, h.filter_replaced hsocket]

/-- **A call keeps the order of the connections.** -/
theorem Owned.call (h : Owned script m) (c : Call) : Owned script (m.call c).2 := by
  obtain ⟨a, l', hm, hway⟩ := call_minuted h.fair h.firm c
  obtain ⟨honce, hbeyond, hunclosed, htaken⟩ := h.handled hway.handled
  rw [hm]
  replace hunclosed : l'.wire.unclosed =
      List.filterMap Turn.replaced? (m.turns ++ [⟨c, m.link, .ok a, l'⟩]) ++ l'.sender.socket.toList := by
    rw [filterMap_concat]
    exact hunclosed
  refine ⟨hway.fair, (hway.orderly h.firm).2, honce, hbeyond, hunclosed, fun earlier t later hsplit => ?_⟩
  rcases List.eq_nil_or_concat' later with rfl | ⟨later, t', rfl⟩
  · obtain ⟨rfl, ht⟩ := List.append_inj' hsplit rfl
    obtain rfl := List.head_eq_of_cons_eq ht
    exact ⟨hunclosed, hway.socket_none, htaken⟩
  · -- a call of an earlier run
    refine h.turns earlier t later ?_
    rw [← List.cons_append, ← List.append_assoc] at hsplit
    exact (List.append_inj' hsplit rfl).1

theorem owned_keeps (script : List Outcome) : Keeps (Owned script) where
  call c _ h := h.call c
  note _ _ h := ⟨h.fair, ⟨h.firm.held, h.firm.newest⟩, h.once, h.beyond, h.unclosed, h.turns⟩

theorem owned_fresh {l : Link} (hl : l.Fresh) (hw : l.wire.AllMild) : Owned l.wire.sends ⟨l, []⟩ := by
  have hclosings : ∀ n, l.wire.closings n = 0 := fun n => by rw [Wire.closings, hl.calls]; rfl
  refine ⟨(Wire.fair_fresh hl.calls hw).1, firm_fresh hl, fun n => ?_, fun n _ => hclosings n, ?_, ?_⟩
  · rw [hclosings]
    exact Nat.zero_le 1
  · rw [Wire.unclosed, hl.opened, hl.socket]
    rfl
  · exact fun earlier _ _ h => absurd h (by cases earlier <;> exact nofun)

/-- one connection at most, and none after letting go, exactly if none was replaced -/
theorem Owned.single_iff (h : Owned script m) :
    (∀ t ∈ m.turns, t.after.wire.unclosed.length ≤ 1 ∧
        (t.call = .disconnect ∨ t.call = .leave → t.after.wire.unclosed = [])) ↔
      ∀ t ∈ m.turns, t.replaced? = none := by
  constructor
  · intro hsingle t ht
    obtain ⟨earlier, later, hsplit⟩ := List.append_of_mem ht
    have hsettled := h.turns earlier t later hsplit
    by_contra hsome
    -- the one that was replaced, and the one in its place
    obtain ⟨k, hk⟩ := Option.ne_none_iff_exists'.1 hsome
    obtain ⟨n, hn⟩ := Option.isSome_iff_exists.1 (hsettled.taken (by rw [hk]; rfl))
    have hlength := (hsingle t ht).1
    rw [hsettled.unclosed, hn, List.filterMap_append, List.filterMap_cons, hk] at hlength
    simp at hlength
  · intro hnone t ht
    obtain ⟨earlier, later, hsplit⟩ := List.append_of_mem ht
    have hsettled := h.turns earlier t later hsplit
    have hempty : (earlier ++ [t]).filterMap Turn.replaced? = [] := by
      refine List.filterMap_eq_nil_iff.2 fun t' ht' => hnone t' ?_
      rw [hsplit, List.append_cons]
      exact List.mem_append_left later ht'
    rw [hsettled.unclosed, hempty, List.nil_append]
    refine ⟨?_, fun hc => by rw [hsettled.freed hc]; rfl⟩
    cases t.after.sender.socket with
    | none => exact Nat.zero_le 1
    | some n => exact Nat.le_refl 1

end Minuted

/-- **One connection, as long as none is replaced.** From a fresh link whose network has mild failures only, after any
uses of the sender, no connection was closed twice, and those opened and not closed are the ones that a call replaced
by a new one and the one that is held, after every call of the run. So there is one at most after every call, and none
after the sender has let go, exactly if no call opens a connection while one is held. -/
theorem single_connection_iff {l : Link} (hl : l.Fresh) (hw : l.wire.AllMild) (uses : List Use) (lost : ℕ) :
    let m := (Use.minutes uses ⟨⟨l, []⟩, lost⟩).outlet
    m.link = (Use.run uses ⟨l, lost⟩).outlet ∧
      (∀ n, m.link.wire.closings n ≤ 1) ∧
      (∀ earlier t later, m.turns = earlier ++ t :: later → t.after.wire.unclosed =
        (earlier ++ [t]).filterMap Turn.replaced? ++ t.after.sender.socket.toList) ∧
      ((∀ t ∈ m.turns, t.after.wire.unclosed.length ≤ 1 ∧
          (t.call = .disconnect ∨ t.call = .leave → t.after.wire.unclosed = [])) ↔
        ∀ t ∈ m.turns, t.replaced? = none) := by
  intro m
  have h : Minuted.Owned l.wire.sends m :=
    Use.minutes_keeps (Minuted.owned_keeps l.wire.sends) uses ⟨⟨l, []⟩, lost⟩ (Minuted.owned_fresh hl hw)
  exact ⟨Use.link_minutes uses l lost, h.once, fun earlier t later hsplit => (h.turns earlier t later hsplit).unclosed,
    h.single_iff⟩

/-- a connection that is let go of before another one is opened -/
theorem single_connection_twice :
    let m := (Use.minutes [.call .connect, .keyUp "up", .call .disconnect, .keyUp "up", .call .disconnect]
      ⟨⟨{}, []⟩, 0⟩).outlet
    m.link.wire.opened = 2 ∧ ∀ t ∈ m.turns, t.after.wire.unclosed.length ≤ 1 ∧
      (t.call = .disconnect ∨ t.call = .leave → t.after.wire.unclosed = []) := by
  obtain ⟨-, -, -, hiff⟩ := single_connection_iff (l := {}) ⟨rfl, rfl, rfl, rfl, rfl, rfl, rfl⟩ (by decide)
    [.call .connect, .keyUp "up", .call .disconnect, .keyUp "up", .call .disconnect] 0
  exact ⟨by decide +kernel, hiff.2 (by decide +kernel)⟩

/-- **A connection is left**: a release breaks the first one and is delivered on a second, and only the second is closed
when the sender lets go. -/
theorem connection_left :
    let m := (Use.minutes [.call .connect, .keyUp "up", .call .disconnect] ⟨⟨brokenOnce, []⟩, 0⟩).outlet
    m.link.wire.opened = 2 ∧ m.link.wire.closings 1 = 0 ∧ m.link.wire.closings 2 = 1 ∧
      m.turns.map (fun t => t.after.wire.unclosed) = [[1], [1], [1, 2], [1]] := by
  decide +kernel

end KeyHold
