/-
The calls of a sender, minuted.

A sender is called by its user, to connect, to let go and to send, also on entering and leaving a context; and by an
effector, whose releases are sent once more if they are not delivered. A minuted link keeps every call with the link
before it, its answer and the link after it, so a retry within one release is two calls there. `forget_run`: without the
minutes it is the link itself.

On a network whose failures are mild a call ends in one of a few ways, and each way says all there is to say: the
requests made, the line delivered, and the sender afterwards.

- `Use.minutes_keeps`: what outlives a call outlives every use of a sender.
- `Sending`, `sendKey_ways`: the ways in which a send ends; `Way`, `call_ways`: those of a call.
-/
import Mathlib.Tactic
import KeyHold.Proofs.Effector.Delivery

namespace KeyHold

namespace Link

/-- a call of a sender -/
inductive Call where
  | connect
  | disconnect
  | enter
  | leave
  | send (key action : String)
deriving DecidableEq, Repr

/-- what a call does; only to connect and to send are answered -/
def Call.act : Call → Act (Option Bool)
  | .connect => do return some (← Link.connect)
  | .disconnect => do
    Link.disconnect
    return none
  | .enter => do
    let _ ← Link.connect
    return none
  | .leave => do
    Link.disconnect
    return none
  | .send key action => do return some (← sendKey key action)

end Link

/-- a call with the link before it, its answer and the link after it -/
structure Turn where
  call : Link.Call
  before : Link
  answer : Except Fault (Option Bool)
  after : Link

namespace Link

/-- as a link begins: nothing held, nothing counted, nothing asked of the network -/
structure Fresh (l : Link) : Prop where
  socket : l.sender.socket = none
  connected : l.sender.connected = false
  commandsSent : l.sender.commandsSent = 0
  errors : l.sender.errors = 0
  reconnects : l.sender.reconnects = 0
  calls : l.wire.calls = #[]
  opened : l.wire.opened = 0

end Link

/-- a link and the calls made of its sender -/
structure Minuted where
  link : Link
  turns : List Turn := []

namespace Minuted

def call (c : Link.Call) (m : Minuted) : Except Fault (Option Bool) × Minuted :=
  let (r, link) := c.act m.link
  (r, { link, turns := m.turns ++ [⟨c, m.link, r, link⟩] })

/-- a minuted link as an outlet of an effector -/
def outlet : Outlet Minuted where
  send key action m :=
    let (r, m) := m.call (.send key action)
    (r.map (·.getD false), m)
  note e m := { m with link := m.link.note e }

end Minuted

/-- what is done with a sender: a call of it, or a press or a release through the effector -/
inductive Use where
  | call (c : Link.Call)
  | keyDown (key : String)
  | keyUp (key : String)
deriving DecidableEq, Repr

namespace Use

def act : Use → Forwarder Link → Forwarder Link
  | call c, f => { f with outlet := (c.act f.outlet).2 }
  | keyDown k, f => (Forwarder.keyDown Link.outlet k f).2
  | keyUp k, f => (Forwarder.keyUp Link.outlet k f).2

def run (uses : List Use) (f : Forwarder Link) : Forwarder Link := uses.foldl (fun f u => u.act f) f

/-- the same with minutes -/
def minute : Use → Forwarder Minuted → Forwarder Minuted
  | call c, f => { f with outlet := (f.outlet.call c).2 }
  | keyDown k, f => (Forwarder.keyDown Minuted.outlet k f).2
  | keyUp k, f => (Forwarder.keyUp Minuted.outlet k f).2

def minutes (uses : List Use) (f : Forwarder Minuted) : Forwarder Minuted := uses.foldl (fun f u => u.minute f) f

end Use

/-! ## Without the minutes -/

/-- two outlets answer alike and stay related by `S` -/
structure Outlet.Alike {σ τ : Type} (S : σ → τ → Prop) (O : Outlet σ) (P : Outlet τ) : Prop where
  send : ∀ k a s t, S s t → (O.send k a s).1 = (P.send k a t).1 ∧ S (O.send k a s).2 (P.send k a t).2
  note : ∀ e s t, S s t → S (O.note e s) (P.note e t)

namespace Forwarder

variable {σ τ α β : Type} {S : σ → τ → Prop} {O : Outlet σ} {P : Outlet τ}

/-- related outlets, and as many releases lost -/
structure Related (S : σ → τ → Prop) (f : Forwarder σ) (g : Forwarder τ) : Prop where
  outlet : S f.outlet g.outlet
  lost : f.lost = g.lost

/-- two operations answer alike and keep related what is related -/
def Alike (S : σ → τ → Prop) (act : Act σ α) (act' : Act τ α) : Prop :=
  ∀ f g, Related S f g → (act f).1 = (act' g).1 ∧ Related S (act f).2 (act' g).2

theorem Alike.bind {act : Act σ α} {act' : Act τ α} {next : α → Act σ β} {next' : α → Act τ β} (h : Alike S act act')
    (hnext : ∀ a, Alike S (next a) (next' a)) : Alike S (act >>= next) (act' >>= next') := by
  intro f g hfg
  obtain ⟨hanswer, hrelated⟩ := h f g hfg
  rw [bind_run, bind_run]
  rcases hf : act f with ⟨e | a, f'⟩ <;> rcases hg : act' g with ⟨e' | a', g'⟩ <;> rw [hf, hg] at hanswer hrelated <;>
    cases hanswer
  · exact ⟨rfl, hrelated⟩
  · exact hnext a f' g' hrelated

theorem alike_pure {a : α} : Alike S (pure a) (pure a) := fun _ _ h => ⟨rfl, h⟩

theorem alike_send (h : O.Alike S P) (k : String) (d : Direction) : Alike S (send O k d) (send P k d) := by
  intro f g hfg
  obtain ⟨hanswer, houtlet⟩ := h.send k d.name _ _ hfg.outlet
  exact ⟨hanswer, houtlet, hfg.lost⟩

theorem alike_say (h : O.Alike S P) (level : Level) (text : String) : Alike S (say O level text) (say P level text) :=
  fun _ _ hfg => ⟨rfl, h.note _ _ _ hfg.outlet, hfg.lost⟩

/-- **A press** through two outlets that are alike. -/
theorem alike_keyDown (h : O.Alike S P) (k : String) : Alike S (keyDown O k) (keyDown P k) :=
  (alike_send h k .down).bind fun _ => alike_pure

/-- **A release**, which may be two sends. -/
theorem alike_keyUp (h : O.Alike S P) (k : String) : Alike S (keyUp O k) (keyUp P k) := by
  refine (alike_send h k .up).bind fun b => ?_
  cases b with
  | true => exact alike_pure
  | false =>
    refine (alike_say h _ _).bind fun _ => (alike_send h k .up).bind fun b => ?_
    cases b with
    | true => exact alike_pure
    | false =>
      exact Alike.bind (fun _ _ hfg => ⟨rfl, hfg.outlet, congrArg (· + 1) hfg.lost⟩) fun _ => alike_say h _ _

end Forwarder

namespace Use

variable {f : Forwarder Minuted}

/-- the link, without its minutes -/
def forget (f : Forwarder Minuted) : Forwarder Link := ⟨f.outlet.link, f.lost⟩

theorem outlet_shows : Outlet.Alike (fun m l => m.link = l) Minuted.outlet Link.outlet where
  send k a m l h := by
    subst h
    show ((m.call (.send k a)).1.map _ = _) ∧ (m.call (.send k a)).2.link = _
    unfold Minuted.call
    dsimp only [Link.Call.act]
    rw [bind_run]
    show _ = (Link.sendKey k a m.link).1 ∧ _ = (Link.sendKey k a m.link).2
    rcases Link.sendKey k a m.link with ⟨e | b, l⟩
    · exact ⟨rfl, rfl⟩
    · exact ⟨rfl, rfl⟩
  note e m l h := congrArg (Link.note e) h

theorem forget_minute (u : Use) (f : Forwarder Minuted) : forget (u.minute f) = u.act (forget f) := by
  have hrelated : Forwarder.Related (fun m l => m.link = l) f (forget f) := ⟨rfl, rfl⟩
  have hforget : ∀ {f' : Forwarder Minuted} {g : Forwarder Link},
      Forwarder.Related (fun m l => m.link = l) f' g → forget f' = g := by
    rintro f' ⟨l, n⟩ ⟨rfl, rfl⟩
    rfl
  cases u with
  | call c => rfl
  | keyDown k => exact hforget (Forwarder.alike_keyDown outlet_shows k f _ hrelated).2
  | keyUp k => exact hforget (Forwarder.alike_keyUp outlet_shows k f _ hrelated).2

/-- **Minutes change nothing**: without them it is the run of the sender itself. -/
theorem forget_run (uses : List Use) (f : Forwarder Minuted) : forget (minutes uses f) = run uses (forget f) := by
  induction uses generalizing f with
  | nil => rfl
  | cons u uses ih => exact (ih (u.minute f)).trans (congrArg (run uses) (forget_minute u f))

theorem link_minutes (uses : List Use) (l : Link) (lost : ℕ) :
    (minutes uses ⟨⟨l, []⟩, lost⟩).outlet.link = (run uses ⟨l, lost⟩).outlet :=
  congrArg Forwarder.outlet (forget_run uses ⟨⟨l, []⟩, lost⟩)

end Use

/-! ## What is kept -/

/-- what the minutes keep, with one more call -/
theorem filterMap_concat {α β : Type} (f : α → Option β) (as : List α) (a : α) :
    (as ++ [a]).filterMap f = as.filterMap f ++ (f a).toList := List.filterMap_append

/-- `P` outlives every call, and every entry -/
structure Minuted.Keeps (P : Minuted → Prop) : Prop where
  call : ∀ c m, P m → P (m.call c).2
  note : ∀ e m, P m → P { m with link := m.link.note e }

theorem Use.minute_keeps {P : Minuted → Prop} (h : Minuted.Keeps P) (u : Use) (f : Forwarder Minuted) (hf : P f.outlet) :
    P (u.minute f).outlet := by
  have houtlet : Outlet.Alike (fun m m' => m = m' ∧ P m) Minuted.outlet Minuted.outlet :=
    { send := by rintro k a m _ ⟨rfl, hm⟩; exact ⟨rfl, rfl, h.call (.send k a) m hm⟩
      note := by rintro e m _ ⟨rfl, hm⟩; exact ⟨rfl, h.note e m hm⟩ }
  have hrelated : Forwarder.Related (fun m m' => m = m' ∧ P m) f f := ⟨⟨rfl, hf⟩, rfl⟩
  cases u with
  | call c => exact h.call c f.outlet hf
  | keyDown k => exact (Forwarder.alike_keyDown houtlet k f f hrelated).2.outlet.2
  | keyUp k => exact (Forwarder.alike_keyUp houtlet k f f hrelated).2.outlet.2

/-- **What outlives a call outlives every use** of the sender. -/
theorem Use.minutes_keeps {P : Minuted → Prop} (h : Minuted.Keeps P) (uses : List Use) (f : Forwarder Minuted)
    (hf : P f.outlet) : P (minutes uses f).outlet := by
  induction uses generalizing f with
  | nil => exact hf
  | cons u uses ih => exact ih (u.minute f) (Use.minute_keeps h u f hf)

/-! ## The ways in which a call ends -/

namespace Link

open Wire

variable {script : List Outcome} {l : Link}

/-- a sender that tries to connect again -/
def retrying (s : Sender) : Sender := { s with reconnects := s.reconnects + 1 }

/-- the ways in which a send ends, and what it is answered with -/
inductive Sending (script : List Outcome) (l : Link) (key action : String) : Bool → Link → Prop
  /-- delivered on the connection there was -/
  | delivered {l' : Link} (n : ℕ) (up : l.sender.connected = true) (held : l.sender.socket = some n)
      (did : Did script l [.send n (lineAt l.wire key action)] [lineAt l.wire key action] l.wire.opened
        (credited l.sender l.wire.seconds) l') : Sending script l key action true l'
  /-- failed on the connection there was -/
  | failed {l' : Link} (n : ℕ) (up : l.sender.connected = true) (held : l.sender.socket = some n)
      (did : Did script l [.send n (lineAt l.wire key action)] [] l.wire.opened (broken l.sender) l') :
      Sending script l key action false l'
  /-- dropped, without an attempt to connect -/
  | dropped {l' : Link} (up : l.sender.connected = false) (auto : l.sender.autoReconnect = false)
      (did : Did script l [] [] l.wire.opened (blamed l.sender) l') : Sending script l key action false l'
  /-- dropped, after an attempt to connect -/
  | refused {l' : Link} (up : l.sender.connected = false) (auto : l.sender.autoReconnect = true)
      (did : Did script l (asks l.sender :: letGo l.sender) [] l.wire.opened
        (blamed (without (retrying l.sender))) l') : Sending script l key action false l'
  /-- delivered on a new connection -/
  | revived {l' : Link} (up : l.sender.connected = false) (auto : l.sender.autoReconnect = true)
      (did : Did script l [asks l.sender, .send (l.wire.opened + 1) (lineAt l.wire key action)]
        [lineAt l.wire key action] (l.wire.opened + 1)
        (credited (holding (retrying l.sender) (l.wire.opened + 1)) l.wire.seconds) l') :
      Sending script l key action true l'
  /-- failed on a new connection -/
  | inVain {l' : Link} (up : l.sender.connected = false) (auto : l.sender.autoReconnect = true)
      (did : Did script l [asks l.sender, .send (l.wire.opened + 1) (lineAt l.wire key action)] []
        (l.wire.opened + 1) (broken (holding (retrying l.sender) (l.wire.opened + 1))) l') :
      Sending script l key action false l'

/-- **A send** of a sender that is connected only with a socket ends in one of six ways. -/
theorem sendKey_ways (hw : Fair script l.wire) (hheld : l.sender.connected = true → l.sender.socket.isSome = true)
    (key action : String) :
    Ends (sendKey key action) l (fun b l' => Sending script l key action b l') (fun _ _ => False) := by
  unfold sendKey
  rw [ends_bind]
  unfold ensureConnected
  rw [ends_bind, ends_get]
  dsimp only
  cases hup : l.sender.connected with
  | true =>
    obtain ⟨n, hn⟩ := Option.isSome_iff_exists.1 (hheld hup)
    refine (write_ways hw hn key action).mono (fun b l' h => ?_) (fun _ _ h => h)
    cases b with
    | true => exact .delivered n hup hn h
    | false => exact .failed n hup hn h
  | false =>
    cases hauto : l.sender.autoReconnect with
    | false => exact .dropped hup hauto ⟨Moved.refl hw, rfl⟩
    | true =>
      show Ends (do say _ _; change _; connect) _ _ _
      rw [ends_bind, say, ends_modify, ends_bind, change, ends_modify]
      let l₀ : Link := { note ⟨.info, .sender, "Reconnecting to HID controller..."⟩ l with sender := retrying l.sender }
      refine (connect_ways (l := l₀) hw).mono (fun b l₁ h => ?_) (fun _ _ h => h)
      cases b with
      | false => exact .refused hup hauto ⟨h.wire, by rw [← h.sender]; rfl⟩
      | true =>
        have hn : l₁.sender.socket = some (l.wire.opened + 1) := by rw [h.sender]; rfl
        have hline : lineAt l₁.wire key action = lineAt l.wire key action :=
          congrArg (commandLine · key action) h.wire.timestamp
        have hseconds : l₁.wire.seconds = l.wire.seconds := h.wire.seconds
        refine (write_ways h.wire.fair hn key action).mono (fun b l₂ h₂ => ?_) (fun _ _ h => h)
        rw [hline, hseconds, h.sender, h.wire.opened] at h₂
        cases b with
        | true => exact .revived hup hauto ⟨h.wire.trans h₂.wire, h₂.sender⟩
        | false => exact .inVain hup hauto ⟨h.wire.trans h₂.wire, h₂.sender⟩

/-- the ways in which a call ends, and what it is answered with -/
inductive Way (script : List Outcome) (l l' : Link) : Call → Option Bool → Prop
  /-- a new connection, whatever there was before -/
  | opened (c : Call) (a : Option Bool) (asked : c = .connect ∧ a = some true ∨ c = .enter ∧ a = none)
      (did : Did script l [asks l.sender] [] (l.wire.opened + 1) (holding l.sender (l.wire.opened + 1)) l') :
      Way script l l' c a
  /-- no new connection, and none any more -/
  | refused (c : Call) (a : Option Bool) (asked : c = .connect ∧ a = some false ∨ c = .enter ∧ a = none)
      (did : Did script l (asks l.sender :: letGo l.sender) [] l.wire.opened (without l.sender) l') :
      Way script l l' c a
  | closed (c : Call) (asked : c = .disconnect ∨ c = .leave)
      (did : Did script l (letGo l.sender) [] l.wire.opened (without l.sender) l') : Way script l l' c none
  | sent (key action : String) (b : Bool) (sending : Sending script l key action b l') :
      Way script l l' (.send key action) (some b)

/-- **A call** of a sender that is connected only with a socket returns, in one of these ways. -/
theorem call_ways (hw : Fair script l.wire) (hheld : l.sender.connected = true → l.sender.socket.isSome = true)
    (c : Call) : Ends c.act l (fun a l' => Way script l l' c a) (fun _ _ => False) := by
  cases c with
  | connect =>
    refine ends_bind.2 ((connect_ways hw).mono (fun b l' h => ?_) (fun _ _ h => h))
    cases b with
    | true => exact .opened _ _ (Or.inl ⟨rfl, rfl⟩) h
    | false => exact .refused _ _ (Or.inl ⟨rfl, rfl⟩) h
  | enter =>
    refine ends_bind.2 ((connect_ways hw).mono (fun b l' h => ?_) (fun _ _ h => h))
    cases b with
    | true => exact .opened _ _ (Or.inr ⟨rfl, rfl⟩) h
    | false => exact .refused _ _ (Or.inr ⟨rfl, rfl⟩) h
  | disconnect => exact ends_bind.2 ((disconnect_ways hw).mono (fun _ l' h => .closed _ (Or.inl rfl) h) fun _ _ h => h)
  | leave => exact ends_bind.2 ((disconnect_ways hw).mono (fun _ l' h => .closed _ (Or.inr rfl) h) fun _ _ h => h)
  | send key action =>
    exact ends_bind.2 ((sendKey_ways hw hheld key action).mono (fun b l' h => .sent key action b h) fun _ _ h => h)

theorem Way.fair {l' : Link} {c : Call} {a : Option Bool} (h : Way script l l' c a) : Fair script l'.wire := by
  cases h with
  | opened _ _ _ did | refused _ _ _ did | closed _ _ did => exact did.wire.fair
  | sent _ _ _ sending =>
    cases sending with
    | delivered _ _ _ did | failed _ _ _ did | dropped _ _ did | refused _ _ did | revived _ _ did | inVain _ _ did =>
      exact did.wire.fair

end Link

end KeyHold
