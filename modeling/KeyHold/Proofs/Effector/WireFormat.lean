/-
The lines of commands on a connection.

A command is a line of JSON: plain characters and then a line feed. So the bytes of commands in a row fall into lines at
the line feeds, whatever scalar values are in the texts that were sent, and each line reads back as the command it was
written for.

Commands that are all answered with true go through one connection. The first of them may have to open it; after it the
sender is connected, and stays so.

- `splitOn_stream`: **the lines** of commands in a row.
- `postAll_posted`: what is asked of the network for commands that are all delivered.
- `commands_framed`: **the bytes on the connection** are the commands, one to a line.
-/
import Mathlib.Tactic
import KeyHold.Effector.Sender
import KeyHold.Proofs.Ends
import KeyHold.Proofs.Json.Ascii

namespace KeyHold

/-- a key command and the time of day at which it is sent -/
structure Command where
  timestamp : String
  key : String
  action : String
deriving DecidableEq, Repr

namespace Command

open Text

/-! ## Lines -/

def fields (c : Command) : List (String × String) :=
  [("type", "keyboard"), ("key", c.key), ("action", c.action), ("timestamp", c.timestamp)]

/-- what is written for a command, without the line feed -/
def body (c : Command) : List UInt8 := bytes (Json.obj (Json.texts c.fields)).line

/-- what is written for a command -/
def line (c : Command) : String := Link.commandLine c.timestamp c.key c.action

/-- a line as it is read: UTF-8, then JSON -/
def decode (line : List UInt8) : Option Json := (String.fromUTF8? ⟨line.toArray⟩).bind Json.read?

theorem bytes_line (c : Command) : bytes c.line = c.body ++ [0x0A] := by
  have hline : c.line = (Json.obj (Json.texts c.fields)).line ++ "\n" := rfl
  have hfeed : bytes "\n" = [0x0A] := bytes_eq "\n"
  rw [hline, bytes_append, hfeed]
  rfl

theorem body_plain (c : Command) : ∀ b ∈ c.body, 0x20 ≤ b.toNat ∧ b.toNat < 0x7F := plain_bytes (Json.plain_line c.fields)

/-- no line feed is written for what is in a command -/
theorem feed_notMem_body (c : Command) : 0x0A ∉ c.body := fun h => absurd (c.body_plain _ h).1 (by decide)

/-- **A line reads back** as the command. -/
theorem decode_body (c : Command) : decode c.body = some (Json.obj (Json.texts c.fields)) := by
  have hread : Json.read? ((Json.obj (Json.texts c.fields)).line ++ "") = some (Json.obj (Json.texts c.fields)) :=
    Json.read?_texts c.fields (by simp)
  rw [String.append_empty] at hread
  unfold decode body
  rw [fromUTF8_bytes, Option.bind_some, hread]

/-- the bytes of commands in a row -/
def stream (cs : List Command) : List UInt8 := cs.flatMap fun c => bytes c.line

theorem stream_cons (c : Command) (cs : List Command) : stream (c :: cs) = c.body ++ 0x0A :: stream cs := by
  show bytes c.line ++ stream cs = _
  rw [bytes_line, List.append_assoc]
  rfl

theorem stream_ascii (cs : List Command) : ∀ b ∈ stream cs, b.toNat < 128 := by
  intro b hb
  obtain ⟨c, -, hb⟩ := List.mem_flatMap.1 hb
  rw [bytes_line, List.mem_append, List.mem_singleton] at hb
  rcases hb with hb | rfl
  · exact (c.body_plain b hb).2.trans (by decide)
  · decide

/-- **Split at the line feeds**, the commands come out one by one, with nothing after the last. -/
theorem splitOn_stream (cs : List Command) : (stream cs).splitOn 0x0A = cs.map body ++ [[]] := by
  induction cs with
  | nil => rfl
  | cons c cs ih =>
    rw [stream_cons, List.splitOn_append_cons_self_of_not_mem c.feed_notMem_body, ih]
    rfl

theorem count_stream (cs : List Command) : (stream cs).count 0x0A = cs.length := by
  induction cs with
  | nil => rfl
  | cons c cs ih =>
    rw [stream_cons, List.count_append, List.count_eq_zero.2 c.feed_notMem_body, List.count_cons_self, ih, Nat.zero_add]
    rfl

/-- bytes that are commands, one to a line -/
structure Framed (cs : List Command) (bytes : List UInt8) : Prop where
  ascii : ∀ b ∈ bytes, b.toNat < 128
  /-- a line feed ends each command, and there is no other in it -/
  closed : bytes = cs.flatMap fun c => c.body ++ [0x0A]
  unbroken : ∀ c ∈ cs, 0x0A ∉ c.body
  feeds : bytes.count 0x0A = cs.length
  lines : bytes.splitOn 0x0A = cs.map body ++ [[]]
  read : ∀ c ∈ cs, decode c.body = some (.obj [("type", .str "keyboard"), ("key", .str c.key),
    ("action", .str c.action), ("timestamp", .str c.timestamp)])

theorem stream_framed (cs : List Command) : Framed cs (stream cs) where
  ascii := stream_ascii cs
  closed := by simp only [stream, bytes_line]
  unbroken c _ := c.feed_notMem_body
  feeds := count_stream cs
  lines := splitOn_stream cs
  read c _ := c.decode_body

end Command

/-! ## Requests -/

/-- what requests write to a connection -/
def NetCall.written (n : ℕ) : List NetCall → List UInt8 :=
  List.flatMap fun r => match r with
    | .send k line => if k = n then Text.bytes line else []
    | _ => []

theorem NetCall.written_append (n : ℕ) (rs rs' : List NetCall) : written n (rs ++ rs') = written n rs ++ written n rs' :=
  List.flatMap_append

theorem NetCall.written_sends (k n : ℕ) (cs : List Command) :
    written k (cs.map fun c => .send n c.line) = if n = k then Command.stream cs else [] := by
  unfold written Command.stream
  rw [List.flatMap_map]
  split_ifs with h
  · simp [h]
  · simp [h]

namespace Link

open Command

/-- sends a command at its time -/
def post (c : Command) (l : Link) : Except Fault Bool × Link :=
  sendKey c.key c.action { l with wire := { l.wire with timestamp := c.timestamp } }

/-- sends commands one after the other; the answers, and the link afterwards -/
def postAll : List Command → Link → List (Except Fault Bool) × Link
  | [], l => ([], l)
  | c :: cs, l => ((post c l).1 :: (postAll cs (post c l).2).1, (postAll cs (post c l).2).2)

/-- a link that is connected, after some requests that write nothing; one that was connected asks for nothing -/
structure Ready (l : Link) (opening : List NetCall) (l' : Link) : Prop where
  calls : l'.wire.calls.toList = l.wire.calls.toList ++ opening
  silent : ∀ n, NetCall.written n opening = []
  connected : l'.sender.connected = true
  timestamp : l'.wire.timestamp = l.wire.timestamp
  kept : l.sender.connected = true → opening = [] ∧ l'.sender.socket = l.sender.socket

/-- a line was written to the connection that is held then, after some requests that write nothing -/
structure Posted (line : String) (n : ℕ) (l : Link) (opening : List NetCall) (l' : Link) : Prop where
  calls : l'.wire.calls.toList = l.wire.calls.toList ++ (opening ++ [.send n line])
  silent : ∀ n, NetCall.written n opening = []
  connected : l'.sender.connected = true
  socket : l'.sender.socket = some n
  kept : l.sender.connected = true → opening = [] ∧ l.sender.socket = some n

variable {l : Link}

/-- what is answered with false in the end is not answered with true -/
theorem ends_denied {act act' : Act Unit} {P : Link → Prop} :
    Ends (do act; act'; return false) l (fun b l' => b = true → P l') (fun _ _ => True) := by
  have hlast {l : Link} : Ends (do act'; return false) l (fun b l' => b = true → P l') (fun _ _ => True) := by
    rw [ends_bind]
    unfold Ends
    rcases act' l with ⟨e | u, l'⟩
    · trivial
    · exact nofun
  rw [ends_bind]
  unfold Ends
  rcases act l with ⟨e | u, l'⟩
  · trivial
  · exact hlast

/-- a request that is answered is answered by the network -/
theorem request_answered {α : Type} {f : Wire → Except Outage α × Wire} :
    Ends (request f) l (fun r l' => r = (f l.wire).1 ∧ l' = { l with wire := (f l.wire).2 }) (fun _ _ => True) := by
  unfold Ends request
  rcases f l.wire with ⟨o | a, w⟩
  · dsimp only
    split_ifs
    · exact ⟨rfl, rfl⟩
    · trivial
  · exact ⟨rfl, rfl⟩

theorem connect_calls (host : String) (port : ℤ) (timeout : Float) (w : Wire) :
    (w.connect host port timeout).2.calls = w.calls.push (.connect host port timeout) ∧
      (w.connect host port timeout).2.timestamp = w.timestamp := by
  unfold Wire.connect
  rcases Wire.take w.connects with ⟨_ | o, rest⟩ <;> exact ⟨rfl, rfl⟩

theorem send_calls (n : ℕ) (line : String) (w : Wire) : (w.send n line).2.calls = w.calls.push (.send n line) := by
  unfold Wire.send
  rcases Wire.take w.sends with ⟨_ | o, rest⟩ <;> rfl

theorem connect_ready (hup : l.sender.connected = false) :
    Ends connect l (fun b l' => b = true → ∃ opening, Ready l opening l') (fun _ _ => True) := by
  obtain ⟨hcalls, htime⟩ := connect_calls l.sender.host l.sender.port l.sender.timeout l.wire
  unfold connect
  rw [ends_bind, ends_get, ends_bind]
  refine request_answered.mono (fun r l₁ h => ?_) fun _ _ h => h
  obtain ⟨-, rfl⟩ := h
  cases r with
  | ok n =>
    refine fun _ => ⟨[.connect l.sender.host l.sender.port l.sender.timeout], ?_, fun _ => rfl, rfl, htime, fun h => ?_⟩
    · exact (congrArg Array.toList hcalls).trans Array.toList_push
    · exact absurd (h.symm.trans hup) (by decide)
  | error o => exact ends_denied

theorem ensureConnected_ready :
    Ends ensureConnected l (fun b l' => b = true → ∃ opening, Ready l opening l') (fun _ _ => True) := by
  unfold ensureConnected
  rw [ends_bind, ends_get]
  dsimp only
  split_ifs with hup hauto
  · exact fun _ => ⟨[], (List.append_nil _).symm, fun _ => rfl, hup, rfl, fun _ => ⟨rfl, rfl⟩⟩
  · rw [ends_bind, say, ends_modify, ends_bind, change, ends_modify]
    refine Ends.mono (connect_ready ?_) (fun b l' h hb => ?_) fun _ _ h => h
    · exact Bool.eq_false_iff.2 hup
    · obtain ⟨opening, h⟩ := h hb
      exact ⟨opening, h.calls, h.silent, h.connected, h.timestamp, fun h => absurd h hup⟩
  · exact nofun

/-- a line that is answered with true was written to the connection that is held -/
theorem write_posted (hup : l.sender.connected = true) (key action : String) :
    Ends (write key action) l
      (fun b l' => b = true → ∃ n, Posted (commandLine l.wire.timestamp key action) n l [] l') (fun _ _ => True) := by
  unfold write
  rw [ends_bind, ends_get]
  cases hn : l.sender.socket with
  | none => exact nofun
  | some n =>
    have hcalls := send_calls n (commandLine l.wire.timestamp key action) l.wire
    dsimp only
    rw [ends_bind]
    refine request_answered.mono (fun r l₁ h => ?_) fun _ _ h => h
    obtain ⟨-, rfl⟩ := h
    cases r with
    | ok u =>
      refine fun _ => ⟨n, ?_, fun _ => rfl, hup, hn, fun _ => ⟨rfl, hn⟩⟩
      exact (congrArg Array.toList hcalls).trans Array.toList_push
    | error o => exact ends_denied

/-- **A command that is answered with true** was written to a connection, which stays. -/
theorem post_posted {c : Command} (h : (post c l).1 = .ok true) :
    ∃ n opening, Posted c.line n l opening (post c l).2 := by
  have hends : Ends (sendKey c.key c.action) { l with wire := { l.wire with timestamp := c.timestamp } }
      (fun b l' => b = true → ∃ n opening, Posted c.line n l opening l') (fun _ _ => True) := by
    unfold sendKey
    rw [ends_bind]
    refine ensureConnected_ready.mono (fun b l₁ hb => ?_) fun _ _ h => h
    split_ifs with hup
    · obtain ⟨opening, hready⟩ := hb hup
      refine (write_posted hready.connected c.key c.action).mono (fun b l₂ h₂ hb => ?_) fun _ _ h => h
      obtain ⟨n, h₂⟩ := h₂ hb
      refine ⟨n, opening, ?_, hready.silent, h₂.connected, h₂.socket, fun hup => ?_⟩
      · rw [h₂.calls, hready.calls, hready.timestamp, List.append_assoc]
        rfl
      · obtain ⟨hnone, hsame⟩ := hready.kept hup
        exact ⟨hnone, hsame ▸ (h₂.kept hready.connected).2⟩
    · exact ends_denied
  unfold post at h ⊢
  unfold Ends at hends
  rcases hr : sendKey c.key c.action { l with wire := { l.wire with timestamp := c.timestamp } } with ⟨e | b, l'⟩
  · rw [hr] at h
    cases h
  · rw [hr] at h hends
    exact hends (Except.ok.inj h)

/-! ## Commands in a row -/

variable {cs : List Command}

theorem postAll_connected {n : ℕ} (hup : l.sender.connected = true) (hn : l.sender.socket = some n)
    (h : ∀ a ∈ (postAll cs l).1, a = .ok true) :
    (postAll cs l).2.wire.calls.toList = l.wire.calls.toList ++ cs.map fun c => .send n c.line := by
  induction cs generalizing l with
  | nil => exact (List.append_nil _).symm
  | cons c cs ih =>
    obtain ⟨hfirst, hrest⟩ := List.forall_mem_cons.1 h
    obtain ⟨m, opening, hposted⟩ := post_posted hfirst
    obtain ⟨rfl, hsame⟩ := hposted.kept hup
    obtain rfl : n = m := Option.some.inj (hn.symm.trans hsame)
    show (postAll cs (post c l).2).2.wire.calls.toList = _
    rw [ih hposted.connected hposted.socket hrest, hposted.calls, List.append_assoc]
    rfl

/-- **Commands that are all delivered** go through one connection, which the first may open. -/
theorem postAll_posted (h : ∀ a ∈ (postAll cs l).1, a = .ok true) :
    ∃ n opening, (∀ k, NetCall.written k opening = []) ∧ (postAll cs l).2.wire.calls.toList =
      l.wire.calls.toList ++ (opening ++ cs.map fun c => .send n c.line) := by
  cases cs with
  | nil => exact ⟨0, [], fun _ => rfl, (List.append_nil _).symm⟩
  | cons c cs =>
    obtain ⟨hfirst, hrest⟩ := List.forall_mem_cons.1 h
    obtain ⟨n, opening, hposted⟩ := post_posted hfirst
    refine ⟨n, opening, hposted.silent, ?_⟩
    show (postAll cs (post c l).2).2.wire.calls.toList = _
    rw [postAll_connected hposted.connected hposted.socket hrest, hposted.calls]
    simp only [List.map_cons, List.append_assoc, List.singleton_append]

/-- a command that was answered with true and left its sender with the `n`th connection -/
structure Sent (n : ℕ) where
  command : Command
  before : Link
  confirmed : (post command before).1 = .ok true
  held : (post command before).2.sender.socket = some n

/-- what was asked of the network for it -/
def Sent.requests {n : ℕ} (s : Sent n) : List NetCall :=
  (post s.command s.before).2.wire.calls.toList.drop s.before.wire.calls.size

/-- what was written for it is its line -/
theorem Sent.written {n : ℕ} (s : Sent n) (k : ℕ) :
    NetCall.written k s.requests = if n = k then Text.bytes s.command.line else [] := by
  obtain ⟨m, opening, hposted⟩ := post_posted s.confirmed
  obtain rfl : n = m := Option.some.inj (s.held.symm.trans hposted.socket)
  unfold requests
  rw [hposted.calls, ← Array.length_toList, List.drop_left, NetCall.written_append, hposted.silent, List.nil_append]
  exact List.append_nil _

/-- **Commands are framed by line feeds**, whatever there is in their texts, which are sequences of Unicode scalar
values (a lone surrogate is none). What is asked of the network for commands that are delivered on one connection,
whatever happens between them, writes to that connection nothing but their lines: ASCII, with a line feed at the end of
each and nowhere else; split there, the pieces read back as the objects with the four fields, and the texts as they were
given. Commands one after the other that are all answered with true are delivered on one connection. -/
theorem commands_framed :
    (∀ (n : ℕ) (sends : List (Sent n)),
      Framed (sends.map Sent.command) (sends.flatMap fun s => NetCall.written n s.requests)) ∧
    ∀ (l : Link) (cs : List Command), (∀ a ∈ (postAll cs l).1, a = .ok true) →
      ∃ n requests, (postAll cs l).2.wire.calls.toList = l.wire.calls.toList ++ requests ∧
        Framed cs (NetCall.written n requests) ∧ ∀ k, k ≠ n → NetCall.written k requests = [] := by
  refine ⟨fun n sends => ?_, fun l cs h => ?_⟩
  · have hstream : (sends.flatMap fun s => NetCall.written n s.requests) = stream (sends.map Sent.command) := by
      simp only [Sent.written, if_true, stream, List.flatMap_map]
    rw [hstream]
    exact stream_framed _
  · obtain ⟨n, opening, hsilent, hcalls⟩ := postAll_posted h
    refine ⟨n, _, hcalls, ?_, fun k hk => ?_⟩
    · rw [NetCall.written_append, hsilent, NetCall.written_sends, if_pos rfl]
      exact stream_framed cs
    · rw [NetCall.written_append, hsilent, NetCall.written_sends, if_neg (Ne.symm hk)]
      rfl

/-- two commands of a link that is not connected yet -/
theorem commands_framed_awkward :
    let cs : List Command := [⟨"t", "\n\"\\", "down"⟩, ⟨"", "é\x00😀", "\x7f"⟩]
    let sent : Sent 1 := ⟨⟨"t", "\n\"\\", "down"⟩, {}, rfl, rfl⟩
    Framed [sent.command] (NetCall.written 1 sent.requests ++ []) ∧
      ∃ n requests, (postAll cs {}).2.wire.calls.toList = requests ∧ Framed cs (NetCall.written n requests) := by
  intro cs sent
  have hanswers : (postAll cs {}).1 = [.ok true, .ok true] := rfl
  obtain ⟨hsent, hrow⟩ := commands_framed
  obtain ⟨n, requests, hcalls, hframed, -⟩ := hrow {} cs (by rw [hanswers]; simp)
  exact ⟨hsent 1 [sent], n, requests, hcalls, hframed⟩

end Link
end KeyHold
