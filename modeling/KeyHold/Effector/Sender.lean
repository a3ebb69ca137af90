/-
The connection to the HID controller.

A sender keeps one connection and writes each command as a line of JSON. What the network does is given: a list of
outcomes for attempts to connect, one for sends and one for closings, each used up in turn, with success once it is
empty. A failure that the network can be expected to have is noted and answered; any other is passed on. A failed send
delivers nothing.

- `connect`, `disconnect`, `sendKey`: the operations. A send that finds no connection connects first if it may.
- `Wire.calls`: everything that was asked of the network, in order.
-/
import KeyHold.Effector.Forward
import KeyHold.Json.Basic

namespace KeyHold

/-- what comes of one request to the network -/
inductive Outcome where
  | success
  | failure (o : Outage)
deriving DecidableEq, Repr

/-- a request to the network; connections are numbered as they are opened, from 1 -/
inductive NetCall where
  | connect (host : String) (port : Int) (timeout : Float)
  | send (connection : Nat) (line : String)
  | close (connection : Nat)

/-- the network as a sender meets it -/
structure Wire where
  connects : List Outcome := []
  sends : List Outcome := []
  closes : List Outcome := []
  /-- the connections opened so far -/
  opened : Nat := 0
  calls : Array NetCall := #[]
  /-- the time of day that commands are stamped with -/
  timestamp : String := "2024-01-02T03:04:05.000678"
  /-- the same in seconds -/
  seconds : Float := 1700000000.25
deriving Inhabited

namespace Wire

/-- the next outcome of a list, success if there is none -/
def take : List Outcome → Outcome × List Outcome
  | [] => (.success, [])
  | o :: rest => (o, rest)

/-- opens a connection and gives its number -/
def connect (host : String) (port : Int) (timeout : Float) (w : Wire) : Except Outage Nat × Wire :=
  let (o, connects) := take w.connects
  let w := { w with connects, calls := w.calls.push (.connect host port timeout) }
  match o with
  | .success => (.ok (w.opened + 1), { w with opened := w.opened + 1 })
  | .failure e => (.error e, w)

def send (connection : Nat) (line : String) (w : Wire) : Except Outage Unit × Wire :=
  let (o, sends) := take w.sends
  let w := { w with sends, calls := w.calls.push (.send connection line) }
  match o with
  | .success => (.ok (), w)
  | .failure e => (.error e, w)

def close (connection : Nat) (w : Wire) : Except Outage Unit × Wire :=
  let (o, closes) := take w.closes
  let w := { w with closes, calls := w.calls.push (.close connection) }
  match o with
  | .success => (.ok (), w)
  | .failure e => (.error e, w)

end Wire

/-- a sender and its bookkeeping -/
structure Sender where
  host : String := "192.168.100.1"
  port : Int := 8889
  timeout : Float := 5.0
  autoReconnect : Bool := true
  /-- the number of the connection it holds -/
  socket : Option Nat := none
  connected : Bool := false
  commandsSent : Nat := 0
  errors : Nat := 0
  reconnects : Nat := 0
  lastSend : Float := 0.0
deriving Inhabited

/-- a sender, the network it uses, and what it said -/
structure Link where
  sender : Sender := {}
  wire : Wire := {}
  journal : Array Entry := #[]
deriving Inhabited

namespace Link

abbrev Act := ExceptT Fault (StateM Link)

def change (f : Sender → Sender) : Act Unit := modify fun l => { l with sender := f l.sender }

def note (e : Entry) (l : Link) : Link := { l with journal := l.journal.push e }

def say (level : Level) (text : String) : Act Unit := modify (note ⟨level, .sender, text⟩)

/-- a request to the network: an expected failure is an answer, another one a fault -/
def request {α : Type} (f : Wire → Except Outage α × Wire) : Act (Except Outage α) := fun l =>
  let (r, wire) := f l.wire
  let l := { l with wire }
  match r with
  | .ok a => (.ok (.ok a), l)
  | .error o => (if o.expected then .ok (.error o) else .error (.outage o), l)

/-- lets go of the connection, if there is one -/
def disconnect : Act Unit := do
  let before := (← get).sender
  change fun s => { s with connected := false }
  match before.socket with
  | none => pure ()
  | some n =>
    let _ ← request (Wire.close n)
    change fun s => { s with socket := none }
  if before.connected then say .info "Disconnected from HID controller"

/-- opens a connection; whether that succeeded -/
def connect : Act Bool := do
  let s := (← get).sender
  match ← request (Wire.connect s.host s.port s.timeout) with
  | .ok n =>
    change fun s => { s with socket := some n }
    say .info ("Connected to keyboard port " ++ s.host ++ ":" ++ toString s.port)
    change fun s => { s with connected := true }
    return true
  | .error o =>
    say .error ("Connection failed: " ++ o.text)
    disconnect
    return false

/-- whether there is a connection, after an attempt to open one if that is allowed -/
def ensureConnected : Act Bool := do
  let s := (← get).sender
  if s.connected then return true
  if s.autoReconnect then
    say .info "Reconnecting to HID controller..."
    change fun s => { s with reconnects := s.reconnects + 1 }
    connect
  else return false

/-- a command as it is written: one line -/
def commandLine (timestamp key action : String) : String :=
  (Json.obj [("type", .str "keyboard"), ("key", .str key), ("action", .str action), ("timestamp", .str timestamp)]).line
    ++ "\n"

/-- writes one command to the connection; whether that succeeded -/
def write (key action : String) : Act Bool := do
  let l ← get
  match l.sender.socket with
  | none => return false
  | some n =>
    match ← request (Wire.send n (commandLine l.wire.timestamp key action)) with
    | .ok () =>
      change fun s => { s with commandsSent := s.commandsSent + 1, lastSend := l.wire.seconds }
      return true
    | .error o =>
      say .error ("Send failed: " ++ o.text)
      change fun s => { s with errors := s.errors + 1, connected := false }
      return false

/-- sends a key command; whether it was delivered -/
def sendKey (key action : String) : Act Bool := do
  if ← ensureConnected then write key action
  else
    change fun s => { s with errors := s.errors + 1 }
    say .warning ("Dropped key " ++ action ++ " for " ++ Text.quoted key ++ ": not connected")
    return false

/-- the bookkeeping as an entry shows it -/
def statsText (s : Sender) : String :=
  (Value.map [
    (.str "connected", .bool s.connected), (.str "commands_sent", .int s.commandsSent), (.str "errors", .int s.errors),
    (.str "reconnects", .int s.reconnects), (.str "last_send", .float s.lastSend)]).written

/-- the link as an outlet of an effector -/
def outlet : Outlet Link where
  send key action l := sendKey key action l
  note := note

end Link
end KeyHold
