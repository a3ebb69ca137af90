/-
A running host.

`run` connects to the HID controller (unless the run is dry), watches the toggle keys and runs the scan loop until it
ends. Its world is a `Station`: a clock, seed values, the link to the controller with the journal, and the count of
releases lost. At its end the listener is stopped and the connection let go.
-/
import KeyHold.Effector.Dry
import KeyHold.Effector.Sender
import KeyHold.Host.ScanLoop
import KeyHold.Session.Bench
import KeyHold.Settings.Basic

namespace KeyHold

/-- the world of a host -/
structure Station where
  clock : VirtualClock := .startingAt 0
  entropy : Cycle := ⟨[0], 0⟩
  forwarder : Forwarder Link := { outlet := {} }
  /-- key actions are only noted -/
  dry : Bool := false
  /-- sleeps so far -/
  sleeps : Nat := 0
deriving Inhabited

namespace Station

def note (e : Entry) (s : Station) : Station :=
  { s with forwarder := { s.forwarder with outlet := s.forwarder.outlet.note e } }

def journal (s : Station) : Array Entry := s.forwarder.outlet.journal

/-- an operation of the forwarding effector -/
def forward (act : Forwarder.Act Link Unit) (s : Station) : Except Fault Unit × Station :=
  let (r, forwarder) := act s.forwarder
  (r, { s with forwarder })

/-- an operation of the sender -/
def onLink {α : Type} (act : Link.Act α) (s : Station) : Except Fault α × Station :=
  let (r, outlet) := act s.forwarder.outlet
  (r, { s with forwarder := { s.forwarder with outlet } })

def key (d : Direction) (k : String) (s : Station) : Except Fault Unit × Station :=
  if s.dry then (.ok (), s.note (DryRun.note d k))
  else
    match d with
    | .down => s.forward (Forwarder.keyDown Link.outlet k)
    | .up => s.forward (Forwarder.keyUp Link.outlet k)

/-- a change of mode, as the host notes it -/
def changeEntry (mode : Value) : Entry :=
  ⟨.info, .host, if mode.truthy then "Active macro: " ++ mode.plain else "Macro idle"⟩

def rig : HostRig Station where
  keyDown := key .down
  keyUp := key .up
  waitUs us s := { s with clock := s.clock.wait us }
  note := note
  stamp s := s.clock.stamp
  entropy s := let (n, c) := s.entropy.draw; (n, { s with entropy := c })
  changed mode s := s.note (changeEntry mode)

/-- sleeps, which takes the time asked for -/
def sleep (seconds : Float) (s : Station) : Except Fault Station :=
  (s.clock.advance (seconds * 1000.0)).map fun clock => { s with clock, sleeps := s.sleeps + 1 }

end Station

namespace Host

/-- what a run of the host leaves: how it ended, with the exit code if it returned, and all that it worked with -/
structure Outcome where
  result : Option (Except Fault Int)
  station : Station
  session : Session := {}
  listener : Listener := {}
  exits : Array Int := #[]

def note (level : Level) (text : String) (s : Station) : Station := s.note ⟨level, .host, text⟩

/-- the signals that the host routes to the loop: interrupt and terminate -/
def handled (number : Int) : Bool := number == 2 || number == 15

def setup (settings : Settings) (noise : Noise) : LoopSetup Station where
  driver := ⟨settings.registry.orBuiltin, settings.engine, noise, Station.rig⟩
  intervalMs := settings.host.scanIntervalMs
  sleep := Station.sleep
  handled := handled

/-- the mode of each toggle key that is set -/
def toggleTable (settings : Settings) : List (Value × Value) :=
  (settings.registry.policies.filter fun p => p.toggleKey.truthy).foldl
    (fun table p => Value.insert p.toggleKey p.name table) []

/-- the listener is stopped and the connection let go, whatever the loop's end `r` was; a fault here replaces it -/
def close (r : Except Fault Int) (listener : Listener) (s : Station) : Except Fault Int × Listener × Station :=
  let (listener, entries) := listener.stop
  let s := entries.foldl (fun s e => s.note e) s
  if s.dry then (r, listener, s)
  else
    let s := note .info ("Sender stats: " ++ Link.statsText s.forwarder.outlet.sender) s
    match s.onLink Link.disconnect with
    | (.ok (), s) => (r, listener, s)
    | (.error e, s) => (.error e, listener, s)

/-- the loop between the start and the stop of the listener; toggle keys that cannot be listed end the run at once, with
the listener left as it is -/
def watch (settings : Settings) (noise : Noise) (pauses : List (List Happening)) (listener : Listener) (s : Station) :
    Outcome :=
  let L := setup settings noise
  let (listener, entries) := listener.start
  let s := entries.foldl (fun s e => s.note e) s
  match listener.listing with
  | .error e => { result := some (.error e), station := s, listener }
  | .ok _ =>
    match ScanLoop.runForever L pauses { scene := { session := {}, world := s }, listener } with
    | (.unfinished, l) =>
      { result := none, station := l.scene.world, session := l.scene.session, listener := l.listener, exits := l.exits }
    | (.ended r, l) =>
      let (r, listener, s) := close (r.map fun _ => 0) l.listener l.scene.world
      { result := some r, station := s, session := l.scene.session, listener, exits := l.exits }

/-- the part after the effector is chosen -/
def runWith (settings : Settings) (noise : Noise) (pauses : List (List Happening)) (s : Station) : Outcome :=
  match toggleTable settings with
  | [] => { result := some (.ok 1), station := note .error "No mode has a toggle_key configured" s }
  | table =>
    match Listener.ofTable table with
    | .error e => { result := some (.error e), station := s }
    | .ok listener => watch settings noise pauses listener s

/-- the sender that the settings describe -/
def sender (c : HidConfig) : Sender :=
  { host := c.host, port := c.keyboardPort, timeout := c.timeout, autoReconnect := c.autoReconnect }

/-- runs the host from a station until the loop ends -/
def run (settings : Settings) (noise : Noise) (dryRun : Bool) (pauses : List (List Happening)) (s : Station) :
    Outcome :=
  if dryRun || settings.host.dryRun then
    runWith settings noise pauses (note .info "Dry run: key actions are only logged" { s with dry := true })
  else
    let link := { s.forwarder.outlet with sender := sender settings.hid }
    let s := { s with forwarder := { s.forwarder with outlet := link } }
    match s.onLink Link.connect with
    | (.error e, s) => { result := some (.error e), station := s }
    | (.ok connected, s) =>
      if !connected && !settings.hid.autoReconnect then
        { result := some (.ok 1), station := note .error "Could not reach HID controller" s }
      else runWith settings noise pauses s

end Host
end KeyHold
