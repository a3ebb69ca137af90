/-
The scan loop.

Each turn handles the toggle events that wait, in the order in which they came, and then ticks the driver once. The
loop sleeps between turns; what happens while it sleeps (events, keys, signals, an interrupt) is given turn by turn.
However the loop ends, the driver is stopped by force, so no key stays held.

- `runOnce`: one turn.
- `handleSignal`: the first signal stops the loop, the second one ends the process.
- `runForever`: turns until the loop is stopped or something fails. When the given turns are used up before that, the
  loop is left as it stands.
-/
import KeyHold.Driver
import KeyHold.Host.Listener

namespace KeyHold

/-- what can happen while the loop sleeps -/
inductive Happening where
  | event (mode : Value)
  | stop
  | signal (number : Int)
  | interrupt
  | press (key : KeyReport)
  | release (key : KeyReport)

/-- the loop with the scene it drives and the listener that feeds it -/
structure ScanLoop (ω : Type) where
  scene : Scene ω
  listener : Listener := {}
  running : Bool := false
  iterations : Nat := 0
  signals : Nat := 0
  /-- codes that the process was asked to end with -/
  exits : Array Int := #[]

/-- how a loop is set up -/
structure LoopSetup (ω : Type) where
  driver : Driver ω
  intervalMs : Float
  /-- sleeps for a number of seconds -/
  sleep : Float → ω → Except Fault ω
  /-- the signals that reach the loop -/
  handled : Int → Bool := fun _ => true

/-- how a run of the loop ended, if it did -/
inductive Ending where
  | ended (result : Except Fault Unit)
  | unfinished

namespace ScanLoop

abbrev Act (ω : Type) := ExceptT Fault (StateM (ScanLoop ω))

variable {ω : Type} (L : LoopSetup ω)

/-- an operation of the driver -/
def drive {α : Type} (act : KeyHold.Act ω α) : Act ω α := fun l =>
  let (r, scene) := act l.scene
  (r, { l with scene })

def note (e : Entry) : Act ω Unit := drive (KeyHold.Act.outside (L.driver.host.note e))

def say (level : Level) (text : String) : Act ω Unit := note L ⟨level, .host, text⟩

/-- a change of the listener, with the entries it is worth -/
def onListener (f : Listener → Listener × List Entry) : Act ω Unit := do
  let (listener, entries) := f (← get).listener
  modify fun l => { l with listener }
  entries.forM (note L)

/-- a toggle; an unknown mode is only noted -/
def handle (e : ToggleEvent) : Act ω Unit := fun l =>
  match drive (L.driver.toggle e.mode) l with
  | (.error (.unknownMode name), l) => say L .error (Fault.unknownMode name).message l
  | r => r

/-- the events that wait, each taken from the queue before it is handled -/
def drain : List ToggleEvent → Act ω Unit
  | [] => return
  | e :: rest => do
    modify fun l => { l with listener := { l.listener with events := rest } }
    handle L e
    drain rest

/-- one turn: the events that wait, then one tick -/
def runOnce : Act ω Unit := do
  drain L (← get).listener.events
  drive L.driver.tick
  modify fun l => { l with iterations := l.iterations + 1 }

def stop : Act ω Unit := modify fun l => { l with running := false }

def handleSignal (number : Int) : Act ω Unit := do
  modify fun l => { l with signals := l.signals + 1 }
  let signals := (← get).signals
  if signals ≥ 2 then
    say L .info ("Force exit (signal " ++ toString number ++ " received " ++ toString signals ++ " times)")
    drive L.driver.forceStop
    modify fun l => { l with exits := l.exits.push 1 }
  say L .info ("Received signal " ++ toString number ++ ", stopping... (send again to force)")
  stop

/-- one thing that happens -/
def happen : Happening → Act ω Unit
  | .event mode => modify fun l =>
      { l with listener := { l.listener with events := l.listener.events ++ [⟨mode, ""⟩] } }
  | .stop => stop
  | .signal number => if L.handled number then handleSignal L number else return
  | .interrupt => throw .interrupted
  | .press key => onListener L (Listener.press key)
  | .release key => onListener L fun l => (l.release key, [])

/-- a sleep and what happens meanwhile -/
def pause (happenings : List Happening) : Act ω Unit := do
  fun l =>
    match L.sleep (L.intervalMs / 1000.0) l.scene.world with
    | .ok world => (.ok (), { l with scene := { l.scene with world } })
    | .error e => (.error e, l)
  happenings.forM (happen L)

/-- turn after turn while the loop runs -/
def turns : List (List Happening) → ScanLoop ω → Ending × ScanLoop ω
  | pauses, l =>
    if !l.running then (.ended (.ok ()), l)
    else
      match pauses with
      | [] => (.unfinished, l)
      | happenings :: rest =>
        match (do runOnce L; pause L happenings : Act ω Unit) l with
        | (.ok (), l) => turns rest l
        | (.error e, l) => (.ended (.error e), l)

/-- what is done however the loop ended -/
def wrapUp : Act ω Unit := do
  drive L.driver.forceStop
  say L .info ("Scan loop stopped after " ++ toString (← get).iterations ++ " iterations")

/-- `last` is done however `r` came about; a fault of its own replaces `r` -/
def endWith (r : Except Fault Unit) (last : Act ω Unit) (l : ScanLoop ω) : Ending × ScanLoop ω :=
  match last l with
  | (.ok (), l) => (.ended r, l)
  | (.error e, l) => (.ended (.error e), l)

/-- turns until something ends them, then the forced stop -/
def runForever (pauses : List (List Happening)) (l : ScanLoop ω) : Ending × ScanLoop ω :=
  let (_, l) := say L .info ("Scan loop running every " ++ Decimal.text L.intervalMs ++ "ms") { l with running := true }
  match turns L pauses l with
  | (.ended r, l) => endWith r (wrapUp L) l
  | (.unfinished, l) => (.unfinished, l)

end ScanLoop
end KeyHold
