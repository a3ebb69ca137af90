/-
The settings of the program.

Five parts: the timing engine, the modes, the connection to the HID controller, the scan loop of the host, and the
journal.
-/
import KeyHold.Policy.Registry
import KeyHold.Session.Config

namespace KeyHold

/-- how the HID controller is reached -/
structure HidConfig where
  host : String := "192.168.100.1"
  keyboardPort : Int := 8889
  timeout : Float := 5.0
  autoReconnect : Bool := true
deriving Inhabited

/-- how the scan loop runs -/
structure HostConfig where
  scanIntervalMs : Float := 2.0
  dryRun : Bool := false
deriving Inhabited

/-- where the journal goes -/
structure LogConfig where
  level : String := "INFO"
  logDir : Option String := none
  colored : Bool := true
deriving Inhabited

structure Settings where
  engine : EngineConfig := {}
  modes : List Policy := Policy.builtin
  hid : HidConfig := {}
  host : HostConfig := {}
  logging : LogConfig := {}
deriving Inhabited

namespace Settings

def registry (s : Settings) : Registry := Registry.ofList s.modes

def sectionFault (name text : String) : Fault := .config ⟨some name, text⟩

/-- no two of the values are the same; a value that cannot be a key cannot be compared this way, and one that is not the
same as itself is unlike all others -/
def allDistinct (vs : List Value) : Except Fault Bool :=
  let rec go (seen : List Value) : List Value → Except Fault Bool
    | [] => .ok true
    | v :: rest =>
      if !v.hashable then .error (.wrongKind ("unhashable type: '" ++ v.kind ++ "'"))
      else if seen.any (·.same v) then (go seen rest).map fun _ => false
      else go (v :: seen) rest
  go [] vs

/-- the toggle keys that are set, mode by mode -/
def toggleKeys (s : Settings) : List Value := (s.modes.map Policy.toggleKey).filter Value.truthy

/-- every part is in its bounds, there is a mode, and no two modes share a toggle key -/
def check (s : Settings) : Except Fault Unit := do
  s.engine.check
  if s.host.scanIntervalMs ≤ 0.0 then throw (sectionFault "host" "scan_interval_ms must be positive")
  if s.modes.isEmpty then throw (sectionFault "modes" "at least one mode is required")
  if !(← allDistinct s.toggleKeys) then throw (sectionFault "modes" "toggle keys must be unique across modes")

end Settings
end KeyHold
