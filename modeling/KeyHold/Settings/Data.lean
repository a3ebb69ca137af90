/-
Settings as data.

`Settings.ofData` reads a mapping of sections, each of which may be missing; what is read has passed `check`. A value
of the wrong kind anywhere in the sections is a fault of the settings. `toData` writes every field out. A reader is
given the room there is for writing the values that its messages show; unless one is given there is no bound.
-/
import KeyHold.Policy.Data
import KeyHold.Settings.Field

namespace KeyHold

def EngineConfig.fields : List (Field EngineConfig) := [
  .int "safety_timeout_ms" (·.safetyTimeoutMs) fun n c => { c with safetyTimeoutMs := n },
  .real "min_hold_ms" (·.minHoldMs) fun x c => { c with minHoldMs := x },
  .int "bounce_one_in" (·.bounceOneIn) fun n c => { c with bounceOneIn := n },
  .int "glitch_one_in" (·.glitchOneIn) fun n c => { c with glitchOneIn := n },
  .int "glitch_split_min_pct" (·.glitchSplitMinPct) fun n c => { c with glitchSplitMinPct := n },
  .int "glitch_split_max_pct" (·.glitchSplitMaxPct) fun n c => { c with glitchSplitMaxPct := n },
  .real "glitch_gap_mean_ms" (·.glitchGapMeanMs) fun x c => { c with glitchGapMeanMs := x },
  .real "glitch_gap_stddev_ms" (·.glitchGapStddevMs) fun x c => { c with glitchGapStddevMs := x },
  .real "glitch_gap_min_ms" (·.glitchGapMinMs) fun x c => { c with glitchGapMinMs := x },
  .real "travel_mean_us" (·.travelMeanUs) fun x c => { c with travelMeanUs := x },
  .real "travel_stddev_us" (·.travelStddevUs) fun x c => { c with travelStddevUs := x },
  .real "bounce_off_mean_us" (·.bounceOffMeanUs) fun x c => { c with bounceOffMeanUs := x },
  .real "bounce_off_stddev_us" (·.bounceOffStddevUs) fun x c => { c with bounceOffStddevUs := x },
  .real "bounce_on_mean_us" (·.bounceOnMeanUs) fun x c => { c with bounceOnMeanUs := x },
  .real "bounce_on_stddev_us" (·.bounceOnStddevUs) fun x c => { c with bounceOnStddevUs := x },
  .int "max_wait_us" (·.maxWaitUs) fun n c => { c with maxWaitUs := n },
  .text "entropy" (·.entropy) fun s c => { c with entropy := s }]

def HidConfig.fields : List (Field HidConfig) := [
  .text "host" (·.host) fun s c => { c with host := s },
  .int "keyboard_port" (·.keyboardPort) fun n c => { c with keyboardPort := n },
  .real "timeout" (·.timeout) fun x c => { c with timeout := x },
  .bool "auto_reconnect" (·.autoReconnect) fun b c => { c with autoReconnect := b }]

def HostConfig.fields : List (Field HostConfig) := [
  .real "scan_interval_ms" (·.scanIntervalMs) fun x c => { c with scanIntervalMs := x },
  .bool "dry_run" (·.dryRun) fun b c => { c with dryRun := b }]

def LogConfig.fields : List (Field LogConfig) := [
  .text "level" (·.level) fun s c => { c with level := s },
  .text? "log_dir" (·.logDir) fun s c => { c with logDir := s },
  .bool "colored" (·.colored) fun b c => { c with colored := b }]

namespace Settings

def sections : List String := ["engine", "modes", "hid", "host", "logging"]

/-- the modes that a mapping of names to definitions gives; nothing stands for the built-in ones -/
def modesOfData (data : Value) (room : Room := {}) : Except Fault (List Policy) :=
  match data with
  | .null => .ok Policy.builtin
  | .map entries => entries.mapM fun (name, body) => Policy.ofData name body room
  | _ => .error (sectionFault "modes" "must be a mapping of mode name to definition")

/-- a value of the wrong kind is a fault of the settings -/
def asConfigFault : Fault → Fault
  | .wrongKind text => .config ⟨none, text⟩
  | fault => fault

/-- the settings of a mapping of sections -/
def ofEntries (entries : List (Value × Value)) (room : Room := {}) : Except Fault Settings := do
  let part (name : String) : Value := (Value.find? (.str name) entries).getD .null
  match (entries.map (·.1)).filter fun k => !sections.any fun s => (Value.str s).same k with
  | [] => pure ()
  | unknown => throw (.config ⟨none, "unknown sections: " ++ (← Value.listed unknown)⟩)
  let modes ← modesOfData (part "modes") room
  let read : Except Fault Settings := do
    let settings : Settings :=
      { engine := ← Field.read EngineConfig.fields {} "engine" (part "engine") room.field
        modes
        hid := ← Field.read HidConfig.fields {} "hid" (part "hid") room.field
        host := ← Field.read HostConfig.fields {} "host" (part "host") room.field
        logging := ← Field.read LogConfig.fields {} "logging" (part "logging") room.field }
    settings.check
    return settings
  read.mapError asConfigFault

/-- only a mapping holds settings -/
def ofData (data : Value) (room : Room := {}) : Except Fault Settings :=
  match data with
  | .map entries => ofEntries entries room
  | v => .error (.lacksMember v.longKind "get")

/-- modes by name; of two with one name the later takes the place of the earlier -/
def modesToData (modes : List Policy) : Value :=
  .map (modes.foldl (fun es p => Value.insert p.name p.toData es) [])

def toData (s : Settings) : Value := .map [
  (.str "engine", Field.write EngineConfig.fields s.engine),
  (.str "modes", modesToData s.modes),
  (.str "hid", Field.write HidConfig.fields s.hid),
  (.str "host", Field.write HostConfig.fields s.host),
  (.str "logging", Field.write LogConfig.fields s.logging)]

/-- the same phases, number for number -/
def samePhases (ps qs : List Phase) : Bool :=
  ps.length == qs.length
    && (ps.zip qs).all fun (p, q) => p.key == q.key && p.mean == q.mean && p.stddev == q.stddev

def samePolicy (p q : Policy) : Bool :=
  p.name.same q.name && samePhases p.phases q.phases && p.toggleKey.same q.toggleKey

/-- equal in every field; "not a number" equals nothing -/
def same (s t : Settings) : Bool :=
  (Field.write EngineConfig.fields s.engine).same (Field.write EngineConfig.fields t.engine)
    && (s.modes.length == t.modes.length && (s.modes.zip t.modes).all fun (p, q) => samePolicy p q)
    && (Field.write HidConfig.fields s.hid).same (Field.write HidConfig.fields t.hid)
    && (Field.write HostConfig.fields s.host).same (Field.write HostConfig.fields t.host)
    && (Field.write LogConfig.fields s.logging).same (Field.write LogConfig.fields t.logging)

end Settings
end KeyHold
