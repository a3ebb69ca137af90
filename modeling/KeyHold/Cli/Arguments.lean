/-
The arguments of the program.

Options common to all commands come first, then the command with its own: `run` drives the controller, `simulate` runs
a mode offline, `modes` lists what is configured.
-/
import KeyHold.Cli.Grammar
import KeyHold.Decimal.Reading

namespace KeyHold.Cli

/-- what a simulation is asked for -/
structure Request where
  mode : String := ""
  seconds : Float := 60.0
  stepMs : Float := 1.0
  seed : Int := 0
  json : Bool := false

inductive Command where
  | run (dryRun : Bool)
  | simulate (r : Request)
  | modes

structure Arguments where
  config? : Option String := none
  logLevel? : Option String := none
  logDir? : Option String := none
  command? : Option Command := none

/-! ## Arguments of options -/

def readFloat (s : String) : Except String Float :=
  match Decimal.readReal? s with
  | some x => .ok x
  | none => .error ("invalid float value: " ++ Text.quoted s)

def readInt (s : String) : Except String Int :=
  match Decimal.readInt? s with
  | some n => .ok n
  | none => .error ("invalid int value: " ++ Text.quoted s)

/-- a scan step is not below the resolution of the clock -/
def readStep (s : String) : Except String Float :=
  match Decimal.readReal? s with
  | some x => if x < 0.001 then .error ("must be at least 0.001, got " ++ s) else .ok x
  | none => .error ("invalid _step_ms value: " ++ Text.quoted s)

def helpOption {α : Type} : Opt α := ⟨["-h", "--help"], .help⟩

/-! ## Commands -/

def runUsage : String := "usage: humanhold run [-h] [--dry-run]\n"

def runGrammar : Grammar Bool where
  program := "humanhold run"
  usage := runUsage
  help := runUsage ++ Text.joined "\n" [
    "",
    "options:",
    "  -h, --help  show this help message and exit",
    "  --dry-run   Log key actions instead of sending them",
    ""]
  options := [helpOption, ⟨["--dry-run"], .set fun _ => true⟩]
  slot := .nothing

def simulateUsage : String := Text.joined "\n" [
  "usage: humanhold simulate [-h] [--seconds SECONDS] [--step-ms STEP_MS]",
  "                          [--seed SEED] [--json]",
  "                          mode",
  ""]

def simulateGrammar : Grammar Request where
  program := "humanhold simulate"
  usage := simulateUsage
  help := simulateUsage ++ Text.joined "\n" [
    "",
    "positional arguments:",
    "  mode               Mode name (see \x22modes\x22)",
    "",
    "options:",
    "  -h, --help         show this help message and exit",
    "  --seconds SECONDS  Simulated seconds (default: 60)",
    "  --step-ms STEP_MS  Simulated scan interval (default: 1)",
    "  --seed SEED        Entropy mixed in at start (default: 0)",
    "  --json             Print JSON report",
    ""]
  options := [
    helpOption,
    ⟨["--seconds"], .take fun s => do let x ← readFloat s; return fun r => { r with seconds := x }⟩,
    ⟨["--step-ms"], .take fun s => do let x ← readStep s; return fun r => { r with stepMs := x }⟩,
    ⟨["--seed"], .take fun s => do let n ← readInt s; return fun r => { r with seed := n }⟩,
    ⟨["--json"], .set fun r => { r with json := true }⟩]
  slot := .one "mode" fun s r => { r with mode := s }

def modesUsage : String := "usage: humanhold modes [-h]\n"

def modesGrammar : Grammar Unit where
  program := "humanhold modes"
  usage := modesUsage
  help := modesUsage ++ Text.joined "\n" [
    "",
    "options:",
    "  -h, --help  show this help message and exit",
    ""]
  options := [helpOption]
  slot := .nothing

/-- a command read by its own grammar -/
def commandOf {β : Type} (g : Grammar β) (start : β) (make : β → Command) (args : List String) :
    Except Stop ((Arguments → Arguments) × List String) := do
  let (value, extras) ← g.parse start args
  return (fun a => { a with command? := some (make value) }, extras)

def usage : String := Text.joined "\n" [
  "usage: humanhold [-h] [--config CONFIG] [--log-level LOG_LEVEL]",
  "                 [--log-dir LOG_DIR]",
  "                 \x7brun,simulate,modes\x7d ...",
  ""]

def help : String := usage ++ Text.joined "\n" [
  "",
  "Human-like alternating key-hold macros",
  "",
  "positional arguments:",
  "  \x7brun,simulate,modes\x7d",
  "    run                 Listen for toggle keys and run macros",
  "    simulate            Simulate a mode offline",
  "    modes               List configured modes",
  "",
  "options:",
  "  -h, --help            show this help message and exit",
  "  --config CONFIG, -c CONFIG",
  "                        Path to YAML config file",
  "  --log-level LOG_LEVEL",
  "                        Override log level (DEBUG, INFO, ...)",
  "  --log-dir LOG_DIR     Also write logs to this directory",
  ""]

def grammar : Grammar Arguments where
  program := "humanhold"
  usage := usage
  help := help
  options := [
    helpOption,
    ⟨["--config", "-c"], .take fun s => .ok fun a => { a with config? := some s }⟩,
    ⟨["--log-level"], .take fun s => .ok fun a => { a with logLevel? := some s }⟩,
    ⟨["--log-dir"], .take fun s => .ok fun a => { a with logDir? := some s }⟩]
  slot := .command "command" [
    ("run", commandOf runGrammar false .run),
    ("simulate", commandOf simulateGrammar {} .simulate),
    ("modes", commandOf modesGrammar () fun _ => .modes)]

end KeyHold.Cli
