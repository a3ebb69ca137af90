/-
The program as its user sees it.

`Cli.run` reads the arguments and the settings, opens the journal and carries out the command. All that it would show
or leave behind is in its `Outcome`: the exit code or the fault that ended it, the text on each stream, the log file,
and what a host did if one ran.
-/
import KeyHold.Cli.Arguments
import KeyHold.Host.Run
import KeyHold.Journal.Sinks
import KeyHold.Settings.Files
import KeyHold.Simulation.Basic

namespace KeyHold.Cli

/-- what surrounds a run: files, the settings file that the environment names, and the world of a host -/
structure Surroundings where
  files : Files := {}
  env? : Option String := none
  noise : Noise
  pauses : List (List Happening) := []
  station : Station := {}

structure Outcome where
  exit : Except Fault Int
  /-- the arguments alone decided how it ended -/
  early : Bool := false
  out : String := ""
  err : String := ""
  log? : Option (String × String) := none
  host? : Option Host.Outcome := none

/-- with a journal: what it showed stands before what was printed after it -/
def afterSinks (s : Sinks) (o : Outcome) : Outcome :=
  { o with out := s.console ++ o.out, log? := s.file?.map fun path => (path, s.fileText) }

/-- the entries written to the sinks -/
def tell (entries : Array Entry) (s : Sinks) : Sinks := entries.foldl (fun s e => s.emit (Record.ofEntry e)) s

/-- one line for a mode and one for each of its phases -/
def modeLines (p : Policy) : List String :=
  let toggle := if p.toggleKey.truthy then p.toggleKey.plain else "-"
  let phaseLine (ph : Phase) (i : Nat) : String :=
    "  " ++ toString i ++ ": " ++ Text.padRight 10 ph.key ++ " " ++ Text.padLeft 8 (Decimal.fixed 0 ph.mean) ++ "ms ± "
      ++ Decimal.fixed 0 ph.stddev ++ "ms"
  (p.name.plain ++ "  (toggle: " ++ toggle ++ ")") :: p.phases.zipIdx.map fun (ph, i) => phaseLine ph i

def modesText (settings : Settings) : String :=
  String.join ((settings.registry.policies.flatMap modeLines).map (· ++ "\n"))

/-- what is said of a mode that is not configured -/
def unknownText (f : Fault) (settings : Settings) : Except Fault String := do
  return "Error: " ++ f.message ++ ". Available: " ++ (← Value.joinTexts settings.registry.names) ++ "\n"

def simulate (noise : Noise) (r : Request) (settings : Settings) (sinks : Sinks) : Outcome :=
  match settings.registry.get (.str r.mode) with
  | .error f =>
    match unknownText f settings with
    | .ok err => afterSinks sinks { exit := .ok 1, err }
    | .error f => afterSinks sinks { exit := .error f }
  | .ok policy =>
    let (report, entries) := Simulation.simulate noise
      { policy, seconds := r.seconds, stepMs := r.stepMs, seed := r.seed, config := settings.engine }
    let sinks := tell entries sinks
    match report with
    | .error f => afterSinks sinks { exit := .error f }
    | .ok report =>
      let out := (if r.json then report.toJson.indented else report.text) ++ "\n"
      afterSinks sinks { exit := .ok (if report.endedClean then 0 else 1), out }

/-- an interrupt is only noted; a host that was still running when the happenings ended counts as done -/
def host (around : Surroundings) (dryRun : Bool) (settings : Settings) (sinks : Sinks) : Outcome :=
  let h := Host.run settings around.noise dryRun around.pauses around.station
  let sinks := tell h.station.journal sinks
  match h.result with
  | some (.error .interrupted) =>
    afterSinks (tell #[⟨.info, .commandLine, "Interrupted"⟩] sinks) { exit := .ok 130, host? := some h }
  | some exit => afterSinks sinks { exit, host? := some h }
  | none => afterSinks sinks { exit := .ok 0, host? := some h }

def command (around : Surroundings) (settings : Settings) (sinks : Sinks) : Command → Outcome
  | .run dryRun => host around dryRun settings sinks
  | .simulate r => simulate around.noise r settings sinks
  | .modes => afterSinks sinks { exit := .ok 0, out := modesText settings }

/-- an option if it says anything, else what the settings say -/
def orElse (option? : Option String) (setting : Option String) : Option String :=
  (option?.filter (· ≠ "")).or setting

/-- the sinks that arguments and settings ask for -/
def openSinks (files : Files) (a : Arguments) (c : LogConfig) : Except Fault Sinks := do
  let dir := (orElse a.logDir? c.logDir).filter (· ≠ "")
  let sinks ← Sinks.open? ((orElse a.logLevel? (some c.level)).getD "") none dir c.colored
  if let some dir := dir then
    let _ ← files.makeDir dir
  return sinks

/-- a fault of the settings is reported; any other is passed on -/
def reported : Fault → Outcome
  | .config e => { exit := .ok 2, err := "Configuration error: " ++ e.message ++ "\n" }
  | .malformed path detail =>
    { exit := .ok 2, err := "Configuration error: " ++ (Fault.malformed path detail).message ++ "\n" }
  | f => { exit := .error f }

def start (around : Surroundings) (a : Arguments) (c : Command) : Outcome :=
  match Settings.load around.files around.env? a.config? with
  | .error f => reported f
  | .ok settings =>
    match openSinks around.files a settings.logging with
    | .error f => { exit := .error f }
    | .ok sinks => command around settings sinks c

/-- a run from its arguments to its end; without a command the program only explains itself -/
def run (around : Surroundings) (args : List String) : Outcome :=
  match grammar.parseAll {} args with
  | .error (.help text) => { exit := .ok 0, early := true, out := text }
  | .error (.refused program usage problem) =>
    { exit := .ok 2, early := true, err := usage ++ program ++ ": error: " ++ problem ++ "\n" }
  | .ok a =>
    match a.command? with
    | none => { exit := .ok 1, out := help }
    | some c => start around a c

end KeyHold.Cli
