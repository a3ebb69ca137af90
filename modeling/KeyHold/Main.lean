/-
The program.

The settings files that a run may read are gathered first; the log is written when the run is over. A terminal alone
reports no keys, so `run` ends once it has begun to listen.
-/
import KeyHold.Cli.Basic
import KeyHold.Random.Normal

namespace KeyHold.Cli

/-- the texts at those of the paths where there is one -/
def gather (paths : List String) : IO (List (String × String)) :=
  paths.filterMapM fun (path : String) => do
    try
      let text ← IO.FS.readFile path
      return some (path, text)
    catch _ => return none

/-- the file that the arguments name comes after those that are looked for anyway -/
def candidates (env? : Option String) (args : List String) : List String :=
  Settings.usualPaths env? ++
    match grammar.parseAll {} args with
    | .ok a => a.config?.toList
    | .error _ => []

end KeyHold.Cli

open KeyHold

def main (args : List String) : IO UInt32 := do
  let env? ← IO.getEnv "HUMANHOLD_CONFIG"
  let files := Files.ofList (← Cli.gather (Cli.candidates env? args))
  let o := Cli.run { files, env?, noise := Noise.boxMuller } args
  IO.print o.out
  IO.eprint o.err
  if let some (path, text) := o.log? then
    IO.FS.createDirAll (Text.joined "/" ((Text.splitAt '/' path.toList).dropLast.map String.ofList))
    IO.FS.writeFile path text
  match o.exit with
  | .ok n => return UInt32.ofNat n.toNat
  | .error f =>
    IO.eprintln f.message
    return 1
