/-
Settings in files.

Settings are read from the file that is asked for, or from the first of the usual ones that exists, or are the
defaults. An empty file stands for the defaults too.

- `Settings.load`: the settings that a run starts with.
- `Settings.save`: writes settings so that `load` gives them back.
-/
import KeyHold.Files.Basic
import KeyHold.Settings.Data
import KeyHold.Yaml.Data
import KeyHold.Yaml.Print

namespace KeyHold.Settings

/-- where people keep their own settings -/
def home : String := "home"

/-- where settings are looked for, first the place that the environment names -/
def usualPaths (env? : Option String) : List String :=
  ((env?.filter (· ≠ "")).map Path.normal).toList ++
    ["config/humanhold.yaml", Path.below home ".config/humanhold/config.yaml", "/etc/humanhold/config.yaml"]

/-- the settings that a text gives; `path` is what messages call it -/
def ofText (path text : String) : Except Fault Settings := do
  let data ← (Yaml.read? text).mapError (·.fault path)
  match data with
  | .null => ofEntries []
  | .map entries => ofEntries entries
  | _ => throw (.config ⟨none, "top level of " ++ path ++ " must be a mapping"⟩)

def ofFile (files : Files) (path : String) : Except Fault Settings := files.read path >>= ofText path

/-- the settings of a path, or of the first usual one that leads anywhere; an empty path asks for the defaults -/
def load (files : Files) (env? path? : Option String) : Except Fault Settings := do
  match path? with
  | some path =>
    if files.locate path = .nothing then throw (.config ⟨none, "config file not found: " ++ path⟩)
    if path = "" then return {}
    ofFile files path
  | none =>
    match (usualPaths env?).find? fun p => files.locate p ≠ .nothing with
    | some path => ofFile files path
    | none => return {}

/-- the text of settings -/
def text (s : Settings) : String :=
  match s.toData with
  | .map entries => Yaml.print entries
  | _ => ""

/-- writes settings to a path, after the directories on the way to it -/
def save (s : Settings) (path : String) (files : Files) : Except Fault Files :=
  files.makeDir (Path.parent path) >>= Files.write path s.text

end KeyHold.Settings
