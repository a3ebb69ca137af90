/-
The effector of a dry run.

It says what would be sent and sends nothing.
-/
import KeyHold.Effector.Recorder
import KeyHold.Journal

namespace KeyHold.DryRun

def note (d : Direction) (key : String) : Entry :=
  ⟨.debug, .effector, (match d with | .down => "Would hold: " | .up => "Would release: ") ++ key⟩

end KeyHold.DryRun
