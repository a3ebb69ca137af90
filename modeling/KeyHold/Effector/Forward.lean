/-
The effector that sends.

Holds and releases are forwarded to an outlet, which says of each whether it was delivered. A press that is not
delivered is forgotten. A release that is not delivered is sent once more; one that fails twice is lost, and counted,
since the other side may still hold the key.
-/
import KeyHold.Effector.Recorder
import KeyHold.Journal

namespace KeyHold

/-- something that commands can be sent through -/
structure Outlet (σ : Type) where
  send : String → String → σ → Except Fault Bool × σ
  note : Entry → σ → σ

/-- an outlet's state with the number of releases lost on it -/
structure Forwarder (σ : Type) where
  outlet : σ
  lost : Nat := 0

namespace Forwarder

variable {σ : Type} (O : Outlet σ)

abbrev Act (σ : Type) := ExceptT Fault (StateM (Forwarder σ))

def send (key : String) (d : Direction) : Act σ Bool := fun f =>
  let (r, outlet) := O.send key d.name f.outlet
  (r, { f with outlet })

def say (level : Level) (text : String) : Act σ Unit :=
  modify fun f => { f with outlet := O.note ⟨level, .effector, text⟩ f.outlet }

def keyDown (key : String) : Act σ Unit := do
  let _ ← send O key .down

def keyUp (key : String) : Act σ Unit := do
  if ← send O key .up then return
  say O .warning ("Release of " ++ Text.quoted key ++ " not delivered, retrying")
  if ← send O key .up then return
  modify fun f => { f with lost := f.lost + 1 }
  say O .error ("Release of " ++ Text.quoted key ++ " lost, HID controller may still hold it")

end Forwarder
end KeyHold
