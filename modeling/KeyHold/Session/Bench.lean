/-
A bench to run sessions on.

The bench has a virtual clock, a recorder that reads it, a journal, a list of seed values used in turn, and a record
of the changes of mode. Its key calls can be made to fail: `faulty` says of each call, by direction and by the number
of calls of that direction before it, whether it fails; a failing call records nothing.
-/
import KeyHold.Driver
import KeyHold.Effector.Recorder

namespace KeyHold

/-- seed values used in turn, from the first again after the last -/
structure Cycle where
  values : List Int
  next : Nat := 0
deriving Repr, Inhabited

def Cycle.draw (c : Cycle) : Int × Cycle :=
  (c.values[c.next % c.values.length]?.getD 0, { c with next := c.next + 1 })

structure Bench where
  clock : VirtualClock := .startingAt 0
  recorder : Recorder := {}
  journal : Array Entry := #[]
  entropy : Cycle := ⟨[0], 0⟩
  /-- the modes that changes led to -/
  changes : Array Value := #[]
  downs : Nat := 0
  ups : Nat := 0
  faulty : Direction → Nat → Bool := fun _ _ => false
deriving Inhabited

namespace Bench

/-- what a failing key call says -/
def linkDown : Fault := .outage ⟨"RuntimeError", "link down"⟩

/-- the number of calls of a direction so far -/
def calls (b : Bench) : Direction → Nat
  | .down => b.downs
  | .up => b.ups

def count (b : Bench) : Direction → Bench
  | .down => { b with downs := b.downs + 1 }
  | .up => { b with ups := b.ups + 1 }

def record (b : Bench) (key : String) : Direction → Bench
  | .down => { b with recorder := b.recorder.keyDown b.clock.nowUs key }
  | .up => { b with recorder := b.recorder.keyUp b.clock.nowUs key }

/-- a key call: counted, and recorded unless it fails -/
def call (d : Direction) (key : String) (b : Bench) : Except Fault Unit × Bench :=
  if b.faulty d (b.calls d) then (.error linkDown, b.count d) else (.ok (), (b.record key d).count d)

def note (e : Entry) (b : Bench) : Bench := { b with journal := b.journal.push e }

def rig : Rig Bench where
  keyDown := call .down
  keyUp := call .up
  waitUs us b := { b with clock := b.clock.wait us }
  note := note

def hostRig : HostRig Bench where
  toRig := rig
  stamp b := b.clock.stamp
  entropy b := let (n, c) := b.entropy.draw; (n, { b with entropy := c })
  changed mode b := { b with changes := b.changes.push mode }

/-- no key call fails -/
def sound (b : Bench) : Prop := ∀ d n, b.faulty d n = false

/-- from now on calls of a direction succeed `n` more times and then fail; those of the other do as before -/
def failAfter (d : Direction) (n : Nat) (b : Bench) : Bench :=
  { b with faulty := fun e k => if e = d then b.calls d + n ≤ k else b.faulty e k }

/-- calls succeed from now on -/
def mend (b : Bench) : Bench := { b with faulty := fun _ _ => false }

end Bench
end KeyHold
