/-
Timing policies.

A policy is the cycle of one macro mode: its name, an ordered table of phases (a key, the mean and the deviation of
its hold in milliseconds) and the toggle key that starts and stops it. A table is never empty, so an index modulo its
length always names a phase. `Policy.make?` accepts the tables whose keys are not empty, whose means are positive and
whose deviations are not negative.

- `phase`, `phaseAfter`: cyclic, for any integer index.
- `keys`: the distinct keys in the order of their first phases; `phaseForKey` finds that phase again.
-/
import KeyHold.Value.Writing

namespace KeyHold

/-- one step of a mode's cycle -/
structure Phase where
  key : String
  mean : Float
  stddev : Float
deriving Inhabited

structure Policy where
  name : Value
  phases : List Phase
  toggleKey : Value := .null
  phases_ne_nil : phases ≠ [] := by simp

namespace Policy

instance : Inhabited Policy := ⟨{ name := .null, phases := [⟨"", 0, 0⟩] }⟩

def length (p : Policy) : Nat := p.phases.length

theorem length_pos (p : Policy) : 0 < p.length := List.length_pos_iff.mpr p.phases_ne_nil

/-- an index reduced to the table's -/
def reduce (p : Policy) (i : Int) : Nat := (i % (p.length : Int)).toNat

theorem reduce_lt (p : Policy) (i : Int) : p.reduce i < p.length := by
  have := p.length_pos
  have := Int.emod_lt_of_pos i (show (0 : Int) < p.length by omega)
  have := Int.emod_nonneg i (show (p.length : Int) ≠ 0 by omega)
  unfold reduce
  omega

/-- the phase of an index, counted around the cycle -/
def phase (p : Policy) (i : Int) : Phase := p.phases.get ⟨p.reduce i, p.reduce_lt i⟩

/-- the index of the phase that follows; the first follows the last -/
def phaseAfter (p : Policy) (i : Int) : Nat := p.reduce (i + 1)

/-- the items without repetition, each where it stood first -/
def distinct (items : List String) : List String :=
  items.foldl (fun seen k => if seen.contains k then seen else seen ++ [k]) []

/-- the distinct keys in phase order -/
def keys (p : Policy) : List String := distinct (p.phases.map Phase.key)

/-- the first phase that holds a key, 0 if none does -/
def phaseForKey (p : Policy) (key : String) : Nat := (p.phases.findIdx? (·.key == key)).getD 0

/-- why a phase table is refused -/
inductive Flaw where
  | noPhases
  | noKey
  | meanNotPositive (mean : Float)
  | stddevNegative (stddev : Float)

/-- what is wrong with the table of a mode whose name is written so -/
def Flaw.message (name : String) : Flaw → String
  | noPhases => "mode " ++ name ++ " has no phases"
  | noKey => "mode " ++ name ++ " has a phase without a key"
  | meanNotPositive x => "mode " ++ name ++ ": mean_ms must be positive, got " ++ Decimal.text x
  | stddevNegative x => "mode " ++ name ++ ": stddev_ms must not be negative, got " ++ Decimal.text x

/-- the flaw of one phase, if it has one -/
def phaseFlaw? (ph : Phase) : Option Flaw :=
  if ph.key = "" then some .noKey
  else if ph.mean ≤ 0.0 then some (.meanNotPositive ph.mean)
  else if ph.stddev < 0.0 then some (.stddevNegative ph.stddev)
  else none

def flawed (depth : Option Nat) (name : Value) (flaw : Flaw) : Fault :=
  Value.quoting depth name fun shown => .config ⟨some "modes", flaw.message shown⟩

/-- the policy of a name, a table and a toggle key; the first flawed phase refuses the table -/
def make? (name : Value) (phases : List Phase) (toggleKey : Value) (depth : Option Nat := none) :
    Except Fault Policy :=
  if h : phases = [] then .error (flawed depth name .noPhases)
  else
    match phases.findSome? phaseFlaw? with
    | some flaw => .error (flawed depth name flaw)
    | none => .ok { name, phases, toggleKey, phases_ne_nil := h }

/-- up and right control in turn -/
def og : Policy where
  name := .str "og"
  phases := [⟨"up", 900.0, 250.0⟩, ⟨"rctrl", 4500.0, 700.0⟩]
  toggleKey := .str "pause"

/-- up and a in turn -/
def extra : Policy where
  name := .str "extra"
  phases := [⟨"up", 700.0, 200.0⟩, ⟨"a", 2150.0, 100.0⟩]
  toggleKey := .str "print_screen"

/-- the modes there are unless others are configured -/
def builtin : List Policy := [og, extra]

end Policy
end KeyHold
